/-!
# Messages

A text to be translated. Within a catalog a message is known by its context and its singular.
-/

namespace StringHarvest

/-- A message; an empty text means that the part is absent. -/
structure Message where
  /-- The text itself. -/
  singular : String
  /-- Its plural form. -/
  plural : String := ""
  /-- What tells equal texts of different meaning apart. -/
  context : String := ""
  /-- What translators should know. -/
  comment : String := ""
  /-- The translated text, which is not known yet when messages are collected. -/
  message : String := ""
  deriving DecidableEq, Repr

namespace Message

/-- What a message is known by. -/
structure Id where
  /-- Its context. -/
  context : String
  /-- Its singular. -/
  singular : String
  deriving DecidableEq, Repr

/-- What a message is known by. -/
def id (m : Message) : Id := ⟨m.context, m.singular⟩

/-- Whether a message has a plural form. -/
def hasPlural (m : Message) : Bool := m.plural != ""

end Message

end StringHarvest
