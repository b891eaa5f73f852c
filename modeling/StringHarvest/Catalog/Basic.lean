import StringHarvest.Message.Basic
import StringHarvest.Trace

/-!
# Catalogs

A catalog holds messages, at most one for every context and singular. Inserting a message
that is known already replaces the old one in its place, so the messages stand in the order
in which they were first seen.
-/

namespace StringHarvest

/-- Messages in the order in which they were first seen. -/
structure Catalog where
  /-- The messages. -/
  messages : List Message := []
  deriving DecidableEq, Repr

namespace Catalog

/-- The empty catalog. -/
def empty : Catalog := ⟨[]⟩

/-- The messages after one has been put in the place of the one it replaces, or at the end. -/
def put (m : Message) : List Message → List Message
  | [] => [m]
  | old :: rest => if old.id == m.id then m :: rest else old :: put m rest

/-- Inserts a message, in place of the one with the same context and singular. -/
def insert (catalog : Catalog) (m : Message) : Catalog := ⟨put m catalog.messages⟩

/-- Inserts messages from first to last. -/
def insertAll (catalog : Catalog) (messages : List Message) : Catalog :=
  messages.foldl insert catalog

/-- The catalog of a list of messages. -/
def ofList (messages : List Message) : Catalog := empty.insertAll messages

/-- The messages from first to last. -/
def toList (catalog : Catalog) : List Message := catalog.messages

/-- Inserts the messages of another catalog. -/
def merge (catalog other : Catalog) : Catalog := catalog.insertAll other.messages

/-- The message that is known by a context and a singular. -/
def get? (catalog : Catalog) (context singular : String) : Option Message :=
  catalog.messages.find? fun m => m.id == ⟨context, singular⟩

/-- The number of messages. -/
def size (catalog : Catalog) : Nat := catalog.messages.length

/-- Whether there are no messages. -/
def isEmpty (catalog : Catalog) : Bool := catalog.messages.isEmpty

/-- Keeps the messages that pass a test. -/
def filter (catalog : Catalog) (keep : Message → Bool) : Catalog := ⟨catalog.messages.filter keep⟩

/-- What is noted when a message is inserted: that it replaces one with
another plural or comment. -/
def insertEvents (catalog : Catalog) (m : Message) : List Event :=
  match catalog.get? m.context m.singular with
  | some old =>
    if old.plural != m.plural || old.comment != m.comment then
      [.overwriting m.singular m.context]
    else []
  | none => []

end Catalog

end StringHarvest
