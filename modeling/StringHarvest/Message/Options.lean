import StringHarvest.Node.Constant

/-!
# Options of a call

A message call may end with an object literal such as `{ context: "menu" }`. Its properties are
read as texts under names; those without a name or without a text are left out, and of several
under one name the last one counts.
-/

namespace StringHarvest

/-- Texts under names. -/
structure Options where
  /-- The names with their texts, every name once. -/
  entries : List (String × String) := []
  deriving DecidableEq, Repr

namespace Options

/-- The entries after a text has been put under a name. -/
def put (name text : String) : List (String × String) → List (String × String)
  | [] => [(name, text)]
  | entry :: rest => if entry.1 == name then (name, text) :: rest else entry :: put name text rest

/-- Puts a text under a name, in place of the one that stood there. -/
def insert (options : Options) (name text : String) : Options := ⟨put name text options.entries⟩

/-- The text under a name. -/
def get? (options : Options) (name : String) : Option String := options.entries.lookup name

/-- The number of names. -/
def size (options : Options) : Nat := options.entries.length

/-- Whether there are no names. -/
def isEmpty (options : Options) : Bool := options.entries.isEmpty

/-- The context of the message. -/
def context (options : Options) : String := (options.get? "context").getD ""

/-- The comment on the message. -/
def comment (options : Options) : String := (options.get? "comment").getD ""

/-- The name that the key of a property spells; only plain names and literals spell one. -/
def nameOf : Node → String
  | .literal value => value.display
  | .identifier name => name
  | _ => ""

/-- Adds a property. -/
def addProperty (options : Options) : Node → Traced Options
  | .property key value => do
    let text ← value.constantText
    let name := nameOf key
    return if name != "" && text != "" then options.insert name text else options
  | _ => pure options

/-- Adds properties from first to last. -/
def addAll (options : Options) : List Node → Traced Options
  | [] => pure options
  | node :: rest => do
    let options ← options.addProperty node
    options.addAll rest

/-- The options that a node spells; only an object literal spells any. -/
def ofNode : Node → Traced Options
  | .object properties => addAll {} properties
  | _ => pure {}

end Options

end StringHarvest
