import StringHarvest.Node.Basic
import StringHarvest.Text.Quoted

/-!
# Nodes as traces show them

The text of a node with everything that it holds: each kind with its slots by name, texts between
quotes, and the location where a node may have one.
-/

namespace StringHarvest

namespace Text

/-- Texts by name, between braces behind a heading. -/
def record (heading : String) (fields : List (String × String)) : String :=
  heading ++ " \x7b " ++ ", ".intercalate (fields.map fun field => field.1 ++ ": " ++ field.2)
    ++ " \x7d"

/-- Texts between brackets. -/
def listed (texts : List String) : String := "[" ++ ", ".intercalate texts ++ "]"

/-- A text between parentheses behind a heading. -/
def wrapped (heading text : String) : String := heading ++ "(" ++ text ++ ")"

/-- A text that may be absent. -/
def optional : Option String → String
  | none => "None"
  | some text => wrapped "Some" text

end Text

/-- A location as traces show it. -/
def Location.dump (location : Location) : String :=
  Text.record "Loc" [("line", toString location.line), ("column", toString location.column)]

/-- A location that may be absent. -/
def Location.dump? (location : Option Location) : String := Text.optional (location.map dump)

/-- A literal as traces show it. -/
def Literal.dump : Literal → String
  | .string value => Text.wrapped "String" (Text.quoted value)
  | .number value => Text.wrapped "Number" value.dump
  | .boolean value => Text.wrapped "Boolean" (toString value)
  | .null => "Null"
  | .raw text => Text.wrapped "Raw" (Text.quoted text)

namespace Node

/-- A node around the text of its kind and slots. -/
def dumpOf (location : Option Location) (kind : String) : String :=
  Text.record "SyntaxNode" [("kind", kind), ("loc", Location.dump? location)]

/-- A node around its kind and its slots by name. -/
def dumpSlots (kind : String) (slots : List (String × String)) : String :=
  dumpOf none (Text.record kind slots)

mutual

/-- A node as traces show it. -/
def dump : Node → String
  | .array elements => dumpSlots "Array" [("elements", Text.listed (dumpAll elements))]
  | .assignment operator right =>
    dumpSlots "Assignment" [("operator", Text.quoted operator), ("right", dump right)]
  | .binary operator left right =>
    dumpSlots "Binary"
      [("operator", Text.quoted operator), ("left", dump left), ("right", dump right)]
  | .call callee arguments location =>
    dumpOf location (Text.record "Call"
      [("callee", dump callee), ("arguments", Text.listed (dumpAll arguments))])
  | .conditional test consequent alternate =>
    dumpSlots "Conditional"
      [("test", dump test), ("consequent", dump consequent), ("alternate", dump alternate)]
  | .expressionStatement expression =>
    dumpSlots "ExpressionStatement" [("expression", dump expression)]
  | .identifier name => dumpSlots "Identifier" [("name", Text.quoted name)]
  | .ifStatement test consequent alternate =>
    dumpSlots "If" [("test", dump test), ("consequent", dump consequent),
      ("alternate", Text.optional (dump? alternate))]
  | .literal value => dumpOf none (Text.wrapped "Literal" value.dump)
  | .logical operator left right =>
    dumpSlots "Logical"
      [("operator", Text.quoted operator), ("left", dump left), ("right", dump right)]
  | .member owner part computed =>
    dumpSlots "Member"
      [("object", dump owner), ("property", dump part), ("computed", toString computed)]
  | .new callee arguments =>
    dumpSlots "New" [("callee", dump callee), ("arguments", Text.listed (dumpAll arguments))]
  | .object properties => dumpSlots "Object" [("properties", Text.listed (dumpAll properties))]
  | .property key value => dumpSlots "Property" [("key", dump key), ("value", dump value)]
  | .sequence expressions =>
    dumpSlots "Sequence" [("expressions", Text.listed (dumpAll expressions))]
  | .switch discriminant cases =>
    dumpSlots "Switch" [("discriminant", dump discriminant), ("cases", Text.listed (dumpAll cases))]
  | .switchCase test consequent =>
    dumpSlots "SwitchCase"
      [("test", Text.optional (dump? test)), ("consequent", Text.listed (dumpAll consequent))]
  | .tryStatement block handler finalizer =>
    dumpSlots "Try" [("block", dump block), ("handler", Text.optional (dump? handler)),
      ("finalizer", Text.optional (dump? finalizer))]
  | .variableDeclaration declarations =>
    dumpSlots "VariableDeclaration" [("declarations", Text.listed (dumpAll declarations))]
  | .variableDeclarator init =>
    dumpSlots "VariableDeclarator" [("init", Text.optional (dump? init))]
  | .other kind argument body =>
    dumpSlots "Other" [("kind", Text.quoted kind), ("argument", Text.optional (dump? argument)),
      ("body", Text.optional (dumpBody body))]

/-- `dump` over a list of nodes. -/
def dumpAll : List Node → List String
  | [] => []
  | node :: rest => dump node :: dumpAll rest

/-- `dump` over a node that may be absent. -/
def dump? : Option Node → Option String
  | none => none
  | some node => some (dump node)

/-- `dump` over a body. -/
def dumpBody : NodeBody → Option String
  | .absent => none
  | .single node => some (Text.wrapped "Single" (dump node))
  | .sequence nodes => some (Text.wrapped "Sequence" (Text.listed (dumpAll nodes)))

end

end Node

end StringHarvest
