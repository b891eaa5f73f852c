import StringHarvest.Number.Shortest
import StringHarvest.Text.Location

/-!
# Nodes

The small tree in which message calls are looked for. A node keeps of a construct only the slots
that matter to the search. Constructs without slots of their own are `Node.other`: a kind, at
most one argument, and a body.

Only calls have a location, because a message is found again by its call.
-/

namespace StringHarvest

/-- The value of a literal. What never takes part in a message, such as a regular
expression, is kept as raw text. -/
inductive Literal where
  | string (value : String)
  | number (value : Binary64)
  | boolean (value : Bool)
  | null
  | raw (text : String)
  deriving DecidableEq, Repr

/-- The text of a literal. -/
def Literal.display : Literal → String
  | .string value => value
  | .number value => value.display
  | .boolean value => if value then "true" else "false"
  | .null => "null"
  | .raw text => text

mutual

/-- A node. -/
inductive Node where
  | array (elements : List Node)
  | assignment (operator : String) (right : Node)
  | binary (operator : String) (left right : Node)
  | call (callee : Node) (arguments : List Node) (location : Option Location)
  | conditional (test consequent alternate : Node)
  | expressionStatement (expression : Node)
  | identifier (name : String)
  | ifStatement (test consequent : Node) (alternate : Option Node)
  | literal (value : Literal)
  | logical (operator : String) (left right : Node)
  /-- `object.property`, or `object[property]` if it is computed. -/
  | member (object property : Node) (computed : Bool)
  | new (callee : Node) (arguments : List Node)
  | object (properties : List Node)
  | property (key value : Node)
  | sequence (expressions : List Node)
  | switch (discriminant : Node) (cases : List Node)
  | switchCase (test : Option Node) (consequent : List Node)
  | tryStatement (block : Node) (handler finalizer : Option Node)
  | variableDeclaration (declarations : List Node)
  | variableDeclarator (init : Option Node)
  | other (kind : String) (argument : Option Node) (body : NodeBody)

/-- The body of a node of no special kind. -/
inductive NodeBody where
  | absent
  | single (node : Node)
  | sequence (nodes : List Node)

end

instance : Inhabited Node := ⟨.identifier ""⟩

namespace Node

/-- The name of the kind of a node. -/
def kindName : Node → String
  | .array .. => "ArrayExpression"
  | .assignment .. => "AssignmentExpression"
  | .binary .. => "BinaryExpression"
  | .call .. => "CallExpression"
  | .conditional .. => "ConditionalExpression"
  | .expressionStatement .. => "ExpressionStatement"
  | .identifier .. => "Identifier"
  | .ifStatement .. => "IfStatement"
  | .literal .. => "Literal"
  | .logical .. => "LogicalExpression"
  | .member .. => "MemberExpression"
  | .new .. => "NewExpression"
  | .object .. => "ObjectExpression"
  | .property .. => "Property"
  | .sequence .. => "SequenceExpression"
  | .switch .. => "SwitchStatement"
  | .switchCase .. => "SwitchCase"
  | .tryStatement .. => "TryStatement"
  | .variableDeclaration .. => "VariableDeclaration"
  | .variableDeclarator .. => "VariableDeclarator"
  | .other kind .. => kind

/-- Whether a node is an object literal. -/
def isObject : Node → Bool
  | .object _ => true
  | _ => false

/-- A string literal. -/
def string (value : String) : Node := .literal (.string value)

/-- A node of no special kind without children. -/
def leaf (kind : String) : Node := .other kind none .absent

/-- A node of no special kind that holds an argument or nothing. -/
def withArgument (kind : String) (argument : Option Node) : Node := .other kind argument .absent

/-- A node of no special kind around one node. -/
def around (kind : String) (inner : Node) : Node := .other kind none (.single inner)

/-- A node of no special kind that holds a list of nodes. -/
def listing (kind : String) (nodes : List Node) : Node := .other kind none (.sequence nodes)

end Node

end StringHarvest
