import StringHarvest.Message.OfCall

/-!
# Message calls in a tree

The walk through a tree that finds its message calls. A call is one when its callee spells a name
among the given ones. Nothing below such a call is visited, so the message of an inner call is never
taken. Five slots are not visited either, because what stands in them is tested, named or made
rather than shown: the test of a conditional expression and of an `if` statement, the discriminant
of a `switch`, the key of a property and the callee of `new`.

Of a conditional expression the alternate comes before the consequent.
-/

namespace StringHarvest

/-- Whether a name is one of a message function; the empty name never is. -/
def isMessageFunction (names : List String) (name : String) : Bool :=
  name != "" && names.contains name

/-- What a walk through a tree meets. -/
inductive Finding where
  /-- Something to be noted. -/
  | event (event : Event)
  /-- A message call. -/
  | call (call : Call)

namespace Node

/-- The visit of a node of the given kind, before what is met below it. -/
def visit (kind : String) (below : List Finding) : List Finding := .event (.visiting kind) :: below

mutual

/-- What is met from a node on downwards, in the order of the visits. -/
def findings (names : List String) : Node → List Finding
  | .array elements => visit "ArrayExpression" (findingsAll names elements)
  | .assignment _ right => visit "AssignmentExpression" (findings names right)
  | .binary _ left right => visit "BinaryExpression" (findings names left ++ findings names right)
  | .call callee arguments location =>
    let name := callee.dottedName
    visit "CallExpression" (name.events.map .event ++
      (if isMessageFunction names name.value then [.call ⟨arguments, location⟩]
       else findings names callee ++ findingsAll names arguments))
  | .conditional _ consequent alternate =>
    visit "ConditionalExpression" (findings names alternate ++ findings names consequent)
  | .expressionStatement expression => visit "ExpressionStatement" (findings names expression)
  | .identifier _ => visit "Identifier" []
  | .ifStatement _ consequent alternate =>
    visit "IfStatement" (findings names consequent ++ findings? names alternate)
  | .literal _ => visit "Literal" []
  | .logical _ left right => visit "LogicalExpression" (findings names left ++ findings names right)
  | .member owner part _ => visit "MemberExpression" (findings names owner ++ findings names part)
  | .new _ arguments => visit "NewExpression" (findingsAll names arguments)
  | .object properties => visit "ObjectExpression" (findingsAll names properties)
  | .property _ value => visit "Property" (findings names value)
  | .sequence expressions => visit "SequenceExpression" (findingsAll names expressions)
  | .switch _ cases => visit "SwitchStatement" (findingsAll names cases)
  | .switchCase test consequent =>
    visit "SwitchCase" (findings? names test ++ findingsAll names consequent)
  | .tryStatement block handler finalizer =>
    visit "TryStatement"
      (findings names block ++ findings? names handler ++ findings? names finalizer)
  | .variableDeclaration declarations =>
    visit "VariableDeclaration" (findingsAll names declarations)
  | .variableDeclarator init => visit "VariableDeclarator" (findings? names init)
  | .other kind argument body => visit kind (findings? names argument ++ findingsBody names body)

/-- `findings` over a list of nodes. -/
def findingsAll (names : List String) : List Node → List Finding
  | [] => []
  | node :: rest => findings names node ++ findingsAll names rest

/-- `findings` over a node that may be absent. -/
def findings? (names : List String) : Option Node → List Finding
  | none => []
  | some node => findings names node

/-- `findings` over a body. -/
def findingsBody (names : List String) : NodeBody → List Finding
  | .absent => []
  | .single node => findings names node
  | .sequence nodes => findingsAll names nodes

end

/-- The message calls of a tree in the order of the visits. -/
def messageCalls (names : List String) (node : Node) : List Call :=
  (node.findings names).filterMap fun
    | .event _ => none
    | .call found => some found

end Node

end StringHarvest
