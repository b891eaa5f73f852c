import StringHarvest.Catalog.Basic
import StringHarvest.Node.Calls

/-!
# The catalog of a source

The messages of the message calls of a source, inserted in the order of the visits.
`Catalog.ofSource` is the catalog, `Catalog.traceSource` the same together with
everything worth noting on the way: it hands the catalog from node to node and takes
every message in where its call stands.
-/

namespace StringHarvest.Catalog

/-- The messages of the message calls of a tree, in the order of the visits. -/
def messagesOf (names : List String) (lines : List String) (node : Node) : List Message :=
  (node.messageCalls names).filterMap fun call => (call.message? lines).value

/-- Inserts the messages of a tree. -/
def insertNode (names : List String) (lines : List String) (catalog : Catalog) (node : Node) :
    Catalog :=
  catalog.insertAll (messagesOf names lines node)

/-- The catalog of a source. -/
def ofSource (names : List String) (source : Source) : Catalog :=
  empty.insertNode names source.lines source.program

/-- Takes the message of a call into a catalog, noting what is worth it. -/
def takeCall (lines : List String) (catalog : Catalog) (call : Call) : Traced Catalog := do
  match ← call.message? lines with
  | none => return catalog
  | some m => ⟨catalog.insert m, catalog.insertEvents m⟩

/-- Notes the visit of a node of the given kind before what follows. -/
def visiting {α : Type} (kind : String) (below : Traced α) : Traced α := do
  Traced.noting (.visiting kind) ()
  below

mutual

/-- Walks through a tree and takes the messages of its calls into a catalog,
noting what is worth it. -/
def scan (names lines : List String) (catalog : Catalog) : Node → Traced Catalog
  | .array elements => visiting "ArrayExpression" (scanAll names lines catalog elements)
  | .assignment _ right => visiting "AssignmentExpression" (scan names lines catalog right)
  | .binary _ left right =>
    visiting "BinaryExpression" do scan names lines (← scan names lines catalog left) right
  | .call callee arguments location =>
    visiting "CallExpression" do
      let name ← callee.dottedName
      if isMessageFunction names name then takeCall lines catalog ⟨arguments, location⟩
      else scanAll names lines (← scan names lines catalog callee) arguments
  | .conditional _ consequent alternate =>
    visiting "ConditionalExpression" do
      scan names lines (← scan names lines catalog alternate) consequent
  | .expressionStatement expression =>
    visiting "ExpressionStatement" (scan names lines catalog expression)
  | .identifier _ => visiting "Identifier" (pure catalog)
  | .ifStatement _ consequent alternate =>
    visiting "IfStatement" do scan? names lines (← scan names lines catalog consequent) alternate
  | .literal _ => visiting "Literal" (pure catalog)
  | .logical _ left right =>
    visiting "LogicalExpression" do scan names lines (← scan names lines catalog left) right
  | .member owner part _ =>
    visiting "MemberExpression" do scan names lines (← scan names lines catalog owner) part
  | .new _ arguments => visiting "NewExpression" (scanAll names lines catalog arguments)
  | .object properties => visiting "ObjectExpression" (scanAll names lines catalog properties)
  | .property _ value => visiting "Property" (scan names lines catalog value)
  | .sequence expressions => visiting "SequenceExpression" (scanAll names lines catalog expressions)
  | .switch _ cases => visiting "SwitchStatement" (scanAll names lines catalog cases)
  | .switchCase test consequent =>
    visiting "SwitchCase" do scanAll names lines (← scan? names lines catalog test) consequent
  | .tryStatement block handler finalizer =>
    visiting "TryStatement" do
      let catalog ← scan names lines catalog block
      scan? names lines (← scan? names lines catalog handler) finalizer
  | .variableDeclaration declarations =>
    visiting "VariableDeclaration" (scanAll names lines catalog declarations)
  | .variableDeclarator init => visiting "VariableDeclarator" (scan? names lines catalog init)
  | .other kind argument body =>
    visiting kind do scanBody names lines (← scan? names lines catalog argument) body

/-- `scan` over a list of nodes. -/
def scanAll (names lines : List String) (catalog : Catalog) : List Node → Traced Catalog
  | [] => pure catalog
  | node :: rest => do scanAll names lines (← scan names lines catalog node) rest

/-- `scan` over a node that may be absent. -/
def scan? (names lines : List String) (catalog : Catalog) : Option Node → Traced Catalog
  | none => pure catalog
  | some node => scan names lines catalog node

/-- `scan` over a body. -/
def scanBody (names lines : List String) (catalog : Catalog) : NodeBody → Traced Catalog
  | .absent => pure catalog
  | .single node => scan names lines catalog node
  | .sequence nodes => scanAll names lines catalog nodes

end

/-- The catalog of a source with everything worth noting. -/
def traceSource (names : List String) (source : Source) : Traced Catalog :=
  empty.scan names source.lines source.program

end StringHarvest.Catalog
