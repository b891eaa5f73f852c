import StringHarvest.Node.Basic
import StringHarvest.Script.Tree

/-!
# From scripts to nodes

Every construct of a script becomes a node. Parentheses, notes on types and the optional forms of
member accesses and calls leave no trace (`Node.ofExpr` looks through them). What has no slots of
its own becomes `Node.other`, with the parts that may hold calls as its argument and its body:
bodies of functions, classes and loops, operands, substitutions of templates, values of markup.
-/

namespace StringHarvest

open Script (Expr Element Member Key Body ClassMember JsxPart Stmt Case Decl NamespaceBody Item
  Program LoopKind)

namespace Node

/-- The operators whose node is a logical one. -/
def logicalOperators : List String := ["&&", "||", "??"]

/-- The node of a binary operation. -/
def ofBinary (operator : String) (left right : Node) : Node :=
  if logicalOperators.contains operator then .logical operator left right
  else .binary operator left right

/-- The literal of a script as one of a node. A string that holds half of a
surrogate pair counts as empty. -/
def literalOf : Script.Literal → Literal
  | .string value => .string (value.getD "")
  | .number value => .number value
  | .boolean value => .boolean value
  | .null => .null
  | .bigint value => .raw (toString value ++ "n")
  | .regex body flags => .raw ("/" ++ body ++ "/" ++ flags)

/-- The kind of a statement that runs a body under a head. -/
def loopKind : LoopKind → String
  | .whileLoop => "WhileStatement"
  | .doWhileLoop => "DoWhileStatement"
  | .forLoop => "ForStatement"
  | .forInLoop => "ForInStatement"
  | .forOfLoop => "ForOfStatement"
  | .withScope => "WithStatement"

mutual

/-- The node of an expression; `locate` gives the place of an offset. -/
def ofExpr (locate : Nat → Location) : Expr → Node
  | .name id => .identifier id
  | .literal value => .literal (literalOf value)
  | .this => leaf "ThisExpression"
  | .array items => .array (ofElements locate items)
  | .object members => .object (ofMembers locate members)
  | .template holes => listing "TemplateLiteral" (ofExprs locate holes)
  | .tagged tag holes =>
    .other "TaggedTemplateExpression" (some (ofExpr locate tag))
      (.single (listing "TemplateLiteral" (ofExprs locate holes)))
  | .member owner access _ =>
    match access with
    | .name id => .member (ofExpr locate owner) (.identifier id) false
    | .privateName _ => .member (ofExpr locate owner) (leaf "PrivateName") false
    | .computed value => .member (ofExpr locate owner) (ofExpr locate value) true
  | .superMember _ => leaf "Expression"
  | .call start callee arguments _ =>
    .call (ofExpr locate callee) (ofElements locate arguments) (some (locate start))
  | .superCall start arguments =>
    .call (leaf "Super") (ofElements locate arguments) (some (locate start))
  | .importCall start arguments =>
    .call (leaf "Import") (ofElements locate arguments) (some (locate start))
  | .new callee arguments => .new (ofExpr locate callee) (ofElements locate arguments)
  | .unary _ operand => withArgument "UnaryExpression" (some (ofExpr locate operand))
  | .update operand => withArgument "UpdateExpression" (some (ofExpr locate operand))
  | .await operand => withArgument "AwaitExpression" (some (ofExpr locate operand))
  | .yield operand => withArgument "YieldExpression" (ofExpr? locate operand)
  | .binary operator left right => ofBinary operator (ofExpr locate left) (ofExpr locate right)
  | .assign operator value => .assignment operator (ofExpr locate value)
  | .conditional test consequent alternate =>
    .conditional (ofExpr locate test) (ofExpr locate consequent) (ofExpr locate alternate)
  | .sequence parts => .sequence (ofExprs locate parts)
  | .function body => ofBody locate "FunctionExpression" body
  | .arrow body => ofBody locate "ArrowFunctionExpression" body
  | .classValue body => around "ClassExpression" (ofClass locate body)
  | .jsxElement settings children =>
    listing "JSXElement" (ofParts locate settings ++ ofParts locate children)
  | .jsxFragment children => listing "JSXFragment" (ofParts locate children)
  | .paren inner => ofExpr locate inner
  | .typed _ inner => ofExpr locate inner
  | .metaProperty _ => leaf "Expression"
  | .privateName _ => leaf "Expression"
  | .missing => leaf "Expression"

/-- The node of an expression that may be absent. -/
def ofExpr? (locate : Nat → Location) : Option Expr → Option Node
  | none => none
  | some value => some (ofExpr locate value)

/-- The nodes of expressions. -/
def ofExprs (locate : Nat → Location) : List Expr → List Node
  | [] => []
  | value :: rest => ofExpr locate value :: ofExprs locate rest

/-- The nodes of items; holes are dropped. -/
def ofElements (locate : Nat → Location) : List Element → List Node
  | [] => []
  | .hole :: rest => ofElements locate rest
  | .item value :: rest => ofExpr locate value :: ofElements locate rest
  | .spread value :: rest =>
    withArgument "SpreadElement" (some (ofExpr locate value)) :: ofElements locate rest

/-- The nodes of the members of an object. -/
def ofMembers (locate : Nat → Location) : List Member → List Node
  | [] => []
  | .keyed key value :: rest =>
    .property (ofKey locate key) (ofExpr locate value) :: ofMembers locate rest
  | .shorthand id :: rest => .property (.identifier id) (.identifier id) :: ofMembers locate rest
  | .initialised id value :: rest =>
    .property (.identifier id) (ofExpr locate value) :: ofMembers locate rest
  | .method _ key body :: rest =>
    .property (ofKey locate key) (ofBody locate "FunctionExpression" body) :: ofMembers locate rest
  | .accessor _ key body :: rest =>
    .property (ofKey locate key) (ofBody locate "FunctionExpression" body) :: ofMembers locate rest
  | .spread value :: rest =>
    withArgument "SpreadElement" (some (ofExpr locate value)) :: ofMembers locate rest

/-- The node of the key of a member. -/
def ofKey (locate : Nat → Location) : Key → Node
  | .name id => .identifier id
  | .string value => string (value.getD "")
  | .number value => .literal (.number value)
  | .bigint value => .literal (.raw (toString value))
  | .computed value => ofExpr locate value
  | .privateName _ => leaf "PrivateName"

/-- The node of a function of the given kind. -/
def ofBody (locate : Nat → Location) (kind : String) : Body → Node
  | .absent => leaf kind
  | .block statements => around kind (listing "BlockStatement" (ofStmts locate statements))
  | .value result => around kind (ofExpr locate result)

/-- The node of a clause of a `try` statement; `wrap` is applied to its block. -/
def ofClause (locate : Nat → Location) (wrap : Node → Node) : Option (List Stmt) → Option Node
  | none => none
  | some statements => some (wrap (listing "BlockStatement" (ofStmts locate statements)))

/-- The node of a class. -/
def ofClass (locate : Nat → Location) : Script.Class → Node
  | .mk parent members =>
    .other "ClassBody" (ofExpr? locate parent) (.sequence (ofClassMembers locate members))

/-- The nodes of the members of a class. -/
def ofClassMembers (locate : Nat → Location) : List ClassMember → List Node
  | [] => []
  | .initialiser body :: rest => ofBody locate "MethodDefinition" body :: ofClassMembers locate rest
  | .method _ body :: rest =>
    around "MethodDefinition" (ofBody locate "FunctionExpression" body) ::
      ofClassMembers locate rest
  | .field _ value :: rest =>
    withArgument "PropertyDefinition" (ofExpr? locate value) :: ofClassMembers locate rest
  | .accessor _ value :: rest =>
    withArgument "AccessorProperty" (ofExpr? locate value) :: ofClassMembers locate rest
  | .staticBlock statements :: rest =>
    around "StaticBlock" (listing "BlockStatement" (ofStmts locate statements)) ::
      ofClassMembers locate rest
  | .other :: rest => leaf "ClassMember" :: ofClassMembers locate rest

/-- The nodes of attributes and children of markup; text is dropped. -/
def ofParts (locate : Nat → Location) : List JsxPart → List Node
  | [] => []
  | .text :: rest => ofParts locate rest
  | .value value :: rest => ofExpr locate value :: ofParts locate rest
  | .spreadAttribute value :: rest =>
    withArgument "JSXSpreadAttribute" (some (ofExpr locate value)) :: ofParts locate rest
  | .spreadChild value :: rest => ofExpr locate value :: ofParts locate rest

/-- The node of a statement. -/
def ofStmt (locate : Nat → Location) : Stmt → Node
  | .block statements => listing "BlockStatement" (ofStmts locate statements)
  | .expression value => .expressionStatement (ofExpr locate value)
  | .ifElse test consequent alternate =>
    .ifStatement (ofExpr locate test) (ofStmt locate consequent) (ofStmt? locate alternate)
  | .switch subject cases => .switch (ofExpr locate subject) (ofCases locate cases)
  | .tryCatch block handler finalizer =>
    .tryStatement (listing "BlockStatement" (ofStmts locate block))
      (ofClause locate (around "CatchClause") handler) (ofClause locate id finalizer)
  | .returns value => withArgument "ReturnStatement" (ofExpr? locate value)
  | .throws value => withArgument "ThrowStatement" (some (ofExpr locate value))
  | .labeled _ body => around "LabeledStatement" (ofStmt locate body)
  | .loop kind body => around (loopKind kind) (ofStmt locate body)
  | .declaration declaration => ofDecl locate declaration
  | .empty => leaf "EmptyStatement"
  | .debugger => leaf "DebuggerStatement"
  | .breaks => leaf "BreakStatement"
  | .continues => leaf "ContinueStatement"

/-- The node of a statement that may be absent. -/
def ofStmt? (locate : Nat → Location) : Option Stmt → Option Node
  | none => none
  | some statement => some (ofStmt locate statement)

/-- The nodes of statements. -/
def ofStmts (locate : Nat → Location) : List Stmt → List Node
  | [] => []
  | statement :: rest => ofStmt locate statement :: ofStmts locate rest

/-- The nodes of the cases of a `switch` statement. -/
def ofCases (locate : Nat → Location) : List Case → List Node
  | [] => []
  | .mk test consequent :: rest =>
    .switchCase (ofExpr? locate test) (ofStmts locate consequent) :: ofCases locate rest

/-- The node of a declaration. -/
def ofDecl (locate : Nat → Location) : Decl → Node
  | .variables initials => .variableDeclaration (ofInitials locate initials)
  | .functionDecl body => around "FunctionDeclaration" (ofBody locate "FunctionExpression" body)
  | .classDecl body => around "ClassDeclaration" (ofClass locate body)
  | .namespaceDecl body => ofNamespace locate body
  | .typeOnly => leaf "TSDeclaration"

/-- The nodes of variables. -/
def ofInitials (locate : Nat → Location) : List (Option Expr) → List Node
  | [] => []
  | initial :: rest => .variableDeclarator (ofExpr? locate initial) :: ofInitials locate rest

/-- The node of the body of a namespace. -/
def ofNamespace (locate : Nat → Location) : NamespaceBody → Node
  | .absent => leaf "TSModuleDeclaration"
  | .items items => listing "TSModuleDeclaration" (ofItems locate items)
  | .nested inner => around "TSModuleDeclaration" (ofNamespace locate inner)

/-- The nodes of the items of a module. -/
def ofItems (locate : Nat → Location) : List Item → List Node
  | [] => []
  | .statement statement :: rest => ofStmt locate statement :: ofItems locate rest
  | .exportDecl declaration :: rest =>
    around "ExportNamedDeclaration" (ofDecl locate declaration) :: ofItems locate rest
  | .exportDefaultFunction body :: rest =>
    around "ExportDefaultDeclaration" (ofBody locate "FunctionExpression" body) ::
      ofItems locate rest
  | .exportDefaultClass body :: rest =>
    around "ExportDefaultDeclaration" (ofClass locate body) :: ofItems locate rest
  | .exportDefaultInterface :: rest =>
    around "ExportDefaultDeclaration" (leaf "TSInterfaceDeclaration") :: ofItems locate rest
  | .exportDefaultValue value :: rest =>
    around "ExportDefaultDeclaration" (ofExpr locate value) :: ofItems locate rest
  | .exportAssign value :: rest =>
    around "TSExportAssignment" (ofExpr locate value) :: ofItems locate rest
  | .imports :: rest => leaf "ImportDeclaration" :: ofItems locate rest
  | .link :: rest => leaf "ModuleDeclaration" :: ofItems locate rest

end

/-- The node of a whole script. -/
def ofProgram (locate : Nat → Location) (program : Program) : Node :=
  listing "Program" (ofItems locate program.items)

end Node

end StringHarvest
