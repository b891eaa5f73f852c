import Mathlib.Logic.Basic
import StringHarvest.Catalog.OfSource
import StringHarvest.Node.OfProgram

/-!
# Wrappers

Parentheses and type notes stand around an expression without changing it, and the optional form of
a member access or of a call differs from the plain one only if there is no owner. A script without
all of these is `unwrapped`: at every depth wrappers are taken off and optional forms are made
plain. Calls keep their offsets.

`expressions_unwrapped` says exactly what is lost: the expressions of the unwrapped script are those
of the script that are no wrappers, in their order, each of them unwrapped.

**Main theorem** (`Node.unwrapped_transparent`): the tree of nodes is the same with and without the
wrappers, and so is the catalog.
-/

namespace StringHarvest

namespace Script

/-- Whether an expression only stands around another one. -/
def Expr.isWrapper : Expr → Bool
  | .paren _ | .typed _ _ => true
  | _ => false

/-- Whether an expression is a member access or a call in its optional form. -/
def Expr.isOptional : Expr → Bool
  | .member _ _ optional | .call _ _ _ optional => optional
  | _ => false

/-- The offset that an expression remembers, which only a call does. -/
def Expr.start? : Expr → Option Nat
  | .call start _ _ _ | .superCall start _ | .importCall start _ => some start
  | _ => none

/-! ### Scripts without wrappers -/

mutual

/-- An expression without wrappers. -/
def unwrapExpr : Expr → Expr
  | .paren inner | .typed _ inner => unwrapExpr inner
  | .member owner access _ => .member (unwrapExpr owner) (unwrapAccess access) false
  | .call start callee arguments _ =>
    .call start (unwrapExpr callee) (unwrapElements arguments) false
  | .name id => .name id
  | .literal value => .literal value
  | .this => .this
  | .array items => .array (unwrapElements items)
  | .object members => .object (unwrapMembers members)
  | .template holes => .template (unwrapExprs holes)
  | .tagged tag holes => .tagged (unwrapExpr tag) (unwrapExprs holes)
  | .superMember access => .superMember (unwrapAccess access)
  | .superCall start arguments => .superCall start (unwrapElements arguments)
  | .importCall start arguments => .importCall start (unwrapElements arguments)
  | .new callee arguments => .new (unwrapExpr callee) (unwrapElements arguments)
  | .unary operator operand => .unary operator (unwrapExpr operand)
  | .update operand => .update (unwrapExpr operand)
  | .await operand => .await (unwrapExpr operand)
  | .yield operand => .yield (unwrapExpr? operand)
  | .binary operator left right => .binary operator (unwrapExpr left) (unwrapExpr right)
  | .assign operator value => .assign operator (unwrapExpr value)
  | .conditional test consequent alternate =>
    .conditional (unwrapExpr test) (unwrapExpr consequent) (unwrapExpr alternate)
  | .sequence parts => .sequence (unwrapExprs parts)
  | .function body => .function (unwrapBody body)
  | .arrow body => .arrow (unwrapBody body)
  | .classValue body => .classValue (unwrapClass body)
  | .jsxElement attributes children => .jsxElement (unwrapParts attributes) (unwrapParts children)
  | .jsxFragment children => .jsxFragment (unwrapParts children)
  | .metaProperty name => .metaProperty name
  | .privateName id => .privateName id
  | .missing => .missing

/-- `unwrapExpr` on an expression that may be absent. -/
def unwrapExpr? : Option Expr → Option Expr
  | none => none
  | some e => some (unwrapExpr e)

/-- `unwrapExpr` on expressions. -/
def unwrapExprs : List Expr → List Expr
  | [] => []
  | e :: rest => unwrapExpr e :: unwrapExprs rest

/-- What follows the owner in a member access, without wrappers. -/
def unwrapAccess : Access → Access
  | .name id => .name id
  | .privateName id => .privateName id
  | .computed value => .computed (unwrapExpr value)

/-- Items without wrappers. -/
def unwrapElements : List Element → List Element
  | [] => []
  | .hole :: rest => .hole :: unwrapElements rest
  | .item value :: rest => .item (unwrapExpr value) :: unwrapElements rest
  | .spread value :: rest => .spread (unwrapExpr value) :: unwrapElements rest

/-- The members of an object without wrappers. -/
def unwrapMembers : List Member → List Member
  | [] => []
  | .keyed key value :: rest => .keyed (unwrapKey key) (unwrapExpr value) :: unwrapMembers rest
  | .shorthand id :: rest => .shorthand id :: unwrapMembers rest
  | .initialised id value :: rest => .initialised id (unwrapExpr value) :: unwrapMembers rest
  | .method start key body :: rest =>
    .method start (unwrapKey key) (unwrapBody body) :: unwrapMembers rest
  | .accessor start key body :: rest =>
    .accessor start (unwrapKey key) (unwrapBody body) :: unwrapMembers rest
  | .spread value :: rest => .spread (unwrapExpr value) :: unwrapMembers rest

/-- The name of a member without wrappers. -/
def unwrapKey : Key → Key
  | .computed value => .computed (unwrapExpr value)
  | .name id => .name id
  | .string value => .string value
  | .number value => .number value
  | .bigint value => .bigint value
  | .privateName id => .privateName id

/-- The body of a function without wrappers. -/
def unwrapBody : Body → Body
  | .absent => .absent
  | .block statements => .block (unwrapStmts statements)
  | .value result => .value (unwrapExpr result)

/-- A class without wrappers. -/
def unwrapClass : Class → Class
  | .mk parent members => .mk (unwrapExpr? parent) (unwrapClassMembers members)

/-- The members of a class without wrappers. -/
def unwrapClassMembers : List ClassMember → List ClassMember
  | [] => []
  | .initialiser body :: rest => .initialiser (unwrapBody body) :: unwrapClassMembers rest
  | .method key body :: rest => .method (unwrapKey key) (unwrapBody body) :: unwrapClassMembers rest
  | .field key value :: rest =>
    .field (unwrapKey key) (unwrapExpr? value) :: unwrapClassMembers rest
  | .accessor key value :: rest =>
    .accessor (unwrapKey key) (unwrapExpr? value) :: unwrapClassMembers rest
  | .staticBlock statements :: rest =>
    .staticBlock (unwrapStmts statements) :: unwrapClassMembers rest
  | .other :: rest => .other :: unwrapClassMembers rest

/-- Attributes and children of markup without wrappers. -/
def unwrapParts : List JsxPart → List JsxPart
  | [] => []
  | .text :: rest => .text :: unwrapParts rest
  | .value value :: rest => .value (unwrapExpr value) :: unwrapParts rest
  | .spreadAttribute value :: rest => .spreadAttribute (unwrapExpr value) :: unwrapParts rest
  | .spreadChild value :: rest => .spreadChild (unwrapExpr value) :: unwrapParts rest

/-- A statement without wrappers. -/
def unwrapStmt : Stmt → Stmt
  | .block statements => .block (unwrapStmts statements)
  | .expression value => .expression (unwrapExpr value)
  | .ifElse test consequent alternate =>
    .ifElse (unwrapExpr test) (unwrapStmt consequent) (unwrapStmt? alternate)
  | .switch subject cases => .switch (unwrapExpr subject) (unwrapCases cases)
  | .tryCatch block handler finalizer =>
    .tryCatch (unwrapStmts block) (unwrapClause handler) (unwrapClause finalizer)
  | .returns value => .returns (unwrapExpr? value)
  | .throws value => .throws (unwrapExpr value)
  | .labeled label body => .labeled label (unwrapStmt body)
  | .loop kind body => .loop kind (unwrapStmt body)
  | .declaration declaration => .declaration (unwrapDecl declaration)
  | .empty => .empty
  | .debugger => .debugger
  | .breaks => .breaks
  | .continues => .continues

/-- `unwrapStmt` on a statement that may be absent. -/
def unwrapStmt? : Option Stmt → Option Stmt
  | none => none
  | some s => some (unwrapStmt s)

/-- `unwrapStmt` on statements. -/
def unwrapStmts : List Stmt → List Stmt
  | [] => []
  | s :: rest => unwrapStmt s :: unwrapStmts rest

/-- `unwrapStmts` on a clause that may be absent. -/
def unwrapClause : Option (List Stmt) → Option (List Stmt)
  | none => none
  | some statements => some (unwrapStmts statements)

/-- The cases of a `switch` without wrappers. -/
def unwrapCases : List Case → List Case
  | [] => []
  | .mk test consequent :: rest =>
    .mk (unwrapExpr? test) (unwrapStmts consequent) :: unwrapCases rest

/-- A declaration without wrappers. -/
def unwrapDecl : Decl → Decl
  | .variables initials => .variables (unwrapInitials initials)
  | .functionDecl body => .functionDecl (unwrapBody body)
  | .classDecl body => .classDecl (unwrapClass body)
  | .namespaceDecl body => .namespaceDecl (unwrapNamespace body)
  | .typeOnly => .typeOnly

/-- `unwrapExpr?` on initial values. -/
def unwrapInitials : List (Option Expr) → List (Option Expr)
  | [] => []
  | initial :: rest => unwrapExpr? initial :: unwrapInitials rest

/-- The body of a namespace without wrappers. -/
def unwrapNamespace : NamespaceBody → NamespaceBody
  | .absent => .absent
  | .items items => .items (unwrapItems items)
  | .nested inner => .nested (unwrapNamespace inner)

/-- The items of a module without wrappers. -/
def unwrapItems : List Item → List Item
  | [] => []
  | .statement s :: rest => .statement (unwrapStmt s) :: unwrapItems rest
  | .exportDecl d :: rest => .exportDecl (unwrapDecl d) :: unwrapItems rest
  | .exportDefaultFunction body :: rest =>
    .exportDefaultFunction (unwrapBody body) :: unwrapItems rest
  | .exportDefaultClass body :: rest => .exportDefaultClass (unwrapClass body) :: unwrapItems rest
  | .exportDefaultInterface :: rest => .exportDefaultInterface :: unwrapItems rest
  | .exportDefaultValue value :: rest => .exportDefaultValue (unwrapExpr value) :: unwrapItems rest
  | .exportAssign value :: rest => .exportAssign (unwrapExpr value) :: unwrapItems rest
  | .imports :: rest => .imports :: unwrapItems rest
  | .link :: rest => .link :: unwrapItems rest

end

/-- A script without wrappers. -/
def Program.unwrapped (program : Program) : Program := ⟨unwrapItems program.items⟩

/-! ### The expressions of a script -/

mutual

/-- The expressions in an expression from the inside out, itself the last one. -/
def inExpr : Expr → List Expr
  | e@(.paren inner) | e@(.typed _ inner) => inExpr inner ++ [e]
  | e@(.member owner access _) => inExpr owner ++ inAccess access ++ [e]
  | e@(.call _ callee arguments _) | e@(.new callee arguments) =>
    inExpr callee ++ inElements arguments ++ [e]
  | e@(.array items) | e@(.superCall _ items) | e@(.importCall _ items) => inElements items ++ [e]
  | e@(.object members) => inMembers members ++ [e]
  | e@(.template parts) | e@(.sequence parts) => inExprs parts ++ [e]
  | e@(.tagged tag holes) => inExpr tag ++ inExprs holes ++ [e]
  | e@(.superMember access) => inAccess access ++ [e]
  | e@(.unary _ operand) | e@(.update operand) | e@(.await operand) | e@(.assign _ operand) =>
    inExpr operand ++ [e]
  | e@(.yield operand) => inExpr? operand ++ [e]
  | e@(.binary _ left right) => inExpr left ++ inExpr right ++ [e]
  | e@(.conditional test consequent alternate) =>
    inExpr test ++ inExpr consequent ++ inExpr alternate ++ [e]
  | e@(.function body) | e@(.arrow body) => inBody body ++ [e]
  | e@(.classValue body) => inClass body ++ [e]
  | e@(.jsxElement attributes children) => inParts attributes ++ inParts children ++ [e]
  | e@(.jsxFragment children) => inParts children ++ [e]
  | e => [e]

/-- The expressions in an expression that may be absent. -/
def inExpr? : Option Expr → List Expr
  | none => []
  | some e => inExpr e

/-- The expressions in expressions. -/
def inExprs : List Expr → List Expr
  | [] => []
  | e :: rest => inExpr e ++ inExprs rest

/-- The expressions in what follows the owner in a member access. -/
def inAccess : Access → List Expr
  | .computed value => inExpr value
  | .name _ | .privateName _ => []

/-- The expressions in items. -/
def inElements : List Element → List Expr
  | [] => []
  | .hole :: rest => inElements rest
  | .item value :: rest | .spread value :: rest => inExpr value ++ inElements rest

/-- The expressions in the members of an object. -/
def inMembers : List Member → List Expr
  | [] => []
  | .keyed key value :: rest => inKey key ++ inExpr value ++ inMembers rest
  | .shorthand _ :: rest => inMembers rest
  | .initialised _ value :: rest | .spread value :: rest => inExpr value ++ inMembers rest
  | .method _ key body :: rest | .accessor _ key body :: rest =>
    inKey key ++ inBody body ++ inMembers rest

/-- The expressions in the name of a member. -/
def inKey : Key → List Expr
  | .computed value => inExpr value
  | .name _ | .string _ | .number _ | .bigint _ | .privateName _ => []

/-- The expressions in the body of a function. -/
def inBody : Body → List Expr
  | .absent => []
  | .block statements => inStmts statements
  | .value result => inExpr result

/-- The expressions in a class. -/
def inClass : Class → List Expr
  | .mk parent members => inExpr? parent ++ inClassMembers members

/-- The expressions in the members of a class. -/
def inClassMembers : List ClassMember → List Expr
  | [] => []
  | .initialiser body :: rest => inBody body ++ inClassMembers rest
  | .method key body :: rest => inKey key ++ inBody body ++ inClassMembers rest
  | .field key value :: rest | .accessor key value :: rest =>
    inKey key ++ inExpr? value ++ inClassMembers rest
  | .staticBlock statements :: rest => inStmts statements ++ inClassMembers rest
  | .other :: rest => inClassMembers rest

/-- The expressions in attributes and children of markup. -/
def inParts : List JsxPart → List Expr
  | [] => []
  | .text :: rest => inParts rest
  | .value value :: rest | .spreadAttribute value :: rest | .spreadChild value :: rest =>
    inExpr value ++ inParts rest

/-- The expressions in a statement. -/
def inStmt : Stmt → List Expr
  | .block statements => inStmts statements
  | .expression value | .throws value => inExpr value
  | .ifElse test consequent alternate => inExpr test ++ inStmt consequent ++ inStmt? alternate
  | .switch subject cases => inExpr subject ++ inCases cases
  | .tryCatch block handler finalizer => inStmts block ++ inClause handler ++ inClause finalizer
  | .returns value => inExpr? value
  | .labeled _ body | .loop _ body => inStmt body
  | .declaration declaration => inDecl declaration
  | .empty | .debugger | .breaks | .continues => []

/-- The expressions in a statement that may be absent. -/
def inStmt? : Option Stmt → List Expr
  | none => []
  | some s => inStmt s

/-- The expressions in statements. -/
def inStmts : List Stmt → List Expr
  | [] => []
  | s :: rest => inStmt s ++ inStmts rest

/-- The expressions in a clause that may be absent. -/
def inClause : Option (List Stmt) → List Expr
  | none => []
  | some statements => inStmts statements

/-- The expressions in the cases of a `switch`. -/
def inCases : List Case → List Expr
  | [] => []
  | .mk test consequent :: rest => inExpr? test ++ inStmts consequent ++ inCases rest

/-- The expressions in a declaration. -/
def inDecl : Decl → List Expr
  | .variables initials => inInitials initials
  | .functionDecl body => inBody body
  | .classDecl body => inClass body
  | .namespaceDecl body => inNamespace body
  | .typeOnly => []

/-- The expressions in initial values. -/
def inInitials : List (Option Expr) → List Expr
  | [] => []
  | initial :: rest => inExpr? initial ++ inInitials rest

/-- The expressions in the body of a namespace. -/
def inNamespace : NamespaceBody → List Expr
  | .absent => []
  | .items items => inItems items
  | .nested inner => inNamespace inner

/-- The expressions in the items of a module. -/
def inItems : List Item → List Expr
  | [] => []
  | .statement s :: rest => inStmt s ++ inItems rest
  | .exportDecl d :: rest => inDecl d ++ inItems rest
  | .exportDefaultFunction body :: rest => inBody body ++ inItems rest
  | .exportDefaultClass body :: rest => inClass body ++ inItems rest
  | .exportDefaultValue value :: rest | .exportAssign value :: rest => inExpr value ++ inItems rest
  | .exportDefaultInterface :: rest | .imports :: rest | .link :: rest => inItems rest

end

/-- The expressions of a script at every depth. -/
def Program.expressions (program : Program) : List Expr := inItems program.items

/-! ### What is lost -/

/-- What is unwrapped is no wrapper. -/
theorem isWrapper_unwrapExpr : (e : Expr) → (unwrapExpr e).isWrapper = false
  | .paren inner | .typed _ inner => isWrapper_unwrapExpr inner
  | .name _ | .literal _ | .this | .array _ | .object _ | .template _ | .tagged .. | .member ..
  | .superMember _ | .call .. | .superCall .. | .importCall .. | .new .. | .unary .. | .update _
  | .await _ | .yield _ | .binary .. | .assign .. | .conditional .. | .sequence _ | .function _
  | .arrow _ | .classValue _ | .jsxElement .. | .jsxFragment _ | .metaProperty _ | .privateName _
  | .missing => rfl

/-- What is unwrapped is no optional form. -/
theorem isOptional_unwrapExpr : (e : Expr) → (unwrapExpr e).isOptional = false
  | .paren inner | .typed _ inner => isOptional_unwrapExpr inner
  | .name _ | .literal _ | .this | .array _ | .object _ | .template _ | .tagged .. | .member ..
  | .superMember _ | .call .. | .superCall .. | .importCall .. | .new .. | .unary .. | .update _
  | .await _ | .yield _ | .binary .. | .assign .. | .conditional .. | .sequence _ | .function _
  | .arrow _ | .classValue _ | .jsxElement .. | .jsxFragment _ | .metaProperty _ | .privateName _
  | .missing => rfl

/-- What is left of an expression: nothing of a wrapper. -/
def kept? (e : Expr) : Option Expr := if e.isWrapper then none else some (unwrapExpr e)

/-- The expressions `left` are what is left of the expressions `all`. -/
def Leaves (all left : List Expr) : Prop := left = all.filterMap kept?

section leaves

variable {all more left left' : List Expr} {e : Expr}

/-- Of nothing, nothing is left. -/
theorem leaves_nil : Leaves [] [] := rfl

/-- What is left of two parts is left of the whole. -/
theorem Leaves.append (h : Leaves all left) (h' : Leaves more left') :
    Leaves (all ++ more) (left ++ left') := by
  unfold Leaves
  rw [List.filterMap_append, h, h']

/-- A wrapper leaves what it stands around. -/
theorem Leaves.wrapper (h : Leaves all left) (hwrapper : e.isWrapper = true) :
    Leaves (all ++ [e]) left := by
  have hnone : [e].filterMap kept? = [] := by simp [kept?, hwrapper]
  unfold Leaves
  rw [List.filterMap_append, hnone, List.append_nil, h]

/-- An expression that is no wrapper leaves itself. -/
theorem Leaves.concat (h : Leaves all left) (hwrapper : e.isWrapper = false) :
    Leaves (all ++ [e]) (left ++ [unwrapExpr e]) :=
  h.append (by simp [Leaves, kept?, hwrapper])

end leaves

mutual

/-- Unwrapping leaves an expression all its parts but the wrappers. -/
theorem leaves_expr : (e : Expr) → Leaves (inExpr e) (inExpr (unwrapExpr e))
  | .paren inner | .typed _ inner => (leaves_expr inner).wrapper rfl
  | .member owner access _ => ((leaves_expr owner).append (leaves_access access)).concat rfl
  | .call _ callee arguments _ | .new callee arguments =>
    ((leaves_expr callee).append (leaves_elements arguments)).concat rfl
  | .array items | .superCall _ items | .importCall _ items => (leaves_elements items).concat rfl
  | .object members => (leaves_members members).concat rfl
  | .template parts | .sequence parts => (leaves_exprs parts).concat rfl
  | .tagged tag holes => ((leaves_expr tag).append (leaves_exprs holes)).concat rfl
  | .superMember access => (leaves_access access).concat rfl
  | .unary _ operand | .update operand | .await operand | .assign _ operand =>
    (leaves_expr operand).concat rfl
  | .yield operand => (leaves_expr? operand).concat rfl
  | .binary _ left right => ((leaves_expr left).append (leaves_expr right)).concat rfl
  | .conditional test consequent alternate =>
    (((leaves_expr test).append (leaves_expr consequent)).append (leaves_expr alternate)).concat rfl
  | .function body | .arrow body => (leaves_body body).concat rfl
  | .classValue body => (leaves_class body).concat rfl
  | .jsxElement attributes children =>
    ((leaves_parts attributes).append (leaves_parts children)).concat rfl
  | .jsxFragment children => (leaves_parts children).concat rfl
  | .name _ | .literal _ | .this | .metaProperty _ | .privateName _ | .missing =>
    leaves_nil.concat rfl

/-- So it does with an expression that may be missing. -/
theorem leaves_expr? : (e : Option Expr) → Leaves (inExpr? e) (inExpr? (unwrapExpr? e))
  | none => leaves_nil
  | some e => leaves_expr e

/-- So it does with expressions in a row. -/
theorem leaves_exprs : (es : List Expr) → Leaves (inExprs es) (inExprs (unwrapExprs es))
  | [] => leaves_nil
  | e :: rest => (leaves_expr e).append (leaves_exprs rest)

/-- So it does with an access to a member. -/
theorem leaves_access :
    (access : Access) → Leaves (inAccess access) (inAccess (unwrapAccess access))
  | .computed value => leaves_expr value
  | .name _ | .privateName _ => leaves_nil

/-- So it does with elements. -/
theorem leaves_elements :
    (es : List Element) → Leaves (inElements es) (inElements (unwrapElements es))
  | [] => leaves_nil
  | .hole :: rest => leaves_elements rest
  | .item value :: rest | .spread value :: rest => (leaves_expr value).append (leaves_elements rest)

/-- So it does with the members of an object. -/
theorem leaves_members : (ms : List Member) → Leaves (inMembers ms) (inMembers (unwrapMembers ms))
  | [] => leaves_nil
  | .keyed key value :: rest =>
    ((leaves_key key).append (leaves_expr value)).append (leaves_members rest)
  | .shorthand _ :: rest => leaves_members rest
  | .initialised _ value :: rest | .spread value :: rest =>
    (leaves_expr value).append (leaves_members rest)
  | .method _ key body :: rest | .accessor _ key body :: rest =>
    ((leaves_key key).append (leaves_body body)).append (leaves_members rest)

/-- So it does with a key. -/
theorem leaves_key : (key : Key) → Leaves (inKey key) (inKey (unwrapKey key))
  | .computed value => leaves_expr value
  | .name _ | .string _ | .number _ | .bigint _ | .privateName _ => leaves_nil

/-- So it does with the body of a function. -/
theorem leaves_body : (body : Body) → Leaves (inBody body) (inBody (unwrapBody body))
  | .absent => leaves_nil
  | .block statements => leaves_stmts statements
  | .value result => leaves_expr result

/-- So it does with a class. -/
theorem leaves_class : (c : Class) → Leaves (inClass c) (inClass (unwrapClass c))
  | .mk parent members => (leaves_expr? parent).append (leaves_classMembers members)

/-- So it does with the members of a class. -/
theorem leaves_classMembers :
    (ms : List ClassMember) → Leaves (inClassMembers ms) (inClassMembers (unwrapClassMembers ms))
  | [] => leaves_nil
  | .initialiser body :: rest => (leaves_body body).append (leaves_classMembers rest)
  | .method key body :: rest =>
    ((leaves_key key).append (leaves_body body)).append (leaves_classMembers rest)
  | .field key value :: rest | .accessor key value :: rest =>
    ((leaves_key key).append (leaves_expr? value)).append (leaves_classMembers rest)
  | .staticBlock statements :: rest => (leaves_stmts statements).append (leaves_classMembers rest)
  | .other :: rest => leaves_classMembers rest

/-- So it does with the parts of an element. -/
theorem leaves_parts : (ps : List JsxPart) → Leaves (inParts ps) (inParts (unwrapParts ps))
  | [] => leaves_nil
  | .text :: rest => leaves_parts rest
  | .value value :: rest | .spreadAttribute value :: rest | .spreadChild value :: rest =>
    (leaves_expr value).append (leaves_parts rest)

/-- So it does with a statement. -/
theorem leaves_stmt : (s : Stmt) → Leaves (inStmt s) (inStmt (unwrapStmt s))
  | .block statements => leaves_stmts statements
  | .expression value | .throws value => leaves_expr value
  | .ifElse test consequent alternate =>
    ((leaves_expr test).append (leaves_stmt consequent)).append (leaves_stmt? alternate)
  | .switch subject cases => (leaves_expr subject).append (leaves_cases cases)
  | .tryCatch block handler finalizer =>
    ((leaves_stmts block).append (leaves_clause handler)).append (leaves_clause finalizer)
  | .returns value => leaves_expr? value
  | .labeled _ body | .loop _ body => leaves_stmt body
  | .declaration declaration => leaves_decl declaration
  | .empty | .debugger | .breaks | .continues => leaves_nil

/-- So it does with a statement that may be missing. -/
theorem leaves_stmt? : (s : Option Stmt) → Leaves (inStmt? s) (inStmt? (unwrapStmt? s))
  | none => leaves_nil
  | some s => leaves_stmt s

/-- So it does with statements in a row. -/
theorem leaves_stmts : (ss : List Stmt) → Leaves (inStmts ss) (inStmts (unwrapStmts ss))
  | [] => leaves_nil
  | s :: rest => (leaves_stmt s).append (leaves_stmts rest)

/-- So it does with a clause. -/
theorem leaves_clause :
    (clause : Option (List Stmt)) → Leaves (inClause clause) (inClause (unwrapClause clause))
  | none => leaves_nil
  | some statements => leaves_stmts statements

/-- So it does with cases. -/
theorem leaves_cases : (cs : List Case) → Leaves (inCases cs) (inCases (unwrapCases cs))
  | [] => leaves_nil
  | .mk test consequent :: rest =>
    ((leaves_expr? test).append (leaves_stmts consequent)).append (leaves_cases rest)

/-- So it does with a declaration. -/
theorem leaves_decl : (d : Decl) → Leaves (inDecl d) (inDecl (unwrapDecl d))
  | .variables initials => leaves_initials initials
  | .functionDecl body => leaves_body body
  | .classDecl body => leaves_class body
  | .namespaceDecl body => leaves_namespace body
  | .typeOnly => leaves_nil

/-- So it does with initial values. -/
theorem leaves_initials :
    (es : List (Option Expr)) → Leaves (inInitials es) (inInitials (unwrapInitials es))
  | [] => leaves_nil
  | initial :: rest => (leaves_expr? initial).append (leaves_initials rest)

/-- So it does with the body of a namespace. -/
theorem leaves_namespace :
    (body : NamespaceBody) → Leaves (inNamespace body) (inNamespace (unwrapNamespace body))
  | .absent => leaves_nil
  | .items items => leaves_items items
  | .nested inner => leaves_namespace inner

/-- So it does with the items of a module. -/
theorem leaves_items : (is : List Item) → Leaves (inItems is) (inItems (unwrapItems is))
  | [] => leaves_nil
  | .statement s :: rest => (leaves_stmt s).append (leaves_items rest)
  | .exportDecl d :: rest => (leaves_decl d).append (leaves_items rest)
  | .exportDefaultFunction body :: rest => (leaves_body body).append (leaves_items rest)
  | .exportDefaultClass body :: rest => (leaves_class body).append (leaves_items rest)
  | .exportDefaultValue value :: rest | .exportAssign value :: rest =>
    (leaves_expr value).append (leaves_items rest)
  | .exportDefaultInterface :: rest | .imports :: rest | .link :: rest => leaves_items rest

end

/-- **What is lost with the wrappers**: the wrappers. All other expressions are left in their order,
themselves unwrapped. -/
theorem expressions_unwrapped (program : Program) :
    program.unwrapped.expressions = program.expressions.filterMap kept? :=
  leaves_items program.items

/-- No wrapper and no optional form is left at any depth. -/
theorem plain_of_mem_unwrapped {program : Program} {e : Expr}
    (h : e ∈ program.unwrapped.expressions) : e.isWrapper = false ∧ e.isOptional = false := by
  rw [expressions_unwrapped] at h
  obtain ⟨old, -, hkept⟩ := List.mem_filterMap.mp h
  unfold kept? at hkept
  split at hkept
  · cases hkept
  · obtain rfl := Option.some.inj hkept
    exact ⟨isWrapper_unwrapExpr old, isOptional_unwrapExpr old⟩

/-- A part that is kept starts a call where it did. -/
theorem start?_kept (e : Expr) : (kept? e).bind Expr.start? = e.start? := by
  cases e <;> rfl

/-- The calls keep their offsets and their order. -/
theorem starts_unwrapped (program : Program) :
    program.unwrapped.expressions.filterMap Expr.start? =
      program.expressions.filterMap Expr.start? := by
  rw [expressions_unwrapped, List.filterMap_filterMap]
  exact congrArg (List.filterMap · _) (funext start?_kept)

end Script

namespace Node

open Script

/-! ### The tree of nodes -/

section nodes

variable (locate : Nat → Location)

mutual

/-- An unwrapped expression has the same node. -/
theorem ofExpr_unwrap : (e : Expr) → ofExpr locate (unwrapExpr e) = ofExpr locate e
  | .paren inner | .typed _ inner => ofExpr_unwrap inner
  | .member owner (.name id) _ => congrArg (member · (identifier id) false) (ofExpr_unwrap owner)
  | .member owner (.privateName _) _ =>
    congrArg (member · (leaf "PrivateName") false) (ofExpr_unwrap owner)
  | .member owner (.computed value) _ =>
    congrArg₂ (member · · true) (ofExpr_unwrap owner) (ofExpr_unwrap value)
  | .call start callee arguments _ =>
    congrArg₂ (call · · (some (locate start))) (ofExpr_unwrap callee) (ofElements_unwrap arguments)
  | .superCall start arguments =>
    congrArg (call (leaf "Super") · (some (locate start))) (ofElements_unwrap arguments)
  | .importCall start arguments =>
    congrArg (call (leaf "Import") · (some (locate start))) (ofElements_unwrap arguments)
  | .new callee arguments => congrArg₂ new (ofExpr_unwrap callee) (ofElements_unwrap arguments)
  | .array items => congrArg array (ofElements_unwrap items)
  | .object members => congrArg object (ofMembers_unwrap members)
  | .template holes => congrArg (listing "TemplateLiteral") (ofExprs_unwrap holes)
  | .tagged tag holes =>
    congrArg₂ (fun tag holes => other "TaggedTemplateExpression" (some tag)
      (.single (listing "TemplateLiteral" holes))) (ofExpr_unwrap tag) (ofExprs_unwrap holes)
  | .unary _ operand =>
    congrArg (fun node => withArgument "UnaryExpression" (some node)) (ofExpr_unwrap operand)
  | .update operand =>
    congrArg (fun node => withArgument "UpdateExpression" (some node)) (ofExpr_unwrap operand)
  | .await operand =>
    congrArg (fun node => withArgument "AwaitExpression" (some node)) (ofExpr_unwrap operand)
  | .yield operand => congrArg (withArgument "YieldExpression") (ofExpr?_unwrap operand)
  | .binary operator left right =>
    congrArg₂ (ofBinary operator) (ofExpr_unwrap left) (ofExpr_unwrap right)
  | .assign operator value => congrArg (assignment operator) (ofExpr_unwrap value)
  | .conditional test consequent alternate => by
    show conditional _ _ _ = conditional _ _ _
    rw [ofExpr_unwrap test, ofExpr_unwrap consequent, ofExpr_unwrap alternate]
  | .sequence parts => congrArg sequence (ofExprs_unwrap parts)
  | .function body => ofBody_unwrap "FunctionExpression" body
  | .arrow body => ofBody_unwrap "ArrowFunctionExpression" body
  | .classValue body => congrArg (around "ClassExpression") (ofClass_unwrap body)
  | .jsxElement attributes children =>
    congrArg₂ (fun nodes more => listing "JSXElement" (nodes ++ more)) (ofParts_unwrap attributes)
      (ofParts_unwrap children)
  | .jsxFragment children => congrArg (listing "JSXFragment") (ofParts_unwrap children)
  | .name _ | .literal _ | .this | .superMember _ | .metaProperty _ | .privateName _ | .missing =>
    rfl

/-- So has one that may be missing. -/
theorem ofExpr?_unwrap : (e : Option Expr) → ofExpr? locate (unwrapExpr? e) = ofExpr? locate e
  | none => rfl
  | some e => congrArg some (ofExpr_unwrap e)

/-- Unwrapped expressions have the same nodes. -/
theorem ofExprs_unwrap : (es : List Expr) → ofExprs locate (unwrapExprs es) = ofExprs locate es
  | [] => rfl
  | e :: rest => congrArg₂ List.cons (ofExpr_unwrap e) (ofExprs_unwrap rest)

/-- So have elements. -/
theorem ofElements_unwrap :
    (es : List Element) → ofElements locate (unwrapElements es) = ofElements locate es
  | [] => rfl
  | .hole :: rest => ofElements_unwrap rest
  | .item value :: rest => congrArg₂ List.cons (ofExpr_unwrap value) (ofElements_unwrap rest)
  | .spread value :: rest =>
    congrArg₂ (fun node => List.cons (withArgument "SpreadElement" (some node)))
      (ofExpr_unwrap value)
      (ofElements_unwrap rest)

/-- So have the members of an object. -/
theorem ofMembers_unwrap :
    (ms : List Member) → ofMembers locate (unwrapMembers ms) = ofMembers locate ms
  | [] => rfl
  | .keyed key value :: rest =>
    congrArg₂ List.cons (congrArg₂ property (ofKey_unwrap key) (ofExpr_unwrap value))
      (ofMembers_unwrap rest)
  | .shorthand id :: rest =>
    congrArg (List.cons (property (identifier id) (identifier id))) (ofMembers_unwrap rest)
  | .initialised id value :: rest =>
    congrArg₂ List.cons (congrArg (property (identifier id)) (ofExpr_unwrap value))
      (ofMembers_unwrap rest)
  | .method _ key body :: rest | .accessor _ key body :: rest =>
    congrArg₂ List.cons (congrArg₂ property (ofKey_unwrap key) (ofBody_unwrap _ body))
      (ofMembers_unwrap rest)
  | .spread value :: rest =>
    congrArg₂ (fun node => List.cons (withArgument "SpreadElement" (some node)))
      (ofExpr_unwrap value)
      (ofMembers_unwrap rest)

/-- An unwrapped key has the same node. -/
theorem ofKey_unwrap : (key : Key) → ofKey locate (unwrapKey key) = ofKey locate key
  | .computed value => ofExpr_unwrap value
  | .name _ | .string _ | .number _ | .bigint _ | .privateName _ => rfl

/-- So has the body of a function. -/
theorem ofBody_unwrap (kind : String) :
    (body : Body) → ofBody locate kind (unwrapBody body) = ofBody locate kind body
  | .absent => rfl
  | .block statements =>
    congrArg (fun nodes => around kind (listing "BlockStatement" nodes)) (ofStmts_unwrap statements)
  | .value result => congrArg (around kind) (ofExpr_unwrap result)

/-- So has a class. -/
theorem ofClass_unwrap : (c : Script.Class) → ofClass locate (unwrapClass c) = ofClass locate c
  | .mk parent members =>
    congrArg₂ (fun parent members => other "ClassBody" parent (.sequence members))
      (ofExpr?_unwrap parent) (ofClassMembers_unwrap members)

/-- Unwrapped members of a class have the same nodes. -/
theorem ofClassMembers_unwrap :
    (ms : List ClassMember) → ofClassMembers locate (unwrapClassMembers ms) =
      ofClassMembers locate ms
  | [] => rfl
  | .initialiser body :: rest =>
    congrArg₂ List.cons (ofBody_unwrap "MethodDefinition" body) (ofClassMembers_unwrap rest)
  | .method _ body :: rest =>
    congrArg₂ List.cons (congrArg (around "MethodDefinition") (ofBody_unwrap _ body))
      (ofClassMembers_unwrap rest)
  | .field _ value :: rest =>
    congrArg₂ List.cons (congrArg (withArgument "PropertyDefinition") (ofExpr?_unwrap value))
      (ofClassMembers_unwrap rest)
  | .accessor _ value :: rest =>
    congrArg₂ List.cons (congrArg (withArgument "AccessorProperty") (ofExpr?_unwrap value))
      (ofClassMembers_unwrap rest)
  | .staticBlock statements :: rest =>
    congrArg₂ (fun nodes => List.cons (around "StaticBlock" (listing "BlockStatement" nodes)))
      (ofStmts_unwrap statements) (ofClassMembers_unwrap rest)
  | .other :: rest => congrArg (List.cons (leaf "ClassMember")) (ofClassMembers_unwrap rest)

/-- So have the parts of an element. -/
theorem ofParts_unwrap : (ps : List JsxPart) → ofParts locate (unwrapParts ps) = ofParts locate ps
  | [] => rfl
  | .text :: rest => ofParts_unwrap rest
  | .value value :: rest | .spreadChild value :: rest =>
    congrArg₂ List.cons (ofExpr_unwrap value) (ofParts_unwrap rest)
  | .spreadAttribute value :: rest =>
    congrArg₂ (fun node => List.cons (withArgument "JSXSpreadAttribute" (some node)))
      (ofExpr_unwrap value) (ofParts_unwrap rest)

/-- An unwrapped statement has the same node. -/
theorem ofStmt_unwrap : (s : Stmt) → ofStmt locate (unwrapStmt s) = ofStmt locate s
  | .block statements => congrArg (listing "BlockStatement") (ofStmts_unwrap statements)
  | .expression value => congrArg expressionStatement (ofExpr_unwrap value)
  | .ifElse test consequent alternate => by
    show ifStatement _ _ _ = ifStatement _ _ _
    rw [ofExpr_unwrap test, ofStmt_unwrap consequent, ofStmt?_unwrap alternate]
  | .switch subject cases => congrArg₂ switch (ofExpr_unwrap subject) (ofCases_unwrap cases)
  | .tryCatch block handler finalizer => by
    show tryStatement (listing _ _) _ _ = tryStatement (listing _ _) _ _
    rw [ofStmts_unwrap block, ofClause_unwrap _ handler, ofClause_unwrap _ finalizer]
  | .returns value => congrArg (withArgument "ReturnStatement") (ofExpr?_unwrap value)
  | .throws value =>
    congrArg (fun node => withArgument "ThrowStatement" (some node)) (ofExpr_unwrap value)
  | .labeled _ body => congrArg (around "LabeledStatement") (ofStmt_unwrap body)
  | .loop kind body => congrArg (around (loopKind kind)) (ofStmt_unwrap body)
  | .declaration declaration => ofDecl_unwrap declaration
  | .empty | .debugger | .breaks | .continues => rfl

/-- So has one that may be missing. -/
theorem ofStmt?_unwrap : (s : Option Stmt) → ofStmt? locate (unwrapStmt? s) = ofStmt? locate s
  | none => rfl
  | some s => congrArg some (ofStmt_unwrap s)

/-- Unwrapped statements have the same nodes. -/
theorem ofStmts_unwrap : (ss : List Stmt) → ofStmts locate (unwrapStmts ss) = ofStmts locate ss
  | [] => rfl
  | s :: rest => congrArg₂ List.cons (ofStmt_unwrap s) (ofStmts_unwrap rest)

/-- An unwrapped clause has the same node. -/
theorem ofClause_unwrap (wrap : Node → Node) :
    (clause : Option (List Stmt)) →
      ofClause locate wrap (unwrapClause clause) = ofClause locate wrap clause
  | none => rfl
  | some statements =>
    congrArg (fun nodes => some (wrap (listing "BlockStatement" nodes))) (ofStmts_unwrap statements)

/-- Unwrapped cases have the same nodes. -/
theorem ofCases_unwrap : (cs : List Case) → ofCases locate (unwrapCases cs) = ofCases locate cs
  | [] => rfl
  | .mk test consequent :: rest =>
    congrArg₂ List.cons (congrArg₂ switchCase (ofExpr?_unwrap test) (ofStmts_unwrap consequent))
      (ofCases_unwrap rest)

/-- An unwrapped declaration has the same node. -/
theorem ofDecl_unwrap : (d : Decl) → ofDecl locate (unwrapDecl d) = ofDecl locate d
  | .variables initials => congrArg variableDeclaration (ofInitials_unwrap initials)
  | .functionDecl body => congrArg (around "FunctionDeclaration") (ofBody_unwrap _ body)
  | .classDecl body => congrArg (around "ClassDeclaration") (ofClass_unwrap body)
  | .namespaceDecl body => ofNamespace_unwrap body
  | .typeOnly => rfl

/-- Unwrapped initial values have the same nodes. -/
theorem ofInitials_unwrap :
    (es : List (Option Expr)) → ofInitials locate (unwrapInitials es) = ofInitials locate es
  | [] => rfl
  | initial :: rest =>
    congrArg₂ List.cons (congrArg variableDeclarator (ofExpr?_unwrap initial))
      (ofInitials_unwrap rest)

/-- The unwrapped body of a namespace has the same node. -/
theorem ofNamespace_unwrap :
    (body : NamespaceBody) → ofNamespace locate (unwrapNamespace body) = ofNamespace locate body
  | .absent => rfl
  | .items items => congrArg (listing "TSModuleDeclaration") (ofItems_unwrap items)
  | .nested inner => congrArg (around "TSModuleDeclaration") (ofNamespace_unwrap inner)

/-- Unwrapped items have the same nodes. -/
theorem ofItems_unwrap : (is : List Item) → ofItems locate (unwrapItems is) = ofItems locate is
  | [] => rfl
  | .statement s :: rest => congrArg₂ List.cons (ofStmt_unwrap s) (ofItems_unwrap rest)
  | .exportDecl d :: rest =>
    congrArg₂ List.cons (congrArg (around "ExportNamedDeclaration") (ofDecl_unwrap d))
      (ofItems_unwrap rest)
  | .exportDefaultFunction body :: rest =>
    congrArg₂ List.cons (congrArg (around "ExportDefaultDeclaration") (ofBody_unwrap _ body))
      (ofItems_unwrap rest)
  | .exportDefaultClass body :: rest =>
    congrArg₂ List.cons (congrArg (around "ExportDefaultDeclaration") (ofClass_unwrap body))
      (ofItems_unwrap rest)
  | .exportDefaultValue value :: rest =>
    congrArg₂ List.cons (congrArg (around "ExportDefaultDeclaration") (ofExpr_unwrap value))
      (ofItems_unwrap rest)
  | .exportAssign value :: rest =>
    congrArg₂ List.cons (congrArg (around "TSExportAssignment") (ofExpr_unwrap value))
      (ofItems_unwrap rest)
  | .exportDefaultInterface :: rest | .imports :: rest | .link :: rest =>
    congrArg (List.cons _) (ofItems_unwrap rest)

end

/-- The tree of a script without wrappers. -/
theorem ofProgram_unwrapped (program : Program) :
    ofProgram locate program.unwrapped = ofProgram locate program :=
  congrArg (listing "Program") (ofItems_unwrap locate program.items)

/-- **Wrappers leave no trace.** A script without wrappers has none at any depth and keeps the
offsets of its calls; its tree is that of the script, and so is the catalog, whatever the names
of the message functions are. -/
theorem unwrapped_transparent (program : Program) :
    (∀ e ∈ program.unwrapped.expressions, e.isWrapper = false ∧ e.isOptional = false) ∧
    program.unwrapped.expressions.filterMap Expr.start? =
      program.expressions.filterMap Expr.start? ∧
    ofProgram locate program.unwrapped = ofProgram locate program ∧
    ∀ names lines, Catalog.ofSource names ⟨ofProgram locate program.unwrapped, lines⟩ =
      Catalog.ofSource names ⟨ofProgram locate program, lines⟩ := by
  refine ⟨fun e => plain_of_mem_unwrapped, starts_unwrapped program,
    ofProgram_unwrapped locate program,
    fun names lines => ?_⟩
  rw [ofProgram_unwrapped]

end nodes

/-- The call `(tr as T)?.("x"!)` has three wrappers and is optional; without all of this it is
`tr("x")`, and the catalog has its message in both forms. -/
theorem unwrapped_transparent_optionalCall :
    let locate (_ : Nat) : Location := ⟨1, 1⟩
    let text : Expr := .literal (.string (some "x"))
    let program : Program := ⟨[.statement (.expression (.call 0
      (.paren (.typed .ascription (.name "tr"))) [.item (.typed .nonNull text)] true))]⟩
    (program.expressions.filter Expr.isWrapper).length = 3 ∧
    program.unwrapped = ⟨[.statement (.expression (.call 0 (.name "tr") [.item text] false))]⟩ ∧
    (∀ e ∈ program.unwrapped.expressions, e.isWrapper = false ∧ e.isOptional = false) ∧
    (Catalog.ofSource ["tr"] ⟨ofProgram locate program.unwrapped, []⟩).messages.map
      Message.singular =
      ["x"] ∧
    Catalog.ofSource ["tr"] ⟨ofProgram locate program.unwrapped, []⟩ =
      Catalog.ofSource ["tr"] ⟨ofProgram locate program, []⟩ := by
  intro locate text program
  obtain ⟨hplain, -, -, hcatalog⟩ := unwrapped_transparent locate program
  exact ⟨by decide, rfl, hplain, by decide +kernel, hcatalog _ _⟩

end Node

end StringHarvest
