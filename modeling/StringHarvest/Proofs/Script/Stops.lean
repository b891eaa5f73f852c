import StringHarvest.Node.OfProgram
import StringHarvest.Proofs.Node.SourceOrder

/-!
# The stops of a syntax tree

The message calls of a script are those of the node that is made of it. Here they are told for each
piece of a syntax tree from the pieces in it, in the order of the text (`Reading.stops`), so that no
later proof opens a node. What the walk skips is skipped: the test of a conditional, the key of a
member, the callee of `new`.

Besides calls, two other kinds of stops are of use along a text: a place that is remembered, and a
part of the text that has been passed.
-/

namespace StringHarvest.Script

/-- Something on the way through a text. -/
inductive Stop where
  /-- A place to come back to. -/
  | mark (place : Location)
  /-- Some text that is passed. -/
  | gap
  /-- A message call. -/
  | call (found : Call)

/-- A text, and the names of its message functions. -/
structure Reading where
  /-- The text. -/
  text : List Char
  /-- The names. -/
  names : List String

namespace Reading

/-- The place of an offset. -/
def locate (r : Reading) (offset : Nat) : Location := Text.locate r.text offset

/-- The message calls of a node as stops. -/
def nodeStops (r : Reading) (node : Node) : List Stop := (node.sourceCalls r.names).map .call

end Reading

/-- A kind of pieces of syntax trees. -/
class HasStops (α : Type) where
  /-- The message calls in a piece. -/
  stops : Reading → α → List Stop

/-- The message calls in a piece of a syntax tree. -/
def Reading.stops {α : Type} [HasStops α] (r : Reading) (piece : α) : List Stop :=
  HasStops.stops r piece

variable {r : Reading}

/-! ## Nodes -/

section nodes

open Node

/-- A node that is no message call has the calls of its children. -/
theorem nodeStops_of_none {node : Node} (h : node.messageCall? r.names = none) :
    r.nodeStops node = (node.inText.map Prod.snd).flatMap r.nodeStops := by
  unfold Reading.nodeStops
  rw [sourceCalls_of_none h, List.map_flatMap]

/-- A name has no calls. -/
theorem nodeStops_identifier (name : String) : r.nodeStops (.identifier name) = [] :=
  nodeStops_of_none rfl

/-- A literal has no calls. -/
theorem nodeStops_literal (value : StringHarvest.Literal) :
    r.nodeStops (.literal value) = [] :=
  nodeStops_of_none rfl

/-- A node without children has no calls. -/
theorem nodeStops_leaf (kind : String) : r.nodeStops (leaf kind) = [] :=
  nodeStops_of_none rfl

/-- An assignment has the calls of its right side. -/
theorem nodeStops_assignment (operator : String) (right : Node) :
    r.nodeStops (.assignment operator right) = r.nodeStops right := by
  rw [nodeStops_of_none rfl]
  simp [inText, visited, slots]

/-- A statement of an expression has the calls of the expression. -/
theorem nodeStops_expressionStatement (expression : Node) :
    r.nodeStops (.expressionStatement expression) = r.nodeStops expression := by
  rw [nodeStops_of_none rfl]
  simp [inText, visited, slots]

/-- A property has the calls of its value; its key is skipped. -/
theorem nodeStops_property (key value : Node) :
    r.nodeStops (.property key value) = r.nodeStops value := by
  rw [nodeStops_of_none rfl]
  simp [inText, visited]

/-- An operation has the calls of its left side, then those of its right side. -/
theorem nodeStops_ofBinary (operator : String) (left right : Node) :
    r.nodeStops (ofBinary operator left right) = r.nodeStops left ++ r.nodeStops right := by
  unfold ofBinary
  split <;> rw [nodeStops_of_none rfl] <;> simp [inText, visited, slots]

/-- A conditional has the calls of its branches; its test is skipped. -/
theorem nodeStops_conditional (test consequent alternate : Node) :
    r.nodeStops (.conditional test consequent alternate) =
      r.nodeStops consequent ++ r.nodeStops alternate := by
  rw [nodeStops_of_none rfl]
  simp [inText]

/-- A member has the calls of its owner, then those of the part. -/
theorem nodeStops_member (owner part : Node) (computed : Bool) :
    r.nodeStops (.member owner part computed) = r.nodeStops owner ++ r.nodeStops part := by
  rw [nodeStops_of_none rfl]
  simp [inText, visited, slots]

/-- An `if` has the calls of its branches; its test is skipped. -/
theorem nodeStops_ifStatement (test consequent : Node) (alternate : Option Node) :
    r.nodeStops (.ifStatement test consequent alternate) =
      r.nodeStops consequent ++ alternate.toList.flatMap r.nodeStops := by
  rw [nodeStops_of_none rfl]
  simp [inText, visited, filled_map_snd]

/-- A `try` has the calls of its block, its handler and its finalizer. -/
theorem nodeStops_tryStatement (block : Node) (handler finalizer : Option Node) :
    r.nodeStops (.tryStatement block handler finalizer) =
      r.nodeStops block ++ (handler.toList.flatMap r.nodeStops ++
        finalizer.toList.flatMap r.nodeStops) := by
  rw [nodeStops_of_none rfl]
  simp [inText, visited, slots, filled_map_snd]

/-- A variable has the calls of its initial value. -/
theorem nodeStops_variableDeclarator (init : Option Node) :
    r.nodeStops (.variableDeclarator init) = init.toList.flatMap r.nodeStops := by
  rw [nodeStops_of_none rfl]
  simp [inText, visited, slots, filled_map_snd]

/-- An array has the calls of its elements. -/
theorem nodeStops_array (elements : List Node) :
    r.nodeStops (.array elements) = elements.flatMap r.nodeStops := by
  rw [nodeStops_of_none rfl]
  simp [inText, visited, slots, numbered_map_snd]

/-- An object has the calls of its properties. -/
theorem nodeStops_object (properties : List Node) :
    r.nodeStops (.object properties) = properties.flatMap r.nodeStops := by
  rw [nodeStops_of_none rfl]
  simp [inText, visited, slots, numbered_map_snd]

/-- A sequence has the calls of its expressions. -/
theorem nodeStops_sequence (expressions : List Node) :
    r.nodeStops (.sequence expressions) = expressions.flatMap r.nodeStops := by
  rw [nodeStops_of_none rfl]
  simp [inText, visited, slots, numbered_map_snd]

/-- Variables have the calls of each. -/
theorem nodeStops_variableDeclaration (declarations : List Node) :
    r.nodeStops (.variableDeclaration declarations) = declarations.flatMap r.nodeStops := by
  rw [nodeStops_of_none rfl]
  simp [inText, visited, slots, numbered_map_snd]

/-- A `new` has the calls of its arguments; its callee is skipped. -/
theorem nodeStops_new (callee : Node) (arguments : List Node) :
    r.nodeStops (.new callee arguments) = arguments.flatMap r.nodeStops := by
  rw [nodeStops_of_none rfl]
  simp [inText, visited, numbered_map_snd]

/-- A `switch` has the calls of its cases; what it looks at is skipped. -/
theorem nodeStops_switch (discriminant : Node) (cases : List Node) :
    r.nodeStops (.switch discriminant cases) = cases.flatMap r.nodeStops := by
  rw [nodeStops_of_none rfl]
  simp [inText, visited, numbered_map_snd]

/-- A case has the calls of its test, then those of its statements. -/
theorem nodeStops_switchCase (test : Option Node) (consequent : List Node) :
    r.nodeStops (.switchCase test consequent) =
      test.toList.flatMap r.nodeStops ++ consequent.flatMap r.nodeStops := by
  rw [nodeStops_of_none rfl]
  simp [inText, visited, slots, filled_map_snd, numbered_map_snd]

/-- A node of no special kind has the stops of its argument and then those of its body. -/
theorem nodeStops_other (kind : String) (argument : Option Node) (body : NodeBody) :
    r.nodeStops (.other kind argument body) =
      argument.toList.flatMap r.nodeStops ++
        ((bodySlots body).map Prod.snd).flatMap r.nodeStops := by
  rw [nodeStops_of_none rfl]
  simp [inText, visited, slots, filled_map_snd]

/-- A node with an argument has the calls of the argument. -/
theorem nodeStops_withArgument (kind : String) (argument : Option Node) :
    r.nodeStops (withArgument kind argument) = argument.toList.flatMap r.nodeStops :=
  (nodeStops_other ..).trans (List.append_nil _)

/-- So it is where the argument is there. -/
theorem nodeStops_argument (kind : String) (argument : Node) :
    r.nodeStops (withArgument kind (some argument)) = r.nodeStops argument :=
  (nodeStops_withArgument ..).trans (List.append_nil _)

/-- A node around another one has the calls of that one. -/
theorem nodeStops_around (kind : String) (inner : Node) :
    r.nodeStops (around kind inner) = r.nodeStops inner :=
  (nodeStops_other ..).trans (List.append_nil _)

/-- A node with a series has the calls of its argument, then those of the series. -/
theorem nodeStops_series (kind : String) (argument : Option Node) (nodes : List Node) :
    r.nodeStops (.other kind argument (.sequence nodes)) =
      argument.toList.flatMap r.nodeStops ++ nodes.flatMap r.nodeStops := by
  rw [nodeStops_other]
  simp [bodySlots, numbered_map_snd]

/-- A list of nodes has the calls of each. -/
theorem nodeStops_listing (kind : String) (nodes : List Node) :
    r.nodeStops (listing kind nodes) = nodes.flatMap r.nodeStops :=
  nodeStops_series kind none nodes

/-- A call has its own stop, or those of its callee and its arguments. -/
theorem nodeStops_call (callee : Node) (arguments : List Node) (location : Option Location) :
    r.nodeStops (.call callee arguments location) = [.call ⟨arguments, location⟩] ∨
      r.nodeStops (.call callee arguments location) =
        r.nodeStops callee ++ arguments.flatMap r.nodeStops := by
  rcases hcall : (Node.call callee arguments location).messageCall? r.names with _ | found
  · right
    rw [nodeStops_of_none hcall]
    simp [inText, visited, slots, numbered_map_snd]
  · left
    rw [Reading.nodeStops, sourceCalls_of_some hcall]
    simp only [messageCall?, Option.ite_none_right_eq_some, Option.some.injEq] at hcall
    rw [← hcall.2, List.map_singleton]

/-- Without a name nothing is a message call. -/
theorem nodeStops_call_leaf (kind : String) (arguments : List Node) (location : Option Location) :
    r.nodeStops (.call (leaf kind) arguments location) = arguments.flatMap r.nodeStops := by
  rw [nodeStops_of_none rfl]
  simp [inText, visited, slots, numbered_map_snd, nodeStops_leaf]

end nodes

/-! ## Pieces -/

instance {α : Type} [HasStops α] : HasStops (List α) := ⟨fun r pieces => pieces.flatMap r.stops⟩

instance {α : Type} [HasStops α] : HasStops (Option α) := ⟨fun r piece => piece.elim [] r.stops⟩

instance : HasStops Expr := ⟨fun r e => r.nodeStops (.ofExpr r.locate e)⟩

instance : HasStops Stmt := ⟨fun r statement => r.nodeStops (.ofStmt r.locate statement)⟩

instance : HasStops Decl := ⟨fun r declaration => r.nodeStops (.ofDecl r.locate declaration)⟩

instance : HasStops Class := ⟨fun r body => r.nodeStops (.ofClass r.locate body)⟩

instance : HasStops NamespaceBody := ⟨fun r body => r.nodeStops (.ofNamespace r.locate body)⟩

instance : HasStops Element where
  stops r
    | .hole => []
    | .item value | .spread value => r.stops value

instance : HasStops Access where
  stops r
    | .computed value => r.stops value
    | _ => []

instance : HasStops Body where
  stops r
    | .absent => []
    | .block statements => r.stops statements
    | .value result => r.stops result

instance : HasStops Member where
  stops r
    | .keyed _ value | .initialised _ value | .spread value => r.stops value
    | .shorthand _ => []
    | .method _ _ body | .accessor _ _ body => r.stops body

instance : HasStops ClassMember where
  stops r
    | .initialiser body | .method _ body => r.stops body
    | .field _ value | .accessor _ value => r.stops value
    | .staticBlock statements => r.stops statements
    | .other => []

instance : HasStops JsxPart where
  stops r
    | .text => []
    | .value value | .spreadAttribute value | .spreadChild value => r.stops value

instance : HasStops Case where
  stops r
    | .mk test consequent => r.stops test ++ r.stops consequent

instance : HasStops Item where
  stops r
    | .statement statement => r.stops statement
    | .exportDecl declaration => r.stops declaration
    | .exportDefaultFunction body => r.stops body
    | .exportDefaultClass body => r.stops body
    | .exportDefaultValue value | .exportAssign value => r.stops value
    | .exportDefaultInterface | .imports | .link => []

section pieces

variable {α : Type} [HasStops α]

/-- No pieces have no stops. -/
@[simp] theorem stops_nil : r.stops ([] : List α) = [] := rfl

/-- The stops of the first piece come first. -/
@[simp] theorem stops_cons (first : α) (rest : List α) :
    r.stops (first :: rest) = r.stops first ++ r.stops rest :=
  List.flatMap_cons

/-- The stops of two lists stand one behind the other. -/
@[simp] theorem stops_append (front back : List α) :
    r.stops (front ++ back) = r.stops front ++ r.stops back :=
  List.flatMap_append

/-- A missing piece has no stops. -/
@[simp] theorem stops_none : r.stops (none : Option α) = [] := rfl

/-- A piece that may be missing has its stops if it is there. -/
@[simp] theorem stops_some (piece : α) : r.stops (some piece) = r.stops piece := rfl

end pieces

/-! ### Simple pieces -/

section simple

/-- A hole has no stops. -/
@[simp] theorem stops_hole : r.stops Element.hole = [] := rfl

/-- An item has the stops of its value. -/
@[simp] theorem stops_item (value : Expr) : r.stops (Element.item value) = r.stops value := rfl

/-- So has a spread item. -/
@[simp] theorem stops_spread (value : Expr) : r.stops (Element.spread value) = r.stops value := rfl

/-- A name behind a dot has no stops. -/
@[simp] theorem stops_accessName (id : String) : r.stops (Access.name id) = [] := rfl

/-- Neither has a private one. -/
@[simp] theorem stops_accessPrivateName (id : String) : r.stops (Access.privateName id) = [] := rfl

/-- An index has the stops of its value. -/
@[simp] theorem stops_computed (value : Expr) : r.stops (Access.computed value) = r.stops value :=
  rfl

/-- A missing body has no stops. -/
@[simp] theorem stops_absent : r.stops Body.absent = [] := rfl

/-- A block as a body has the stops of its statements. -/
@[simp] theorem stops_block (statements : List Stmt) :
    r.stops (Body.block statements) = r.stops statements := rfl

/-- A value as a body has its own stops. -/
@[simp] theorem stops_value (result : Expr) : r.stops (Body.value result) = r.stops result := rfl

/-- A member with a key has the stops of its value. -/
@[simp] theorem stops_keyed (key : Key) (value : Expr) :
    r.stops (Member.keyed key value) = r.stops value := rfl

/-- A shorthand has no stops. -/
@[simp] theorem stops_shorthand (id : String) : r.stops (Member.shorthand id) = [] := rfl

/-- A shorthand with an initial value has the stops of that. -/
@[simp] theorem stops_initialised (id : String) (value : Expr) :
    r.stops (Member.initialised id value) = r.stops value := rfl

/-- A method has the stops of its body. -/
@[simp] theorem stops_method (start : Nat) (key : Key) (body : Body) :
    r.stops (Member.method start key body) = r.stops body := rfl

/-- A getter or setter has the stops of its body. -/
@[simp] theorem stops_accessor (start : Nat) (key : Key) (body : Body) :
    r.stops (Member.accessor start key body) = r.stops body := rfl

/-- A spread member has the stops of its value. -/
@[simp] theorem stops_memberSpread (value : Expr) : r.stops (Member.spread value) = r.stops value :=
  rfl

/-- The function that sets up an instance has the stops of its body. -/
@[simp] theorem stops_initialiser (body : Body) :
    r.stops (ClassMember.initialiser body) = r.stops body := rfl

/-- A method of a class has the stops of its body. -/
@[simp] theorem stops_classMethod (key : Key) (body : Body) :
    r.stops (ClassMember.method key body) = r.stops body := rfl

/-- A field has the stops of its initial value. -/
@[simp] theorem stops_field (key : Key) (value : Option Expr) :
    r.stops (ClassMember.field key value) = r.stops value := rfl

/-- So has an accessor. -/
@[simp] theorem stops_classAccessor (key : Key) (value : Option Expr) :
    r.stops (ClassMember.accessor key value) = r.stops value := rfl

/-- A static block has the stops of its statements. -/
@[simp] theorem stops_staticBlock (statements : List Stmt) :
    r.stops (ClassMember.staticBlock statements) = r.stops statements := rfl

/-- Other members of a class have no stops. -/
@[simp] theorem stops_other : r.stops ClassMember.other = [] := rfl

/-- Text between tags has no stops. -/
@[simp] theorem stops_text : r.stops JsxPart.text = [] := rfl

/-- A value between braces has its own stops. -/
@[simp] theorem stops_partValue (value : Expr) : r.stops (JsxPart.value value) = r.stops value :=
  rfl

/-- So has a spread attribute. -/
@[simp] theorem stops_spreadAttribute (value : Expr) :
    r.stops (JsxPart.spreadAttribute value) = r.stops value := rfl

/-- So has a spread child. -/
@[simp] theorem stops_spreadChild (value : Expr) :
    r.stops (JsxPart.spreadChild value) = r.stops value := rfl

/-- A case has the stops of its test, then those of its statements. -/
@[simp] theorem stops_case (test : Option Expr) (consequent : List Stmt) :
    r.stops (Case.mk test consequent) = r.stops test ++ r.stops consequent := rfl

/-- A statement as an item has its own stops. -/
@[simp] theorem stops_statement (statement : Stmt) :
    r.stops (Item.statement statement) = r.stops statement := rfl

/-- An exported declaration has its own stops. -/
@[simp] theorem stops_exportDecl (declaration : Decl) :
    r.stops (Item.exportDecl declaration) = r.stops declaration := rfl

/-- A function that is the default export has the stops of its body. -/
@[simp] theorem stops_exportDefaultFunction (body : Body) :
    r.stops (Item.exportDefaultFunction body) = r.stops body := rfl

/-- A class that is the default export has its own stops. -/
@[simp] theorem stops_exportDefaultClass (body : Class) :
    r.stops (Item.exportDefaultClass body) = r.stops body := rfl

/-- A value that is the default export has its own stops. -/
@[simp] theorem stops_exportDefaultValue (value : Expr) :
    r.stops (Item.exportDefaultValue value) = r.stops value := rfl

/-- A value that is exported by assignment has its own stops. -/
@[simp] theorem stops_exportAssign (value : Expr) :
    r.stops (Item.exportAssign value) = r.stops value := rfl

/-- An interface that is the default export has no stops. -/
@[simp] theorem stops_exportDefaultInterface : r.stops Item.exportDefaultInterface = [] := rfl

/-- An import has no stops. -/
@[simp] theorem stops_imports : r.stops Item.imports = [] := rfl

/-- A link between modules has no stops. -/
@[simp] theorem stops_link : r.stops Item.link = [] := rfl

end simple

/-! ### Lists of nodes

What a list of pieces becomes has the stops of the pieces. -/

section lists

open Node

/-- The node of an expression that may be missing has its stops. -/
theorem flatMap_ofExpr? : ∀ value : Option Expr,
    (ofExpr? r.locate value).toList.flatMap r.nodeStops = r.stops value
  | none => rfl
  | some value => List.append_nil (r.stops value)

/-- The nodes of expressions have their stops. -/
theorem flatMap_ofExprs : ∀ values : List Expr,
    (ofExprs r.locate values).flatMap r.nodeStops = r.stops values
  | [] => rfl
  | value :: rest => congrArg (r.stops value ++ ·) (flatMap_ofExprs rest)

/-- The nodes of elements have their stops. -/
theorem flatMap_ofElements : ∀ items : List Element,
    (ofElements r.locate items).flatMap r.nodeStops = r.stops items
  | [] => rfl
  | .hole :: rest => flatMap_ofElements rest
  | .item value :: rest => congrArg (r.stops value ++ ·) (flatMap_ofElements rest)
  | .spread value :: rest =>
    congrArg₂ (· ++ ·) (nodeStops_argument _ (ofExpr r.locate value)) (flatMap_ofElements rest)

/-- The node of a statement that may be missing has its stops. -/
theorem flatMap_ofStmt? : ∀ statement : Option Stmt,
    (ofStmt? r.locate statement).toList.flatMap r.nodeStops = r.stops statement
  | none => rfl
  | some statement => List.append_nil (r.stops statement)

/-- The nodes of statements have their stops. -/
theorem flatMap_ofStmts : ∀ statements : List Stmt,
    (ofStmts r.locate statements).flatMap r.nodeStops = r.stops statements
  | [] => rfl
  | statement :: rest => congrArg (r.stops statement ++ ·) (flatMap_ofStmts rest)

/-- The node of a body has its stops. -/
theorem nodeStops_ofBody (kind : String) : ∀ body : Body,
    r.nodeStops (ofBody r.locate kind body) = r.stops body
  | .absent => nodeStops_leaf kind
  | .block statements =>
    (nodeStops_around ..).trans ((nodeStops_listing ..).trans (flatMap_ofStmts statements))
  | .value _ => nodeStops_around ..

/-- The node of a clause has the stops of its block. -/
theorem flatMap_ofClause {wrap : Node → Node}
    (hwrap : ∀ node, r.nodeStops (wrap node) = r.nodeStops node) (block : Option (List Stmt)) :
    (ofClause r.locate wrap block).toList.flatMap r.nodeStops = r.stops block := by
  cases block with
  | none => rfl
  | some statements =>
      refine (List.append_nil _).trans ((hwrap _).trans ((nodeStops_listing ..).trans ?_))
      exact flatMap_ofStmts statements

/-- The nodes of the members of an object have their stops. -/
theorem flatMap_ofMembers : ∀ members : List Member,
    (ofMembers r.locate members).flatMap r.nodeStops = r.stops members
  | [] => rfl
  | .keyed _ _ :: rest | .initialised _ _ :: rest =>
    congrArg₂ (· ++ ·) (nodeStops_property ..) (flatMap_ofMembers rest)
  | .shorthand id :: rest =>
    congrArg₂ (· ++ ·) ((nodeStops_property ..).trans (nodeStops_identifier id))
      (flatMap_ofMembers rest)
  | .method _ _ body :: rest | .accessor _ _ body :: rest =>
    congrArg₂ (· ++ ·) ((nodeStops_property ..).trans (nodeStops_ofBody _ body))
      (flatMap_ofMembers rest)
  | .spread value :: rest =>
    congrArg₂ (· ++ ·) (nodeStops_argument _ (ofExpr r.locate value)) (flatMap_ofMembers rest)

/-- The nodes of the members of a class have their stops. -/
theorem flatMap_ofClassMembers : ∀ members : List ClassMember,
    (ofClassMembers r.locate members).flatMap r.nodeStops = r.stops members
  | [] => rfl
  | .initialiser body :: rest =>
    congrArg₂ (· ++ ·) (nodeStops_ofBody _ body) (flatMap_ofClassMembers rest)
  | .method _ body :: rest =>
    congrArg₂ (· ++ ·) ((nodeStops_around ..).trans (nodeStops_ofBody _ body))
      (flatMap_ofClassMembers rest)
  | .field _ value :: rest | .accessor _ value :: rest =>
    congrArg₂ (· ++ ·) ((nodeStops_withArgument ..).trans (flatMap_ofExpr? value))
      (flatMap_ofClassMembers rest)
  | .staticBlock statements :: rest =>
    congrArg₂ (· ++ ·)
      ((nodeStops_around ..).trans ((nodeStops_listing ..).trans (flatMap_ofStmts statements)))
      (flatMap_ofClassMembers rest)
  | .other :: rest => congrArg₂ (· ++ ·) (nodeStops_leaf _) (flatMap_ofClassMembers rest)

/-- The nodes of the parts of an element have their stops. -/
theorem flatMap_ofParts : ∀ parts : List JsxPart,
    (ofParts r.locate parts).flatMap r.nodeStops = r.stops parts
  | [] => rfl
  | .text :: rest => flatMap_ofParts rest
  | .value value :: rest | .spreadChild value :: rest =>
    congrArg (r.stops value ++ ·) (flatMap_ofParts rest)
  | .spreadAttribute value :: rest =>
    congrArg₂ (· ++ ·) (nodeStops_argument _ (ofExpr r.locate value)) (flatMap_ofParts rest)

/-- The nodes of cases have their stops. -/
theorem flatMap_ofCases : ∀ cases : List Case,
    (ofCases r.locate cases).flatMap r.nodeStops = r.stops cases
  | [] => rfl
  | .mk test consequent :: rest => by
    refine congrArg₂ (· ++ ·) ((nodeStops_switchCase ..).trans ?_) (flatMap_ofCases rest)
    exact congrArg₂ (· ++ ·) (flatMap_ofExpr? test) (flatMap_ofStmts consequent)

/-- The nodes of initial values have their stops. -/
theorem flatMap_ofInitials : ∀ initials : List (Option Expr),
    (ofInitials r.locate initials).flatMap r.nodeStops = r.stops initials
  | [] => rfl
  | initial :: rest =>
    congrArg₂ (· ++ ·) ((nodeStops_variableDeclarator _).trans (flatMap_ofExpr? initial))
      (flatMap_ofInitials rest)

/-- The nodes of items have their stops. -/
theorem flatMap_ofItems : ∀ items : List Item,
    (ofItems r.locate items).flatMap r.nodeStops = r.stops items
  | [] => rfl
  | .statement statement :: rest => congrArg (r.stops statement ++ ·) (flatMap_ofItems rest)
  | .exportDecl _ :: rest | .exportDefaultClass _ :: rest | .exportDefaultValue _ :: rest
  | .exportAssign _ :: rest => congrArg₂ (· ++ ·) (nodeStops_around ..) (flatMap_ofItems rest)
  | .exportDefaultFunction body :: rest =>
    congrArg₂ (· ++ ·) ((nodeStops_around ..).trans (nodeStops_ofBody _ body))
      (flatMap_ofItems rest)
  | .exportDefaultInterface :: rest =>
    congrArg₂ (· ++ ·) ((nodeStops_around ..).trans (nodeStops_leaf _)) (flatMap_ofItems rest)
  | .imports :: rest | .link :: rest =>
    congrArg₂ (· ++ ·) (nodeStops_leaf _) (flatMap_ofItems rest)

end lists

/-! ### Expressions -/

section expressions

open Node

/-- A name has no stops. -/
@[simp] theorem stops_name (id : String) : r.stops (Expr.name id) = [] := nodeStops_identifier id

/-- A literal has no stops. -/
@[simp] theorem stops_literal (value : Literal) : r.stops (Expr.literal value) = [] :=
  nodeStops_literal _

/-- `this` has no stops. -/
@[simp] theorem stops_this : r.stops Expr.this = [] := nodeStops_leaf _

/-- An array has the stops of its items. -/
@[simp] theorem stops_array (items : List Element) : r.stops (Expr.array items) = r.stops items :=
  (nodeStops_array _).trans (flatMap_ofElements items)

/-- An object has the stops of its members. -/
@[simp] theorem stops_object (members : List Member) :
    r.stops (Expr.object members) = r.stops members :=
  (nodeStops_object _).trans (flatMap_ofMembers members)

/-- A template has the stops of its expressions. -/
@[simp] theorem stops_template (holes : List Expr) :
    r.stops (Expr.template holes) = r.stops holes :=
  (nodeStops_listing ..).trans (flatMap_ofExprs holes)

/-- A tagged template has the stops of its tag, then those of its expressions. -/
@[simp] theorem stops_tagged (tag : Expr) (holes : List Expr) :
    r.stops (Expr.tagged tag holes) = r.stops tag ++ r.stops holes := by
  refine (nodeStops_other ..).trans (congrArg₂ (· ++ ·) (List.append_nil (r.stops tag)) ?_)
  exact (List.append_nil _).trans ((nodeStops_listing ..).trans (flatMap_ofExprs holes))

/-- A member has the stops of its owner, then those of its index. -/
@[simp] theorem stops_member (owner : Expr) (access : Access) (optional : Bool) :
    r.stops (Expr.member owner access optional) = r.stops owner ++ r.stops access := by
  cases access with
  | name id =>
      exact (nodeStops_member ..).trans (congrArg (r.stops owner ++ ·) (nodeStops_identifier id))
  | privateName id =>
      exact (nodeStops_member ..).trans (congrArg (r.stops owner ++ ·) (nodeStops_leaf _))
  | computed value => exact nodeStops_member ..

/-- A member of the parent class has no stops; even an index is skipped. -/
@[simp] theorem stops_superMember (access : Access) : r.stops (Expr.superMember access) = [] :=
  nodeStops_leaf _

/-- A call has its own stop, or those of its callee and its arguments. -/
theorem stops_call (start : Nat) (callee : Expr) (arguments : List Element) (optional : Bool) :
    (∃ found : Call, found.location = some (r.locate start) ∧
      r.stops (Expr.call start callee arguments optional) = [.call found]) ∨
    r.stops (Expr.call start callee arguments optional) = r.stops callee ++ r.stops arguments := by
  rcases nodeStops_call (r := r) (ofExpr r.locate callee) (ofElements r.locate arguments)
    (some (r.locate start)) with h | h
  · exact .inl ⟨_, rfl, h⟩
  · exact .inr (h.trans (congrArg (r.stops callee ++ ·) (flatMap_ofElements arguments)))

/-- A call of the parent class has the stops of its arguments. -/
@[simp] theorem stops_superCall (start : Nat) (arguments : List Element) :
    r.stops (Expr.superCall start arguments) = r.stops arguments :=
  (nodeStops_call_leaf ..).trans (flatMap_ofElements arguments)

/-- An import that is an expression has the stops of its arguments. -/
@[simp] theorem stops_importCall (start : Nat) (arguments : List Element) :
    r.stops (Expr.importCall start arguments) = r.stops arguments :=
  (nodeStops_call_leaf ..).trans (flatMap_ofElements arguments)

/-- A `new` has the stops of its arguments; its callee is skipped. -/
@[simp] theorem stops_new (callee : Expr) (arguments : List Element) :
    r.stops (Expr.new callee arguments) = r.stops arguments :=
  (nodeStops_new ..).trans (flatMap_ofElements arguments)

/-- An operator before an operand has the stops of the operand. -/
@[simp] theorem stops_unary (operator : String) (operand : Expr) :
    r.stops (Expr.unary operator operand) = r.stops operand :=
  nodeStops_argument ..

/-- So has an update. -/
@[simp] theorem stops_update (operand : Expr) : r.stops (Expr.update operand) = r.stops operand :=
  nodeStops_argument ..

/-- So has an `await`. -/
@[simp] theorem stops_await (operand : Expr) : r.stops (Expr.await operand) = r.stops operand :=
  nodeStops_argument ..

/-- So has a `yield`, if it has an operand. -/
@[simp] theorem stops_yield (operand : Option Expr) :
    r.stops (Expr.yield operand) = r.stops operand :=
  (nodeStops_withArgument ..).trans (flatMap_ofExpr? operand)

/-- An operation has the stops of its left side, then those of its right side. -/
@[simp] theorem stops_binary (operator : String) (left right : Expr) :
    r.stops (Expr.binary operator left right) = r.stops left ++ r.stops right :=
  nodeStops_ofBinary ..

/-- An assignment has the stops of its value. -/
@[simp] theorem stops_assign (operator : String) (value : Expr) :
    r.stops (Expr.assign operator value) = r.stops value :=
  nodeStops_assignment ..

/-- A conditional has the stops of its branches; its test is skipped. -/
@[simp] theorem stops_conditional (test consequent alternate : Expr) :
    r.stops (Expr.conditional test consequent alternate) =
      r.stops consequent ++ r.stops alternate :=
  nodeStops_conditional ..

/-- A sequence has the stops of its parts. -/
@[simp] theorem stops_sequence (parts : List Expr) :
    r.stops (Expr.sequence parts) = r.stops parts :=
  (nodeStops_sequence _).trans (flatMap_ofExprs parts)

/-- A function has the stops of its body. -/
@[simp] theorem stops_function (body : Body) : r.stops (Expr.function body) = r.stops body :=
  nodeStops_ofBody _ body

/-- So has an arrow function. -/
@[simp] theorem stops_arrow (body : Body) : r.stops (Expr.arrow body) = r.stops body :=
  nodeStops_ofBody _ body

/-- A class as an expression has its own stops. -/
@[simp] theorem stops_classValue (body : Class) : r.stops (Expr.classValue body) = r.stops body :=
  nodeStops_around ..

/-- An element has the stops of its attributes, then those of its children. -/
@[simp] theorem stops_jsxElement (settings children : List JsxPart) :
    r.stops (Expr.jsxElement settings children) = r.stops settings ++ r.stops children := by
  refine (nodeStops_listing ..).trans (List.flatMap_append.trans ?_)
  exact congrArg₂ (· ++ ·) (flatMap_ofParts settings) (flatMap_ofParts children)

/-- A fragment has the stops of its children. -/
@[simp] theorem stops_jsxFragment (children : List JsxPart) :
    r.stops (Expr.jsxFragment children) = r.stops children :=
  (nodeStops_listing ..).trans (flatMap_ofParts children)

/-- Parentheses have the stops of what stands in them. -/
@[simp] theorem stops_paren (inner : Expr) : r.stops (Expr.paren inner) = r.stops inner := rfl

/-- So has a type note. -/
@[simp] theorem stops_typed (note : TypeNote) (inner : Expr) :
    r.stops (Expr.typed note inner) = r.stops inner := rfl

/-- A property of the module or of the function has no stops. -/
@[simp] theorem stops_metaProperty (name : String) : r.stops (Expr.metaProperty name) = [] :=
  nodeStops_leaf _

/-- A private name has no stops. -/
@[simp] theorem stops_privateName (id : String) : r.stops (Expr.privateName id) = [] :=
  nodeStops_leaf _

/-- A missing operand has no stops. -/
@[simp] theorem stops_missing : r.stops Expr.missing = [] := nodeStops_leaf _

end expressions

/-! ### Statements, declarations and classes -/

section statements

open Node

/-- A block has the stops of its statements. -/
@[simp] theorem stops_blockStatement (statements : List Stmt) :
    r.stops (Stmt.block statements) = r.stops statements :=
  (nodeStops_listing ..).trans (flatMap_ofStmts statements)

/-- A statement of an expression has the stops of the expression. -/
@[simp] theorem stops_expression (value : Expr) : r.stops (Stmt.expression value) = r.stops value :=
  nodeStops_expressionStatement _

/-- An `if` has the stops of its branches; its test is skipped. -/
@[simp] theorem stops_ifElse (test : Expr) (consequent : Stmt) (alternate : Option Stmt) :
    r.stops (Stmt.ifElse test consequent alternate) = r.stops consequent ++ r.stops alternate :=
  (nodeStops_ifStatement ..).trans (congrArg (r.stops consequent ++ ·) (flatMap_ofStmt? alternate))

/-- A `switch` has the stops of its cases; what it looks at is skipped. -/
@[simp] theorem stops_switch (subject : Expr) (cases : List Case) :
    r.stops (Stmt.switch subject cases) = r.stops cases :=
  (nodeStops_switch ..).trans (flatMap_ofCases cases)

/-- A `try` has the stops of its block, its handler and its finalizer. -/
@[simp] theorem stops_tryCatch (tried : List Stmt) (handler finalizer : Option (List Stmt)) :
    r.stops (Stmt.tryCatch tried handler finalizer) =
      r.stops tried ++ (r.stops handler ++ r.stops finalizer) := by
  refine (nodeStops_tryStatement ..).trans (congrArg₂ (· ++ ·) ?_ (congrArg₂ (· ++ ·) ?_ ?_))
  · exact (nodeStops_listing ..).trans (flatMap_ofStmts tried)
  · exact flatMap_ofClause (nodeStops_around _) handler
  · exact flatMap_ofClause (fun _ => rfl) finalizer

/-- A `return` has the stops of its value. -/
@[simp] theorem stops_returns (value : Option Expr) :
    r.stops (Stmt.returns value) = r.stops value :=
  (nodeStops_withArgument ..).trans (flatMap_ofExpr? value)

/-- A `throw` has the stops of its value. -/
@[simp] theorem stops_throws (value : Expr) : r.stops (Stmt.throws value) = r.stops value :=
  nodeStops_argument ..

/-- A label has the stops of the statement behind it. -/
@[simp] theorem stops_labeled (label : String) (body : Stmt) :
    r.stops (Stmt.labeled label body) = r.stops body :=
  nodeStops_around ..

/-- A loop has the stops of its body; its head is skipped. -/
@[simp] theorem stops_loop (kind : LoopKind) (body : Stmt) :
    r.stops (Stmt.loop kind body) = r.stops body :=
  nodeStops_around ..

/-- A declaration as a statement has its own stops. -/
@[simp] theorem stops_declaration (declaration : Decl) :
    r.stops (Stmt.declaration declaration) = r.stops declaration := rfl

/-- The empty statement has no stops. -/
@[simp] theorem stops_empty : r.stops Stmt.empty = [] := nodeStops_leaf _

/-- `debugger` has no stops. -/
@[simp] theorem stops_debugger : r.stops Stmt.debugger = [] := nodeStops_leaf _

/-- `break` has no stops. -/
@[simp] theorem stops_breaks : r.stops Stmt.breaks = [] := nodeStops_leaf _

/-- `continue` has no stops. -/
@[simp] theorem stops_continues : r.stops Stmt.continues = [] := nodeStops_leaf _

/-- Variables have the stops of their initial values. -/
@[simp] theorem stops_variables (initials : List (Option Expr)) :
    r.stops (Decl.variables initials) = r.stops initials :=
  (nodeStops_variableDeclaration _).trans (flatMap_ofInitials initials)

/-- A declared function has the stops of its body. -/
@[simp] theorem stops_functionDecl (body : Body) :
    r.stops (Decl.functionDecl body) = r.stops body :=
  (nodeStops_around ..).trans (nodeStops_ofBody _ body)

/-- A declared class has its own stops. -/
@[simp] theorem stops_classDecl (body : Class) : r.stops (Decl.classDecl body) = r.stops body :=
  nodeStops_around ..

/-- A namespace has the stops of its body. -/
@[simp] theorem stops_namespaceDecl (body : NamespaceBody) :
    r.stops (Decl.namespaceDecl body) = r.stops body := rfl

/-- A declaration of types has no stops. -/
@[simp] theorem stops_typeOnly : r.stops Decl.typeOnly = [] := nodeStops_leaf _

/-- A class has the stops of its parent, then those of its members. -/
@[simp] theorem stops_class (parent : Option Expr) (members : List ClassMember) :
    r.stops (Class.mk parent members) = r.stops parent ++ r.stops members := by
  rw [← flatMap_ofExpr?, ← flatMap_ofClassMembers]
  exact nodeStops_series ..

/-- A missing body of a namespace has no stops. -/
@[simp] theorem stops_absentNamespace : r.stops NamespaceBody.absent = [] := nodeStops_leaf _

/-- A body of a namespace has the stops of its items. -/
@[simp] theorem stops_namespaceItems (items : List Item) :
    r.stops (NamespaceBody.items items) = r.stops items :=
  (nodeStops_listing ..).trans (flatMap_ofItems items)

/-- A namespace in a namespace has the stops of the inner one. -/
@[simp] theorem stops_nestedNamespace (inner : NamespaceBody) :
    r.stops (NamespaceBody.nested inner) = r.stops inner :=
  nodeStops_around ..

/-- The stops of a whole script are its message calls. -/
theorem stops_program (program : Program) :
    r.stops program.items = ((ofProgram r.locate program).sourceCalls r.names).map .call :=
  (flatMap_ofItems program.items).symm.trans (nodeStops_listing "Program" _).symm

end statements

end StringHarvest.Script
