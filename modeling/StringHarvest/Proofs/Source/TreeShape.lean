import StringHarvest.Proofs.Node.Positions
import StringHarvest.Proofs.Source.CallOrder

/-!
# The shape of the tree of a script

A tree of nodes can hold more than scripts need: a property outside of an object, a case
outside of a `switch`, a `CatchClause` without a block. The search for calls, the reading
of options and the search for comments look at places where such nodes are expected, and
find nothing where they are not.

**Main theorem** (`Source.wellShaped_of_parse`): the tree of every text that is read is
`WellShaped`, in either language.

Four kinds of slots take nodes of a kind of their own and all others take any node but those
(`Slot.Takes`). A node is `Sound` if that holds throughout its tree and the node itself may stand
anywhere; there is one lemma for each construct that builds a sound node from sound ones, and the
induction over scripts only applies them.
-/

namespace StringHarvest

open Script (Expr Element Member Key Body ClassMember JsxPart Stmt Case Decl NamespaceBody Item
  Program)

namespace Node

/-! ### Kinds of nodes -/

/-- The location of a node, which only a call can have. -/
def location? : Node → Option Location
  | .call _ _ location => location
  | _ => none

/-- Whether a node is a call. -/
def isCall : Node → Bool
  | .call .. => true
  | _ => false

/-- Whether a node is a property of an object. -/
def isProperty : Node → Bool
  | .property .. => true
  | _ => false

/-- Whether a node is a case of a `switch` statement. -/
def isSwitchCase : Node → Bool
  | .switchCase .. => true
  | _ => false

/-- Whether a node is a variable of a declaration. -/
def isDeclarator : Node → Bool
  | .variableDeclarator _ => true
  | _ => false

/-- Whether a node spreads what it holds. -/
def isSpread : Node → Bool
  | .other kind _ _ => kind == "SpreadElement"
  | _ => false

/-- The slots to which the nodes of a kind are bound. -/
def home? : Node → Option (Nat → Slot)
  | .property .. => some .objectProperty
  | .switchCase .. => some .switchCase
  | .variableDeclarator _ => some .declaration
  | _ => none

/-- Whether a node is bound to no slots. -/
def isFree (node : Node) : Bool := node.home?.isNone

/-- Whether a node is what may handle the failure of a `try` statement: a
clause around one block. -/
def IsHandler (node : Node) : Prop :=
  ∃ statements, node = around "CatchClause" (listing "BlockStatement" statements)

end Node

/-- Whether a slot asks for nodes of a kind of its own. -/
def Slot.isSpecial : Slot → Bool
  | .objectProperty _ | .switchCase _ | .declaration _ | .tryHandler => true
  | _ => false

/-- A slot takes a node. -/
def Slot.Takes : Slot → Node → Prop
  | .objectProperty _, node => node.isProperty = true ∨ node.isSpread = true
  | .switchCase _, node => node.isSwitchCase = true
  | .declaration _, node => node.isDeclarator = true
  | .tryHandler, node => node.IsHandler
  | _, node => node.isFree = true

namespace Node

/-- What a node holds besides its children suits its kind. -/
def Suits : Node → Prop
  | .call _ _ location => location.isSome = true
  | .logical operator _ _ => operator ∈ ["&&", "||", "??"]
  | .binary operator _ _ => operator ∉ ["&&", "||", "??"]
  | .member _ part false => (∃ id, part = .identifier id) ∨ part = leaf "PrivateName"
  | _ => True

/-- Every node of a tree suits its kind, and its slots take its children. -/
def Shaped (root : Node) : Prop :=
  ∀ position node, root.at? position = some node →
    node.Suits ∧ ∀ x ∈ node.slots, x.1.Takes x.2

/-- A tree in shape that may stand in a slot. -/
structure Fits (slot : Slot) (node : Node) : Prop where
  takes : slot.Takes node
  shaped : node.Shaped

/-- A tree in shape that may stand in all slots that do not ask for a kind of their own. -/
structure Sound (node : Node) : Prop where
  isFree : node.isFree = true
  shaped : node.Shaped

/-- A sound node fits into a slot that is not special. -/
theorem Sound.fits {node : Node} (h : node.Sound) {slot : Slot} (hslot : slot.isSpecial = false) :
    Fits slot node where
  takes := by cases slot <;> first | exact h.isFree | cases hslot
  shaped := h.shaped

/-- A tree is in shape if its root is and what stands in the slots of the root fits. -/
theorem shaped_of_slots {node : Node} (hsuits : node.Suits)
    (h : ∀ x ∈ node.slots, Fits x.1 x.2) : node.Shaped := by
  intro position found hfound
  rcases position with _ | ⟨slot, position⟩
  · cases hfound
    exact ⟨hsuits, fun x hx => (h x hx).takes⟩
  · obtain ⟨child, hchild, hfound⟩ := Option.bind_eq_some_iff.mp hfound
    exact (h _ (child?_eq_some_iff.mp hchild)).shaped position found hfound

/-! ### One lemma for each kind of node -/

section kinds

/-- Nodes fit into numbered slots if each of them does. -/
theorem forall_mem_numbered {slot : Nat → Slot} {nodes : List Node}
    (h : ∀ i, ∀ node ∈ nodes, Fits (slot i) node) : ∀ x ∈ numbered slot nodes, Fits x.1 x.2 := by
  rintro ⟨s, node⟩ hx
  obtain ⟨i, hi, rfl⟩ := mem_numbered.mp hx
  exact h i node (List.mem_of_getElem? hi)

/-- A node that may be missing fits if it does when it is there. -/
theorem forall_mem_filled {slot : Slot} {node : Option Node} (h : ∀ n ∈ node, Fits slot n) :
    ∀ x ∈ filled slot node, Fits x.1 x.2 := by
  rintro ⟨s, n⟩ hx
  obtain ⟨hn, rfl⟩ := mem_filled.mp hx
  exact h n hn

variable {kind operator : String} {nodes : List Node} {first second third : Node}
  {node? : Option Node}

/-- Sound nodes fit into numbered slots that are not special. -/
theorem forall_mem_numbered_of_sound {slot : Nat → Slot} (hslot : ∀ i, (slot i).isSpecial = false)
    (h : ∀ node ∈ nodes, node.Sound) : ∀ x ∈ numbered slot nodes, Fits x.1 x.2 :=
  forall_mem_numbered fun i node hnode => (h node hnode).fits (hslot i)

/-- So does a sound node that may be missing. -/
theorem forall_mem_filled_of_sound {slot : Slot} (hslot : slot.isSpecial = false)
    (h : ∀ node ∈ node?, node.Sound) : ∀ x ∈ filled slot node?, Fits x.1 x.2 :=
  forall_mem_filled fun node hnode => (h node hnode).fits hslot

/-- A name is sound. -/
theorem sound_identifier (name : String) : (identifier name).Sound :=
  ⟨rfl, shaped_of_slots trivial (List.forall_mem_nil _)⟩

/-- A literal is sound. -/
theorem sound_literal (value : Literal) : (literal value).Sound :=
  ⟨rfl, shaped_of_slots trivial (List.forall_mem_nil _)⟩

/-- An array is sound if its elements are. -/
theorem sound_array (h : ∀ node ∈ nodes, node.Sound) : (array nodes).Sound :=
  ⟨rfl, shaped_of_slots trivial (forall_mem_numbered_of_sound (fun _ => rfl) h)⟩

/-- A sequence is sound if its expressions are. -/
theorem sound_sequence (h : ∀ node ∈ nodes, node.Sound) : (sequence nodes).Sound :=
  ⟨rfl, shaped_of_slots trivial (forall_mem_numbered_of_sound (fun _ => rfl) h)⟩

/-- An assignment is sound if its right side is. -/
theorem sound_assignment (h : first.Sound) : (assignment operator first).Sound :=
  ⟨rfl, shaped_of_slots trivial (by simpa [slots] using h.fits rfl)⟩

/-- An operation is sound if its sides are. -/
theorem sound_ofBinary (hleft : first.Sound) (hright : second.Sound) :
    (ofBinary operator first second).Sound := by
  unfold ofBinary
  split
  next hmem =>
    have hsuits : operator ∈ ["&&", "||", "??"] := List.contains_iff_mem.mp hmem
    exact ⟨rfl, shaped_of_slots hsuits (by simpa [slots] using ⟨hleft.fits rfl, hright.fits rfl⟩)⟩
  next hmem =>
    have hsuits : operator ∉ ["&&", "||", "??"] := fun h => hmem (List.contains_iff_mem.mpr h)
    exact ⟨rfl, shaped_of_slots hsuits (by simpa [slots] using ⟨hleft.fits rfl, hright.fits rfl⟩)⟩

/-- A call is sound if its callee and its arguments are, and it has a place. -/
theorem sound_call {location : Location} (hcallee : first.Sound) (h : ∀ node ∈ nodes, node.Sound) :
    (call first nodes (some location)).Sound :=
  ⟨rfl, shaped_of_slots rfl (List.forall_mem_cons.mpr
    ⟨hcallee.fits rfl, forall_mem_numbered_of_sound (fun _ => rfl) h⟩)⟩

/-- A `new` is sound if its callee and its arguments are. -/
theorem sound_new (hcallee : first.Sound) (h : ∀ node ∈ nodes, node.Sound) :
    (new first nodes).Sound :=
  ⟨rfl, shaped_of_slots trivial (List.forall_mem_cons.mpr
    ⟨hcallee.fits rfl, forall_mem_numbered_of_sound (fun _ => rfl) h⟩)⟩

/-- A conditional is sound if its three parts are. -/
theorem sound_conditional (htest : first.Sound) (hconsequent : second.Sound)
    (halternate : third.Sound) : (conditional first second third).Sound :=
  ⟨rfl, shaped_of_slots trivial
    (by simpa [slots] using ⟨htest.fits rfl, hconsequent.fits rfl, halternate.fits rfl⟩)⟩

/-- A statement of an expression is sound if the expression is. -/
theorem sound_expressionStatement (h : first.Sound) : (expressionStatement first).Sound :=
  ⟨rfl, shaped_of_slots trivial (by simpa [slots] using h.fits rfl)⟩

/-- An `if` is sound if its parts are. -/
theorem sound_ifStatement (htest : first.Sound) (hconsequent : second.Sound)
    (halternate : ∀ node ∈ node?, node.Sound) : (ifStatement first second node?).Sound :=
  ⟨rfl, shaped_of_slots trivial (List.forall_mem_cons.mpr ⟨htest.fits rfl,
    List.forall_mem_cons.mpr ⟨hconsequent.fits rfl, forall_mem_filled_of_sound rfl halternate⟩⟩)⟩

/-- A member is sound if its owner and its part are, and the part suits the brackets. -/
theorem sound_member {computed : Bool} (howner : first.Sound) (hpart : second.Sound)
    (hsuits : (member first second computed).Suits) : (member first second computed).Sound :=
  ⟨rfl, shaped_of_slots hsuits (by simpa [slots] using ⟨howner.fits rfl, hpart.fits rfl⟩)⟩

/-- A node of no special kind is sound if its argument is and its body fits. -/
theorem sound_other {body : NodeBody} (hargument : ∀ node ∈ node?, node.Sound)
    (hbody : ∀ x ∈ bodySlots body, Fits x.1 x.2) : (other kind node? body).Sound :=
  ⟨rfl, shaped_of_slots trivial (List.forall_mem_append.mpr
    ⟨forall_mem_filled_of_sound rfl hargument, hbody⟩)⟩

/-- A node without children is sound. -/
theorem sound_leaf (kind : String) : (leaf kind).Sound :=
  sound_other (by simp) (List.forall_mem_nil _)

/-- A node with an argument is sound if the argument is. -/
theorem sound_withArgument (h : ∀ node ∈ node?, node.Sound) : (withArgument kind node?).Sound :=
  sound_other h (List.forall_mem_nil _)

/-- A node around a sound one is sound. -/
theorem sound_around (h : first.Sound) : (around kind first).Sound :=
  sound_other (by simp) (by simpa [bodySlots] using h.fits rfl)

/-- A list of sound nodes is sound. -/
theorem sound_listing (h : ∀ node ∈ nodes, node.Sound) : (listing kind nodes).Sound :=
  sound_other (by simp) (forall_mem_numbered_of_sound (fun _ => rfl) h)

/-- A property with a sound key and a sound value fits into an object. -/
theorem fits_property (hkey : first.Sound) (hvalue : second.Sound) (i : Nat) :
    Fits (.objectProperty i) (property first second) :=
  ⟨.inl rfl, shaped_of_slots trivial (by simpa [slots] using ⟨hkey.fits rfl, hvalue.fits rfl⟩)⟩

/-- An object is sound if its properties fit. -/
theorem sound_object (h : ∀ node ∈ nodes, ∀ i, Fits (.objectProperty i) node) :
    (object nodes).Sound :=
  ⟨rfl, shaped_of_slots trivial (forall_mem_numbered fun i node hnode => h node hnode i)⟩

/-- A case of sound nodes fits into a `switch`. -/
theorem fits_switchCase (htest : ∀ node ∈ node?, node.Sound) (h : ∀ node ∈ nodes, node.Sound)
    (i : Nat) : Fits (.switchCase i) (switchCase node? nodes) :=
  ⟨rfl, shaped_of_slots trivial (List.forall_mem_append.mpr
    ⟨forall_mem_filled_of_sound rfl htest, forall_mem_numbered_of_sound (fun _ => rfl) h⟩)⟩

/-- A `switch` is sound if its cases fit. -/
theorem sound_switch (hsubject : first.Sound) (h : ∀ node ∈ nodes, ∀ i, Fits (.switchCase i) node) :
    (switch first nodes).Sound :=
  ⟨rfl, shaped_of_slots trivial (List.forall_mem_cons.mpr
    ⟨hsubject.fits rfl, forall_mem_numbered fun i node hnode => h node hnode i⟩)⟩

/-- A variable with a sound initial value fits into a declaration. -/
theorem fits_variableDeclarator (h : ∀ node ∈ node?, node.Sound) (i : Nat) :
    Fits (.declaration i) (variableDeclarator node?) :=
  ⟨rfl, shaped_of_slots trivial (forall_mem_filled_of_sound rfl h)⟩

/-- A declaration is sound if its variables fit. -/
theorem sound_variableDeclaration (h : ∀ node ∈ nodes, ∀ i, Fits (.declaration i) node) :
    (variableDeclaration nodes).Sound :=
  ⟨rfl, shaped_of_slots trivial (forall_mem_numbered fun i node hnode => h node hnode i)⟩

/-- A handler of sound statements fits into a `try`. -/
theorem fits_catchClause (h : ∀ node ∈ nodes, node.Sound) :
    Fits .tryHandler (around "CatchClause" (listing "BlockStatement" nodes)) :=
  ⟨⟨nodes, rfl⟩, (sound_around (sound_listing h)).shaped⟩

/-- A `try` is sound if its block is and its clauses fit. -/
theorem sound_tryStatement {handler finalizer : Option Node} (hblock : first.Sound)
    (hhandler : ∀ node ∈ handler, Fits .tryHandler node)
    (hfinalizer : ∀ node ∈ finalizer, node.Sound) : (tryStatement first handler finalizer).Sound :=
  ⟨rfl, shaped_of_slots trivial (List.forall_mem_cons.mpr ⟨hblock.fits rfl,
    List.forall_mem_append.mpr
      ⟨forall_mem_filled hhandler, forall_mem_filled_of_sound rfl hfinalizer⟩⟩)⟩

end kinds

/-! ### The induction over scripts -/

section scripts

variable (locate : Nat → Location)

mutual

/-- The node of an expression is sound. -/
theorem sound_ofExpr : (e : Expr) → (ofExpr locate e).Sound
  | .name id => sound_identifier id
  | .literal value => sound_literal (literalOf value)
  | .this | .superMember _ | .metaProperty _ | .privateName _ | .missing => sound_leaf _
  | .array items => sound_array (sound_ofElements items)
  | .object members => sound_object (fits_ofMembers members)
  | .template holes => sound_listing (sound_ofExprs holes)
  | .tagged tag holes =>
    have htag : ∀ node ∈ some (ofExpr locate tag), node.Sound := by simpa using sound_ofExpr tag
    have hholes := (sound_listing (sound_ofExprs holes)).fits rfl
    sound_other htag (by simpa [bodySlots] using hholes)
  | .member owner (.name id) _ =>
    sound_member (sound_ofExpr owner) (sound_identifier id) (.inl ⟨id, rfl⟩)
  | .member owner (.privateName _) _ =>
    sound_member (sound_ofExpr owner) (sound_leaf "PrivateName") (.inr rfl)
  | .member owner (.computed value) _ =>
    sound_member (sound_ofExpr owner) (sound_ofExpr value) trivial
  | .call _ callee arguments _ => sound_call (sound_ofExpr callee) (sound_ofElements arguments)
  | .superCall _ arguments => sound_call (sound_leaf "Super") (sound_ofElements arguments)
  | .importCall _ arguments => sound_call (sound_leaf "Import") (sound_ofElements arguments)
  | .new callee arguments => sound_new (sound_ofExpr callee) (sound_ofElements arguments)
  | .unary _ operand | .update operand | .await operand =>
    sound_withArgument (by simpa using sound_ofExpr operand)
  | .yield operand => sound_withArgument (sound_ofExpr? operand)
  | .binary _ left right => sound_ofBinary (sound_ofExpr left) (sound_ofExpr right)
  | .assign _ value => sound_assignment (sound_ofExpr value)
  | .conditional test consequent alternate =>
    sound_conditional (sound_ofExpr test) (sound_ofExpr consequent) (sound_ofExpr alternate)
  | .sequence parts => sound_sequence (sound_ofExprs parts)
  | .function body | .arrow body => sound_ofBody _ body
  | .classValue body => sound_around (sound_ofClass body)
  | .jsxElement settings children =>
    sound_listing (List.forall_mem_append.mpr ⟨sound_ofParts settings, sound_ofParts children⟩)
  | .jsxFragment children => sound_listing (sound_ofParts children)
  | .paren inner => sound_ofExpr inner
  | .typed _ inner => sound_ofExpr inner

/-- So is that of an expression that may be missing. -/
theorem sound_ofExpr? : (e : Option Expr) → ∀ node ∈ ofExpr? locate e, node.Sound
  | none => by simp [ofExpr?]
  | some e => by simpa [ofExpr?] using sound_ofExpr e

/-- So are those of expressions in a row. -/
theorem sound_ofExprs : (es : List Expr) → ∀ node ∈ ofExprs locate es, node.Sound
  | [] => List.forall_mem_nil _
  | e :: rest => List.forall_mem_cons.mpr ⟨sound_ofExpr e, sound_ofExprs rest⟩

/-- So are those of elements. -/
theorem sound_ofElements : (es : List Element) → ∀ node ∈ ofElements locate es, node.Sound
  | [] => List.forall_mem_nil _
  | .hole :: rest => sound_ofElements rest
  | .item e :: rest => List.forall_mem_cons.mpr ⟨sound_ofExpr e, sound_ofElements rest⟩
  | .spread e :: rest =>
    List.forall_mem_cons.mpr
      ⟨sound_withArgument (by simpa using sound_ofExpr e), sound_ofElements rest⟩

/-- The nodes of the members of an object fit into it. -/
theorem fits_ofMembers :
    (ms : List Member) → ∀ node ∈ ofMembers locate ms, ∀ i, Fits (.objectProperty i) node
  | [] => List.forall_mem_nil _
  | .keyed key value :: rest =>
    List.forall_mem_cons.mpr
      ⟨fits_property (sound_ofKey key) (sound_ofExpr value), fits_ofMembers rest⟩
  | .shorthand id :: rest =>
    List.forall_mem_cons.mpr
      ⟨fits_property (sound_identifier id) (sound_identifier id), fits_ofMembers rest⟩
  | .initialised id value :: rest =>
    List.forall_mem_cons.mpr
      ⟨fits_property (sound_identifier id) (sound_ofExpr value), fits_ofMembers rest⟩
  | .method _ key body :: rest | .accessor _ key body :: rest =>
    List.forall_mem_cons.mpr
      ⟨fits_property (sound_ofKey key) (sound_ofBody _ body), fits_ofMembers rest⟩
  | .spread value :: rest =>
    List.forall_mem_cons.mpr
      ⟨fun _ => ⟨.inr rfl, (sound_withArgument (by simpa using sound_ofExpr value)).shaped⟩,
        fits_ofMembers rest⟩

/-- The node of a key is sound. -/
theorem sound_ofKey : (key : Key) → (ofKey locate key).Sound
  | .name id => sound_identifier id
  | .string _ | .number _ | .bigint _ => sound_literal _
  | .computed value => sound_ofExpr value
  | .privateName _ => sound_leaf "PrivateName"

/-- The node of the body of a function is sound. -/
theorem sound_ofBody (kind : String) : (body : Body) → (ofBody locate kind body).Sound
  | .absent => sound_leaf kind
  | .block statements => sound_around (sound_listing (sound_ofStmts statements))
  | .value result => sound_around (sound_ofExpr result)

/-- The node of a class is sound. -/
theorem sound_ofClass : (c : Script.Class) → (ofClass locate c).Sound
  | .mk parent members =>
    sound_other (sound_ofExpr? parent)
      (forall_mem_numbered_of_sound (fun _ => rfl) (sound_ofClassMembers members))

/-- So are those of its members. -/
theorem sound_ofClassMembers :
    (ms : List ClassMember) → ∀ node ∈ ofClassMembers locate ms, node.Sound
  | [] => List.forall_mem_nil _
  | .initialiser body :: rest =>
    List.forall_mem_cons.mpr ⟨sound_ofBody _ body, sound_ofClassMembers rest⟩
  | .method _ body :: rest =>
    List.forall_mem_cons.mpr ⟨sound_around (sound_ofBody _ body), sound_ofClassMembers rest⟩
  | .field _ value :: rest | .accessor _ value :: rest =>
    List.forall_mem_cons.mpr ⟨sound_withArgument (sound_ofExpr? value), sound_ofClassMembers rest⟩
  | .staticBlock statements :: rest =>
    List.forall_mem_cons.mpr
      ⟨sound_around (sound_listing (sound_ofStmts statements)), sound_ofClassMembers rest⟩
  | .other :: rest => List.forall_mem_cons.mpr ⟨sound_leaf _, sound_ofClassMembers rest⟩

/-- The nodes of the parts of an element are sound. -/
theorem sound_ofParts : (ps : List JsxPart) → ∀ node ∈ ofParts locate ps, node.Sound
  | [] => List.forall_mem_nil _
  | .text :: rest => sound_ofParts rest
  | .value e :: rest | .spreadChild e :: rest =>
    List.forall_mem_cons.mpr ⟨sound_ofExpr e, sound_ofParts rest⟩
  | .spreadAttribute e :: rest =>
    List.forall_mem_cons.mpr
      ⟨sound_withArgument (by simpa using sound_ofExpr e), sound_ofParts rest⟩

/-- The node of a statement is sound. -/
theorem sound_ofStmt : (s : Stmt) → (ofStmt locate s).Sound
  | .block statements => sound_listing (sound_ofStmts statements)
  | .expression value => sound_expressionStatement (sound_ofExpr value)
  | .ifElse test consequent alternate =>
    sound_ifStatement (sound_ofExpr test) (sound_ofStmt consequent) (sound_ofStmt? alternate)
  | .switch subject cases => sound_switch (sound_ofExpr subject) (fits_ofCases cases)
  | .tryCatch block handler finalizer =>
    sound_tryStatement (sound_listing (sound_ofStmts block)) (fits_handler handler)
      (sound_finalizer finalizer)
  | .returns value => sound_withArgument (sound_ofExpr? value)
  | .throws value => sound_withArgument (by simpa using sound_ofExpr value)
  | .labeled _ body | .loop _ body => sound_around (sound_ofStmt body)
  | .declaration declaration => sound_ofDecl declaration
  | .empty | .debugger | .breaks | .continues => sound_leaf _

/-- So is that of a statement that may be missing. -/
theorem sound_ofStmt? : (s : Option Stmt) → ∀ node ∈ ofStmt? locate s, node.Sound
  | none => by simp [ofStmt?]
  | some s => by simpa [ofStmt?] using sound_ofStmt s

/-- So are those of statements in a row. -/
theorem sound_ofStmts : (ss : List Stmt) → ∀ node ∈ ofStmts locate ss, node.Sound
  | [] => List.forall_mem_nil _
  | s :: rest => List.forall_mem_cons.mpr ⟨sound_ofStmt s, sound_ofStmts rest⟩

/-- The node of a handler fits into a `try`. -/
theorem fits_handler :
    (clause : Option (List Stmt)) →
      ∀ node ∈ ofClause locate (around "CatchClause") clause, Fits .tryHandler node
  | none => by simp [ofClause]
  | some statements => by simpa [ofClause] using fits_catchClause (sound_ofStmts statements)

/-- The node of a finalizer is sound. -/
theorem sound_finalizer :
    (clause : Option (List Stmt)) → ∀ node ∈ ofClause locate id clause, node.Sound
  | none => by simp [ofClause]
  | some statements => by simpa [ofClause] using sound_listing (sound_ofStmts statements)

/-- The nodes of cases fit into a `switch`. -/
theorem fits_ofCases :
    (cs : List Case) → ∀ node ∈ ofCases locate cs, ∀ i, Fits (.switchCase i) node
  | [] => List.forall_mem_nil _
  | .mk test consequent :: rest =>
    List.forall_mem_cons.mpr
      ⟨fits_switchCase (sound_ofExpr? test) (sound_ofStmts consequent), fits_ofCases rest⟩

/-- The node of a declaration is sound. -/
theorem sound_ofDecl : (d : Decl) → (ofDecl locate d).Sound
  | .variables initials => sound_variableDeclaration (fits_ofInitials initials)
  | .functionDecl body => sound_around (sound_ofBody _ body)
  | .classDecl body => sound_around (sound_ofClass body)
  | .namespaceDecl body => sound_ofNamespace body
  | .typeOnly => sound_leaf _

/-- The nodes of initial values fit into a declaration. -/
theorem fits_ofInitials :
    (es : List (Option Expr)) → ∀ node ∈ ofInitials locate es, ∀ i, Fits (.declaration i) node
  | [] => List.forall_mem_nil _
  | initial :: rest =>
    List.forall_mem_cons.mpr
      ⟨fits_variableDeclarator (sound_ofExpr? initial), fits_ofInitials rest⟩

/-- The node of the body of a namespace is sound. -/
theorem sound_ofNamespace : (body : NamespaceBody) → (ofNamespace locate body).Sound
  | .absent => sound_leaf _
  | .items items => sound_listing (sound_ofItems items)
  | .nested inner => sound_around (sound_ofNamespace inner)

/-- The nodes of items are sound. -/
theorem sound_ofItems : (is : List Item) → ∀ node ∈ ofItems locate is, node.Sound
  | [] => List.forall_mem_nil _
  | .statement s :: rest => List.forall_mem_cons.mpr ⟨sound_ofStmt s, sound_ofItems rest⟩
  | .exportDecl d :: rest =>
    List.forall_mem_cons.mpr ⟨sound_around (sound_ofDecl d), sound_ofItems rest⟩
  | .exportDefaultFunction body :: rest =>
    List.forall_mem_cons.mpr ⟨sound_around (sound_ofBody _ body), sound_ofItems rest⟩
  | .exportDefaultClass body :: rest =>
    List.forall_mem_cons.mpr ⟨sound_around (sound_ofClass body), sound_ofItems rest⟩
  | .exportDefaultInterface :: rest =>
    List.forall_mem_cons.mpr ⟨sound_around (sound_leaf _), sound_ofItems rest⟩
  | .exportDefaultValue value :: rest | .exportAssign value :: rest =>
    List.forall_mem_cons.mpr ⟨sound_around (sound_ofExpr value), sound_ofItems rest⟩
  | .imports :: rest | .link :: rest =>
    List.forall_mem_cons.mpr ⟨sound_leaf _, sound_ofItems rest⟩

end

/-- The tree of a script is sound. -/
theorem sound_ofProgram (program : Program) : (ofProgram locate program).Sound :=
  sound_listing (sound_ofItems locate program.items)

end scripts

/-! ### The shape by positions -/

/-- What the search for calls, options and comments may expect of a tree. The slots
name the kinds of the nodes they belong to: a position that ends in `.switchCase i` is
that of a child of a `switch`. -/
structure WellShaped (root : Node) : Prop where
  /-- Calls have a location, and no other nodes have one. -/
  located : ∀ position node, root.at? position = some node →
    (node.location?.isSome = true ↔ node.isCall = true)
  /-- An object holds properties and spread values. -/
  objectChild : ∀ position members, root.at? position = some (.object members) →
    ∀ node ∈ members, node.isProperty = true ∨ node.isSpread = true
  /-- Properties stand in objects only. -/
  property : ∀ position node, root.at? position = some node → node.isProperty = true →
    ∃ above i, position = above ++ [.objectProperty i]
  /-- Cases are the children of `switch` statements. -/
  switchCase : ∀ position node, root.at? position = some node →
    (node.isSwitchCase = true ↔ ∃ above i, position = above ++ [.switchCase i])
  /-- Variables are the children of their declarations. -/
  declarator : ∀ position node, root.at? position = some node →
    (node.isDeclarator = true ↔ ∃ above i, position = above ++ [.declaration i])
  logical : ∀ position operator left right,
    root.at? position = some (.logical operator left right) → operator ∈ ["&&", "||", "??"]
  binary : ∀ position operator left right,
    root.at? position = some (.binary operator left right) → operator ∉ ["&&", "||", "??"]
  /-- What follows a dot is a name or a private name. -/
  member : ∀ position owner part, root.at? position = some (.member owner part false) →
    (∃ id, part = .identifier id) ∨ part = leaf "PrivateName"
  /-- What handles a failure is a clause around one block. -/
  handler : ∀ position block clause finalizer,
    root.at? position = some (.tryStatement block (some clause) finalizer) → clause.IsHandler

/-- A position below another one is a position in the node there. -/
theorem at?_append (node : Node) (above below : Position) :
    node.at? (above ++ below) = (node.at? above).bind fun found => found.at? below := by
  induction above generalizing node with
  | nil => rfl
  | cons slot above ih =>
      rw [List.cons_append, at?_cons, at?_cons, Option.bind_assoc]
      exact Option.bind_congr fun child _ => ih child

variable {root : Node}

/-- The slot at the end of a position takes the node there. -/
theorem Shaped.takes_last (h : root.Shaped) {above : Position} {slot : Slot} {node : Node}
    (hnode : root.at? (above ++ [slot]) = some node) : slot.Takes node := by
  rw [at?_append] at hnode
  obtain ⟨parent, hparent, hnode⟩ := Option.bind_eq_some_iff.mp hnode
  have hmem : (slot, node) ∈ parent.slots := by
    simpa [at?_cons, child?_eq_some_iff] using hnode
  exact (h above parent hparent).2 _ hmem

/-- A node that is bound to some slots is taken by no others. -/
theorem exists_of_takes {slot : Slot} {node : Node} {home : Nat → Slot} (h : slot.Takes node)
    (hhome : node.home? = some home) : ∃ i, slot = home i := by
  cases node <;> cases hhome
  all_goals
    cases slot <;> first | exact ⟨_, rfl⟩ | nomatch h

/-- A node that is bound to some slots stands in one of them. -/
theorem Sound.exists_last (h : root.Sound) {position : Position} {node : Node} {home : Nat → Slot}
    (hnode : root.at? position = some node) (hhome : node.home? = some home) :
    ∃ above i, position = above ++ [home i] := by
  rcases List.eq_nil_or_concat position with rfl | ⟨above, slot, rfl⟩
  · cases hnode
    exact absurd h.isFree (by simp [Node.isFree, hhome])
  · rw [List.concat_eq_append] at hnode ⊢
    obtain ⟨i, rfl⟩ := exists_of_takes (h.shaped.takes_last hnode) hhome
    exact ⟨above, i, rfl⟩

/-- A sound tree has the shape that is expected of it. -/
theorem Sound.wellShaped (h : root.Sound) : root.WellShaped where
  located position node hnode := by
    have hsuits := (h.shaped position node hnode).1
    cases node <;> first | exact iff_of_true hsuits rfl | exact iff_of_false nofun nofun
  objectChild position members hnode child hchild := by
    obtain ⟨i, hi⟩ := List.mem_iff_getElem?.mp hchild
    exact (h.shaped position _ hnode).2 (.objectProperty i, child) (mem_numbered.mpr ⟨i, hi, rfl⟩)
  property position node hnode hproperty := by
    cases node <;> first | exact h.exists_last hnode rfl | cases hproperty
  switchCase position node hnode := by
    constructor
    · intro hcase
      cases node <;> first | exact h.exists_last hnode rfl | cases hcase
    · rintro ⟨above, i, rfl⟩
      exact h.shaped.takes_last hnode
  declarator position node hnode := by
    constructor
    · intro hvariable
      cases node <;> first | exact h.exists_last hnode rfl | cases hvariable
    · rintro ⟨above, i, rfl⟩
      exact h.shaped.takes_last hnode
  logical position operator left right hnode := (h.shaped position _ hnode).1
  binary position operator left right hnode := (h.shaped position _ hnode).1
  member position owner part hnode := (h.shaped position _ hnode).1
  handler position block clause finalizer hnode :=
    (h.shaped position _ hnode).2 (.tryHandler, clause) (by simp [slots, filled])

end Node

namespace Source

/-- **The tree of every text that is read is well shaped.** -/
theorem wellShaped_of_parse {text path : String} {language : Language} {source : Source}
    (h : parse text path language = .ok source) : source.program.WellShaped := by
  obtain ⟨program, -, htree⟩ := parse_eq_ok h
  rw [htree]
  exact (Node.sound_ofProgram _ program).wellShaped

/-- A text with an object, a case, a variable and a handler. -/
theorem wellShaped_manyKinds :
    ∃ source, parse "try { tr({a: 1, ...b}) } catch { switch (c) { default: let d = e.f && g } }" ""
        .typescript = .ok source ∧
      (source.program.at? [.otherBodyItem 0, .tryBlock, .otherBodyItem 0, .statementExpression,
        .callArgument 0, .objectProperty 0]).map Node.kindName = some "Property" ∧
      source.program.WellShaped := by
  obtain ⟨source, hparse, hproperty⟩ : ∃ source,
      parse "try { tr({a: 1, ...b}) } catch { switch (c) { default: let d = e.f && g } }" ""
        .typescript = .ok source ∧
      (source.program.at? [.otherBodyItem 0, .tryBlock, .otherBodyItem 0, .statementExpression,
        .callArgument 0, .objectProperty 0]).map Node.kindName = some "Property" :=
    exists_of_map_parse (by decide +kernel)
  exact ⟨source, hparse, hproperty, wellShaped_of_parse hparse⟩

end Source

end StringHarvest
