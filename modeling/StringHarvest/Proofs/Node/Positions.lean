import Mathlib.Data.List.Nodup
import StringHarvest.Node.Basic

/-!
# Positions in a tree

Every child of a node stands in a slot. A position is a path of slots from the root, and
`Node.at?` follows it. Slots carry the kind of their node in their name, so that a path alone tells
through which parts of which constructs it leads; five of them are `Slot.isSkipped`.

`Node.slots` lists the children of a node with their slots. No two children share a slot
(`nodup_slots`), so a child is found by its slot (`child?_eq_some_iff`), and a child is smaller
than its node (`sizeOf_lt_of_mem_slots`), which is what inductions over positions rest on.
-/

namespace StringHarvest

/-- A slot of a node. -/
inductive Slot where
  | arrayElement (index : Nat)
  | assignmentRight
  | binaryLeft
  | binaryRight
  | callCallee
  | callArgument (index : Nat)
  | conditionalTest
  | conditionalConsequent
  | conditionalAlternate
  | statementExpression
  | ifTest
  | ifConsequent
  | ifAlternate
  | logicalLeft
  | logicalRight
  | memberObject
  | memberProperty
  | newCallee
  | newArgument (index : Nat)
  | objectProperty (index : Nat)
  | propertyKey
  | propertyValue
  | sequenceExpression (index : Nat)
  | switchDiscriminant
  | switchCase (index : Nat)
  | caseTest
  | caseConsequent (index : Nat)
  | tryBlock
  | tryHandler
  | tryFinalizer
  | declaration (index : Nat)
  | declaratorInit
  | otherArgument
  | otherBody
  | otherBodyItem (index : Nat)
  deriving DecidableEq, Repr

/-- The slots in which no message call is looked for. -/
def Slot.isSkipped : Slot → Bool
  | .conditionalTest | .ifTest | .switchDiscriminant | .propertyKey | .newCallee => true
  | _ => false

/-- A position in a tree: the slots on the way from the root. -/
abbrev Position := List Slot

namespace Node

/-- Nodes with their numbered slots. -/
def numbered (slot : Nat → Slot) (nodes : List Node) : List (Slot × Node) :=
  nodes.zipIdx.map fun x => (slot x.2, x.1)

/-- A node that may be absent with its slot. -/
def filled (slot : Slot) : Option Node → List (Slot × Node)
  | none => []
  | some node => [(slot, node)]

/-- A body with its slots. -/
def bodySlots : NodeBody → List (Slot × Node)
  | .absent => []
  | .single node => [(.otherBody, node)]
  | .sequence nodes => numbered .otherBodyItem nodes

/-- The children of a node with their slots. -/
def slots : Node → List (Slot × Node)
  | .array elements => numbered .arrayElement elements
  | .assignment _ right => [(.assignmentRight, right)]
  | .binary _ left right => [(.binaryLeft, left), (.binaryRight, right)]
  | .call callee arguments _ => (.callCallee, callee) :: numbered .callArgument arguments
  | .conditional test consequent alternate =>
    [(.conditionalTest, test), (.conditionalConsequent, consequent),
      (.conditionalAlternate, alternate)]
  | .expressionStatement expression => [(.statementExpression, expression)]
  | .identifier _ => []
  | .ifStatement test consequent alternate =>
    (.ifTest, test) :: (.ifConsequent, consequent) :: filled .ifAlternate alternate
  | .literal _ => []
  | .logical _ left right => [(.logicalLeft, left), (.logicalRight, right)]
  | .member owner part _ => [(.memberObject, owner), (.memberProperty, part)]
  | .new callee arguments => (.newCallee, callee) :: numbered .newArgument arguments
  | .object properties => numbered .objectProperty properties
  | .property key value => [(.propertyKey, key), (.propertyValue, value)]
  | .sequence expressions => numbered .sequenceExpression expressions
  | .switch discriminant cases => (.switchDiscriminant, discriminant) :: numbered .switchCase cases
  | .switchCase test consequent => filled .caseTest test ++ numbered .caseConsequent consequent
  | .tryStatement block handler finalizer =>
    (.tryBlock, block) :: (filled .tryHandler handler ++ filled .tryFinalizer finalizer)
  | .variableDeclaration declarations => numbered .declaration declarations
  | .variableDeclarator init => filled .declaratorInit init
  | .other _ argument body => filled .otherArgument argument ++ bodySlots body

/-- The child in a slot. -/
def child? (node : Node) (slot : Slot) : Option Node := node.slots.lookup slot

/-- The node at a position. -/
def at? (node : Node) : Position → Option Node
  | [] => some node
  | slot :: rest => (node.child? slot).bind fun child => child.at? rest

/-- At the root of a node stands the node. -/
@[simp] theorem at?_nil (node : Node) : node.at? [] = some node := rfl

/-- A position below a slot is a position in the child there. -/
theorem at?_cons (node : Node) (slot : Slot) (rest : Position) :
    node.at? (slot :: rest) = (node.child? slot).bind fun child => child.at? rest := rfl

/-! ### Slots are different from each other -/

/-- A numbered slot holds the node of its number. -/
theorem mem_numbered {slot : Nat → Slot} {nodes : List Node} {x : Slot × Node} :
    x ∈ numbered slot nodes ↔ ∃ i, nodes[i]? = some x.2 ∧ x.1 = slot i := by
  unfold numbered
  simp only [List.mem_map, Prod.exists, List.mk_mem_zipIdx_iff_getElem?]
  constructor
  · rintro ⟨node, i, hi, rfl⟩
    exact ⟨i, hi, rfl⟩
  · rintro ⟨i, hi, hx⟩
    exact ⟨x.2, i, hi, Prod.ext hx.symm rfl⟩

/-- A slot that may be empty holds its node. -/
theorem mem_filled {slot : Slot} {node : Option Node} {x : Slot × Node} :
    x ∈ filled slot node ↔ node = some x.2 ∧ x.1 = slot := by
  cases node with
  | none => simp [filled]
  | some node => simp [filled, Prod.ext_iff, and_comm, eq_comm]

/-- The slots of numbered nodes are the numbers in order. -/
theorem numbered_map_fst (slot : Nat → Slot) (nodes : List Node) :
    (numbered slot nodes).map Prod.fst = (List.range nodes.length).map slot := by
  unfold numbered
  rw [List.map_map, List.range_eq_range', ← List.zipIdx_map_snd, List.map_map]
  rfl

/-- Numbered slots are distinct. -/
theorem nodup_numbered {slot : Nat → Slot} (hslot : Function.Injective slot) (nodes : List Node) :
    ((numbered slot nodes).map Prod.fst).Nodup := by
  rw [numbered_map_fst]
  exact List.nodup_range.map hslot

/-- So is a single slot. -/
theorem nodup_filled (slot : Slot) (node : Option Node) :
    ((filled slot node).map Prod.fst).Nodup := by
  cases node with
  | none => exact List.nodup_nil
  | some node => exact List.nodup_singleton slot

/-- A slot that no number gives does not stand among numbered nodes. -/
theorem notMem_numbered {slot : Nat → Slot} {s : Slot} (h : ∀ i, slot i ≠ s) (nodes : List Node) :
    s ∉ (numbered slot nodes).map Prod.fst := by
  rw [numbered_map_fst, List.mem_map]
  rintro ⟨i, -, hi⟩
  exact h i hi

/-- A slot in front of numbered nodes, and at most one node in it. -/
theorem nodup_filled_append {slot : Nat → Slot} {s : Slot} (hslot : Function.Injective slot)
    (h : ∀ i, slot i ≠ s) (node : Option Node) (nodes : List Node) :
    ((filled s node ++ numbered slot nodes).map Prod.fst).Nodup := by
  cases node with
  | none => exact nodup_numbered hslot nodes
  | some node =>
      simp only [filled, List.singleton_append, List.map_cons, List.nodup_cons]
      exact ⟨notMem_numbered h nodes, nodup_numbered hslot nodes⟩

/-- **No two children of a node share a slot.** -/
theorem nodup_slots (node : Node) : (node.slots.map Prod.fst).Nodup := by
  cases node with
  | array elements => exact nodup_numbered (fun _ _ => Slot.arrayElement.inj) elements
  | call callee arguments =>
      exact nodup_filled_append (fun _ _ => Slot.callArgument.inj) (by simp) (some callee) arguments
  | ifStatement test consequent alternate => cases alternate <;> simp [slots, filled]
  | new callee arguments =>
      exact nodup_filled_append (fun _ _ => Slot.newArgument.inj) (by simp) (some callee) arguments
  | object properties => exact nodup_numbered (fun _ _ => Slot.objectProperty.inj) properties
  | sequence expressions =>
      exact nodup_numbered (fun _ _ => Slot.sequenceExpression.inj) expressions
  | switch discriminant cases =>
      exact nodup_filled_append (fun _ _ => Slot.switchCase.inj) (by simp) (some discriminant) cases
  | switchCase test consequent =>
      exact nodup_filled_append (fun _ _ => Slot.caseConsequent.inj) (by simp) test consequent
  | tryStatement block handler finalizer =>
      cases handler <;> cases finalizer <;> simp [slots, filled]
  | variableDeclaration declarations =>
      exact nodup_numbered (fun _ _ => Slot.declaration.inj) declarations
  | variableDeclarator init => exact nodup_filled _ init
  | other kind argument body =>
      cases body with
      | absent => simpa [slots, bodySlots] using nodup_filled .otherArgument argument
      | single inner => cases argument <;> simp [slots, bodySlots, filled]
      | sequence nodes =>
          exact nodup_filled_append (fun _ _ => Slot.otherBodyItem.inj) (by simp) argument nodes
  | _ => simp [slots]

/-- A child is found by its slot. -/
theorem child?_eq_some_iff {node child : Node} {slot : Slot} :
    node.child? slot = some child ↔ (slot, child) ∈ node.slots := by
  unfold child?
  rw [List.lookup_eq_some_iff]
  constructor
  · rintro ⟨before, after, hslots, -⟩
    rw [hslots]
    simp
  · intro hmem
    obtain ⟨before, after, hslots⟩ := List.append_of_mem hmem
    refine ⟨before, after, hslots, ?_⟩
    intro x hx
    have hnodup := node.nodup_slots
    rw [hslots, List.map_append, List.map_cons, List.nodup_middle, List.nodup_cons] at hnodup
    have hne : slot ≠ x.1 := fun heq =>
      hnodup.1 (List.mem_append_left _ (List.mem_map.mpr ⟨x, hx, heq.symm⟩))
    simpa using hne

/-! ### Children are smaller -/

section size

variable {x : Slot × Node}

/-- A node of a list is smaller than the list. -/
@[grind →] theorem sizeOf_lt_of_mem_numbered {slot : Nat → Slot} {nodes : List Node}
    (h : x ∈ numbered slot nodes) : sizeOf x.2 < sizeOf nodes := by
  obtain ⟨i, hi, -⟩ := mem_numbered.mp h
  exact List.sizeOf_lt_of_mem (List.mem_of_getElem? hi)

/-- A node that may be missing is smaller than the option. -/
@[grind →] theorem sizeOf_lt_of_mem_filled {slot : Slot} {node : Option Node}
    (h : x ∈ filled slot node) : sizeOf x.2 < sizeOf node := by
  obtain ⟨rfl, -⟩ := mem_filled.mp h
  simp

/-- A node of a body is smaller than the body. -/
@[grind →] theorem sizeOf_lt_of_mem_bodySlots {body : NodeBody} (h : x ∈ bodySlots body) :
    sizeOf x.2 < sizeOf body := by
  cases body with
  | absent => simp [bodySlots] at h
  | single node =>
      rw [bodySlots, List.mem_singleton] at h
      simp [h]
  | sequence nodes =>
      have hlt := sizeOf_lt_of_mem_numbered h
      simp only [NodeBody.sequence.sizeOf_spec]
      omega

/-- A child is smaller than its node. -/
theorem sizeOf_lt_of_mem_slots {node : Node} (h : x ∈ node.slots) : sizeOf x.2 < sizeOf node := by
  cases node <;> simp only [slots, List.mem_cons, List.mem_append, List.not_mem_nil] at h <;> grind

end size

end Node

end StringHarvest
