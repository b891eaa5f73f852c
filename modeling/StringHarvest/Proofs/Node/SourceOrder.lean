import StringHarvest.Proofs.Node.MessageCalls
import StringHarvest.Proofs.Text.Places

/-!
# The order of visits and the order in the text

The walk for message calls takes the children of a node in the order in which they stand in the
text, with one exception: of a conditional expression it takes the alternate before the consequent.
`Node.sourceCalls` is the walk without the exception. Both find the same calls
(`sourceCalls_perm_messageCalls`).

**Main theorem** (`pairwise_messageCalls_iff`): where the calls of the plain walk stand one behind
the other in the text, those of the actual walk do so exactly if it visits no conditional expression
with message calls in both of its branches.
-/

namespace StringHarvest

/-- Whether a call has a place and it is before that of another call. -/
def Call.Before (a b : Call) : Prop := ∃ l ∈ a.location, ∃ m ∈ b.location, l < m

/-- Of two calls, not each one stands before the other. -/
theorem Call.Before.asymm {a b : Call} (h : a.Before b) : ¬ b.Before a := by
  obtain ⟨l, hl, m, hm, hlt⟩ := h
  rintro ⟨m', hm', l', hl', hlt'⟩
  cases Option.mem_unique hl hl'
  cases Option.mem_unique hm hm'
  exact lt_asymm hlt hlt'

namespace Node

/-- The visited children of a node in the order in which they stand in the text. -/
def inText : Node → List (Slot × Node)
  | .conditional _ consequent alternate =>
    [(.conditionalConsequent, consequent), (.conditionalAlternate, alternate)]
  | node => node.visited

/-- In the order of the text, the same slots are visited. -/
theorem inText_perm_visited (node : Node) : node.inText.Perm node.visited := by
  cases node with
  | conditional test consequent alternate => exact .swap _ _ _
  | _ => exact .refl _

variable (names : List String)

/-- The message calls of a tree in the order in which they stand in the text. -/
def sourceCalls (root : Node) : List Call :=
  match root.messageCall? names with
  | some found => [found]
  | none => root.inText.attach.flatMap fun x => sourceCalls x.1.2
termination_by sizeOf root
decreasing_by
  exact sizeOf_lt_of_mem_slots (mem_visited.mp (root.inText_perm_visited.mem_iff.mp x.2)).1

variable {names}

/-- A node that is a call is its only call. -/
theorem sourceCalls_of_some {root : Node} {call : Call} (h : root.messageCall? names = some call) :
    root.sourceCalls names = [call] := by
  rw [sourceCalls, h]

/-- Any other node has the calls of what is visited in it, in the order of the text. -/
theorem sourceCalls_of_none {root : Node} (h : root.messageCall? names = none) :
    root.sourceCalls names = (root.inText.map Prod.snd).flatMap (sourceCalls names) := by
  rw [sourceCalls, h, List.flatMap_map]
  simp only [List.flatMap_subtype, List.unattach_attach]

/-- The two walks find the same calls. -/
theorem sourceCalls_perm_messageCalls (root : Node) :
    (root.sourceCalls names).Perm (root.messageCalls names) := by
  induction root using visited_induction with
  | step root ih =>
      rcases hroot : root.messageCall? names with _ | found
      · rw [sourceCalls_of_none hroot, messageCalls_of_none hroot, List.flatMap_map,
          List.flatMap_map]
        refine (root.inText_perm_visited.flatMap_right _).trans (List.Perm.flatMap_left _ ?_)
        exact fun x hx => ih x hx
      · rw [sourceCalls_of_some hroot, messageCalls_of_some hroot]

/-! ### Visited nodes -/

variable (names)

/-- Whether the walk that starts at a node comes to another one. -/
inductive Visits : Node → Node → Prop
  | here (node : Node) : Visits node node
  | child {root node : Node} {x : Slot × Node} (hroot : root.messageCall? names = none)
    (hx : x ∈ root.visited) (hnode : Visits x.2 node) : Visits root node

/-- Whether a node is a conditional expression with message calls in both branches. -/
def Splits : Node → Prop
  | .conditional _ consequent alternate =>
    consequent.messageCalls names ≠ [] ∧ alternate.messageCalls names ≠ []
  | _ => False

variable {names}

instance (node : Node) : Decidable (node.Splits names) :=
  match node with
  | .conditional _ consequent alternate =>
    inferInstanceAs
      (Decidable (consequent.messageCalls names ≠ [] ∧ alternate.messageCalls names ≠ []))
  | .array .. | .assignment .. | .binary .. | .call .. | .expressionStatement .. | .identifier ..
  | .ifStatement .. | .literal .. | .logical .. | .member .. | .new .. | .object .. | .property ..
  | .sequence .. | .switch .. | .switchCase .. | .tryStatement .. | .variableDeclaration ..
  | .variableDeclarator .. | .other .. => isFalse id

variable (names)

/-- Whether the walk goes down no further than a depth and comes to no conditional expression with
message calls in both branches. -/
def keepsOrder : Nat → Node → Bool
  | 0, _ => false
  | depth + 1, node =>
    !decide (node.Splits names) &&
      ((node.messageCall? names).isSome || node.visited.all fun x => keepsOrder depth x.2)

variable {names}

/-- The check is sound: it goes wherever the walk goes. -/
theorem not_splits_of_keepsOrder {depth : Nat} {root node : Node}
    (h : root.keepsOrder names depth = true) (hvisits : Visits names root node) :
    ¬ node.Splits names := by
  induction hvisits generalizing depth with
  | here node =>
      cases depth with
      | zero => cases h
      | succ depth =>
          simp only [keepsOrder, Bool.and_eq_true, Bool.not_eq_true', decide_eq_false_iff_not] at h
          exact h.1
  | child hroot hx _ ih =>
      cases depth with
      | zero => cases h
      | succ depth =>
          simp only [keepsOrder, hroot, Option.isSome_none, Bool.false_or, Bool.and_eq_true,
            List.all_eq_true] at h
          exact ih (h.2 _ hx)

/-- The calls below a visited node are among all calls, one after the other. -/
theorem Visits.messageCalls_sublist {root node : Node} (h : Visits names root node) :
    (node.messageCalls names).Sublist (root.messageCalls names) := by
  induction h with
  | here node => exact List.Sublist.refl _
  | child hroot hx hnode ih =>
      rw [messageCalls_of_none hroot, List.flatMap_map]
      exact ih.trans (List.sublist_flatten_of_mem (List.mem_map_of_mem hx))

/-- What is visited has some of the calls of the root. -/
theorem Visits.sourceCalls_sublist {root node : Node} (h : Visits names root node) :
    (node.sourceCalls names).Sublist (root.sourceCalls names) := by
  induction h with
  | here node => exact List.Sublist.refl _
  | @child root node x hroot hx hnode ih =>
      rw [sourceCalls_of_none hroot, List.flatMap_map]
      exact ih.trans (List.sublist_flatten_of_mem
        (List.mem_map_of_mem (root.inText_perm_visited.mem_iff.mpr hx)))

/-- Where no conditional has calls in both branches, the order of its branches does not matter. -/
theorem sourceCalls_eq_messageCalls {root : Node}
    (h : ∀ node, Visits names root node → ¬ node.Splits names) :
    root.sourceCalls names = root.messageCalls names := by
  induction root using visited_induction with
  | step root ih =>
      rcases hroot : root.messageCall? names with _ | found
      · have hchild : ∀ x ∈ root.visited, x.2.sourceCalls names = x.2.messageCalls names :=
          fun x hx => ih x hx fun node hnode => h node (.child hroot hx hnode)
        rw [sourceCalls_of_none hroot, messageCalls_of_none hroot, List.flatMap_map,
          List.flatMap_map]
        have hsame : root.inText.flatMap (fun x => x.2.sourceCalls names) =
            root.inText.flatMap fun x => x.2.messageCalls names :=
          List.flatMap_congr fun x hx => hchild x (root.inText_perm_visited.mem_iff.mp hx)
        rw [hsame]
        cases root with
        | conditional test consequent alternate =>
            have hone := h _ (.here _)
            simp only [Splits, ne_eq, not_and_or, not_not] at hone
            rcases hone with hempty | hempty <;> simp [inText, visited, hempty]
        | _ => rfl
      · rw [sourceCalls_of_some hroot, messageCalls_of_some hroot]

/-- **The actual walk keeps the order of the text** exactly if it comes to no conditional expression
with message calls in both branches. -/
theorem pairwise_messageCalls_iff {root : Node}
    (h : (root.sourceCalls names).Pairwise Call.Before) :
    (root.messageCalls names).Pairwise Call.Before ↔
      ∀ node, Visits names root node → ¬ node.Splits names := by
  constructor
  · intro hwalk node hnode hsplits
    cases node with
    | conditional test consequent alternate =>
        obtain ⟨first, hfirst⟩ := List.exists_mem_of_ne_nil _ hsplits.1
        obtain ⟨second, hsecond⟩ := List.exists_mem_of_ne_nil _ hsplits.2
        have hactual := hwalk.sublist hnode.messageCalls_sublist
        have hplain := h.sublist hnode.sourceCalls_sublist
        rw [messageCalls_of_none rfl] at hactual
        rw [sourceCalls_of_none rfl] at hplain
        simp only [visited, inText, List.map_cons, List.map_nil, List.flatMap_cons,
          List.flatMap_nil, List.append_nil, List.pairwise_append] at hactual hplain
        exact (hactual.2.2 second hsecond first hfirst).asymm
          (hplain.2.2 first ((sourceCalls_perm_messageCalls _).mem_iff.mpr hfirst) second
            ((sourceCalls_perm_messageCalls _).mem_iff.mpr hsecond))
    | _ => exact hsplits
  · intro hapart
    rwa [← sourceCalls_eq_messageCalls hapart]

end Node

end StringHarvest
