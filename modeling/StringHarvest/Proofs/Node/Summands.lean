import Mathlib.Logic.ExistsUnique
import StringHarvest.Node.Constant

/-!
# Texts put together by `+`

A text is read from a tree of `+` by going through its summands from left to right.
This file says what the summands are without a word about reading (`Brackets`), and
that the brackets do not matter.

**Main theorem** (`constantText_brackets`): every node puts brackets around exactly one list of
summands, none of which is a sum itself. The text of the node is that of the string literals among
them, one behind the other, and every other summand is noted once, in their order. So two nodes with
the same summands are read alike.
-/

namespace StringHarvest.Node

/-- Whether a node is a sum. Other operators are not gone through. -/
def isSum : Node → Bool
  | .binary operator _ _ => operator == "+"
  | _ => false

/-- **The summands of a node**: it is one itself if it is no sum, and a sum has those of its left
operand and then those of its right one. -/
inductive Brackets : List Node → Node → Prop
  | alone {node : Node} (h : node.isSum = false) : Brackets [node] node
  | sum {before behind : List Node} {left right : Node} (hleft : Brackets before left)
      (hright : Brackets behind right) : Brackets (before ++ behind) (.binary "+" left right)

/-- The value of a string literal. -/
def string? : Node → Option String
  | .literal (.string value) => some value
  | _ => none

/-- What is noted of a summand: that it is no string literal. -/
def unreadText? (node : Node) : Option Event :=
  if node.string?.isNone then some (.unhandledString node) else none

/-- A sum is read from left to right. -/
theorem constantText_sum (left right : Node) :
    (binary "+" left right).constantText = do
      let first ← left.constantText
      let second ← right.constantText
      return first ++ second := by
  rw [constantText, if_pos (beq_self_eq_true "+")]

/-- What is no sum is a string literal, or it is noted. -/
theorem constantText_alone {node : Node} (h : node.isSum = false) :
    node.constantText = ⟨node.string?.getD "", node.unreadText?.toList⟩ := by
  cases node with
  | literal value => cases value <;> rfl
  | binary operator left right =>
      have hplus : (operator == "+") = false := h
      rw [constantText, if_neg (Bool.eq_false_iff.mp hplus)]
      rfl
  | _ => rfl

/-- **Reading a node** is reading its summands, from left to right. -/
theorem Brackets.constantText_eq {summands : List Node} {node : Node} (h : Brackets summands node) :
    node.constantText =
      ⟨String.join (summands.filterMap string?), summands.filterMap unreadText?⟩ := by
  induction h with
  | @alone node h =>
      rw [constantText_alone h, List.filterMap_cons, List.filterMap_cons]
      cases node.string? <;> cases node.unreadText? <;> simp
  | sum hleft hright ihleft ihright =>
      rw [constantText_sum, ihleft, ihright, List.filterMap_append, List.filterMap_append,
        String.join_append]
      exact congrArg (Traced.mk _) (congrArg _ (List.append_nil _))

/-- A sum has two sides. -/
theorem exists_eq_sum {node : Node} (h : node.isSum = true) :
    ∃ left right, node = .binary "+" left right := by
  cases node with
  | binary operator left right =>
      obtain rfl : operator = "+" := beq_iff_eq.mp h
      exact ⟨left, right, rfl⟩
  | _ => cases h

/-- Every node has summands. -/
theorem exists_brackets (node : Node) : ∃ summands, Brackets summands node := by
  rcases h : node.isSum with _ | _
  · exact ⟨_, .alone h⟩
  · obtain ⟨left, right, hsum⟩ := exists_eq_sum h
    obtain ⟨before, hleft⟩ := exists_brackets left
    obtain ⟨behind, hright⟩ := exists_brackets right
    exact ⟨before ++ behind, hsum ▸ hleft.sum hright⟩
termination_by node
decreasing_by
  all_goals
    rw [hsum]
    simp only [binary.sizeOf_spec]
    omega

/-- A node has only one list of summands. -/
theorem Brackets.unique {summands others : List Node} {node : Node} (h : Brackets summands node)
    (h' : Brackets others node) : summands = others := by
  induction h generalizing others with
  | alone h =>
      cases h' with
      | alone => rfl
      | sum => cases h
  | sum hleft hright ihleft ihright =>
      cases h' with
      | alone h => cases h
      | sum hleft' hright' => rw [ihleft hleft', ihright hright']

/-- The summands are no sums. -/
theorem Brackets.isSum_of_mem {summands : List Node} {node : Node} (h : Brackets summands node) :
    ∀ summand ∈ summands, summand.isSum = false := by
  induction h with
  | alone h =>
      intro summand hmem
      rw [List.mem_singleton.mp hmem]
      exact h
  | sum hleft hright ihleft ihright =>
      intro summand hmem
      rcases List.mem_append.mp hmem with hmem | hmem
      · exact ihleft summand hmem
      · exact ihright summand hmem

/-- **Brackets do not matter.** Every node puts brackets around one list of summands, which are no
sums. Its text is that of the string literals among them, one behind the other, and each of the
others is noted once and in order, with all that it holds. Two nodes with the same summands have the
same text and the same events. -/
theorem constantText_brackets :
    (∀ node, ∃! summands, Brackets summands node) ∧
    (∀ node summands, Brackets summands node →
      (∀ summand ∈ summands, summand.isSum = false) ∧
      node.constantText.value = String.join (summands.filterMap string?) ∧
      node.constantText.events =
        (summands.filter fun summand => summand.string?.isNone).map .unhandledString) ∧
    ∀ node other summands, Brackets summands node → Brackets summands other →
      node.constantText = other.constantText := by
  refine ⟨fun node => ?_, fun node summands h => ⟨h.isSum_of_mem, ?_, ?_⟩,
    fun node other summands h h' => ?_⟩
  · obtain ⟨summands, h⟩ := exists_brackets node
    exact ⟨summands, h, fun others h' => h'.unique h⟩
  · rw [h.constantText_eq]
  · rw [h.constantText_eq, ← List.filterMap_eq_map, List.filterMap_filter]
    rfl
  · rw [h.constantText_eq, h'.constantText_eq]

/-- Brackets around `"a"`, `x`, `"b"` and a difference, put in two ways: both are read as `ab`, and
`x` and the difference are noted. -/
theorem constantText_brackets_moved :
    let x : Node := .identifier "x"
    let difference : Node := .binary "-" (string "1") (string "2")
    let behind : Node := .binary "+" (string "b") difference
    let node : Node := .binary "+" (.binary "+" (string "a") x) behind
    let other : Node := .binary "+" (string "a") (.binary "+" x behind)
    Brackets [string "a", x, string "b", difference] node ∧
      Brackets [string "a", x, string "b", difference] other ∧
      node.constantText = other.constantText ∧ other.constantText.value = "ab" ∧
      other.constantText.events = [.unhandledString x, .unhandledString difference] := by
  intro x difference behind node other
  have hbehind : Brackets [string "b", difference] behind := .sum (.alone rfl) (.alone rfl)
  have hnode : Brackets [string "a", x, string "b", difference] node :=
    .sum (.sum (.alone rfl) (.alone rfl)) hbehind
  have hother : Brackets [string "a", x, string "b", difference] other :=
    .sum (.alone rfl) (.sum (.alone rfl) hbehind)
  obtain ⟨-, hread, halike⟩ := constantText_brackets
  obtain ⟨-, hvalue, hevents⟩ := hread other _ hother
  exact ⟨hnode, hother, halike node other _ hnode hother, hvalue.trans (by decide), hevents⟩

end StringHarvest.Node
