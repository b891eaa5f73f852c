import Mathlib.Logic.Basic
import StringHarvest.Catalog.OfSource
import StringHarvest.Config.Basic

/-!
# Callees that spell no dotted name

A dotted name is an identifier, or a member of a dotted name that is named by an identifier
(`Node.isDotted`). What else stands as a callee cannot be read as a name: somewhere in the chain of
its members there is a computed access, a call, a `this` or a private name.

**Main theorem** (`isScanned_call_iff`): such a callee reads as the names that dangle behind the
break, each with a dot in front of it, and not as the empty text: `this.a.b` reads as `.b`. So a
call of it is scanned like any other call exactly if nothing dangles or what dangles is none of the
names of message functions. The settings refuse empty names, but a name that starts with a dot
passes (`not_isScanned_danglingName`).
-/

namespace StringHarvest.Node

/-- Whether a node is a dotted name. -/
def isDotted : Node → Bool
  | .identifier _ => true
  | .member owner (.identifier _) false => owner.isDotted
  | _ => false

/-- The names behind the innermost member of a chain: `b` and `c` in `this.a.b.c`. -/
def dangling : Node → List String
  | .member owner (.identifier last) false =>
    match owner with
    | .member .. => owner.dangling ++ [last]
    | _ => []
  | _ => []

/-- Names with a dot in front of each. -/
def dotted (names : List String) : String := String.join (names.map ("." ++ ·))

/-- No names give the empty text. -/
@[simp] theorem dotted_nil : dotted [] = "" := by simp [dotted]

/-- A further name stands behind a dot. -/
theorem dotted_concat (names : List String) (last : String) :
    dotted (names ++ [last]) = dotted names ++ "." ++ last := by
  simp [dotted, String.append_assoc]

/-- Dotted names start with a dot. -/
theorem startsWith_dotted {names : List String} (h : names ≠ []) :
    (dotted names).startsWith "." = true := by
  obtain ⟨first, rest, rfl⟩ := List.exists_cons_of_ne_nil h
  rw [String.startsWith_string_iff]
  simp [dotted]

/-- Only no names give the empty text. -/
theorem dotted_eq_empty_iff {names : List String} : dotted names = "" ↔ names = [] := by
  refine ⟨fun h => ?_, fun h => h ▸ dotted_nil⟩
  rcases names with _ | ⟨first, rest⟩
  · rfl
  · have hdot := startsWith_dotted (List.cons_ne_nil first rest)
    rw [h] at hdot
    exact absurd hdot (by decide)

/-- A member that is computed, or that is not named by an identifier, reads as nothing. -/
theorem value_dottedName_member {part : Node} {computed : Bool}
    (h : ∀ last, part = .identifier last → computed = true) (owner : Node) :
    (member owner part computed).dottedName.value = "" := by
  cases part with
  | identifier last =>
      rw [h last rfl]
      cases owner <;> rfl
  | _ => cases owner <;> rfl

/-- **What cannot be read as a name** reads as what dangles behind the break. -/
theorem value_dottedName_of_not_isDotted {node : Node} (h : node.isDotted = false) :
    node.dottedName.value = dotted node.dangling := by
  fun_induction dangling node with
  | case1 last owner part computed ih =>
      change (member owner part computed).dottedName.value ++ "." ++ last = _
      rw [ih h, dotted_concat]
  | case2 owner last hmember =>
      rw [dotted_nil]
      cases owner with
      | identifier => cases h
      | member owner part computed => exact (hmember owner part computed rfl).elim
      | _ => rfl
  | case3 node hnamed =>
      rw [dotted_nil]
      cases node with
      | identifier => cases h
      | member owner part computed =>
          refine value_dottedName_member (fun last hpart => ?_) owner
          cases computed with
          | true => rfl
          | false => exact (hnamed owner last (by rw [hpart])).elim
      | _ => rfl

/-! ### Calls -/

/-- A call is scanned like any other call: after the visit and what is noted about the callee,
everything that is met stands in the callee or in the arguments. -/
def IsScanned (names : List String) (callee : Node) (arguments : List Node)
    (location : Option Location) : Prop :=
  (call callee arguments location).findings names =
    visit "CallExpression" (callee.dottedName.events.map .event ++
      (callee.findings names ++ findingsAll names arguments))

/-- What is met from a node on starts with a visit. -/
theorem findings_ne_call (names : List String) (node : Node) (below : List Finding) (found : Call) :
    node.findings names ++ below ≠ [.call found] := by
  cases node <;> simp [findings, visit]

/-- A call is scanned exactly if its callee is none of the message functions. -/
theorem isScanned_iff {names : List String} {callee : Node} {arguments : List Node}
    {location : Option Location} :
    IsScanned names callee arguments location ↔
      isMessageFunction names callee.dottedName.value = false := by
  unfold IsScanned
  rw [findings]
  split
  · rename_i hname
    simp only [hname, Bool.true_eq_false, iff_false]
    intro heq
    exact findings_ne_call names callee _ _ (List.append_cancel_left (List.cons.inj heq).2).symm
  · rename_i hname
    simpa using hname

/-- A name is not that of a message function if it is empty or not listed. -/
theorem isMessageFunction_eq_false_iff {names : List String} {name : String} :
    isMessageFunction names name = false ↔ name = "" ∨ name ∉ names := by
  simp [isMessageFunction, or_iff_not_imp_left]

/-- **When an unreadable callee is passed over.** A callee that spells no dotted name reads as the
names that dangle behind the break, with dots. It reads as the empty text exactly if nothing
dangles; and for all names of message functions a call of it is scanned like any other call exactly
if nothing dangles or what dangles is none of them, so always if none of them starts with a dot. -/
theorem isScanned_call_iff {callee : Node} (h : callee.isDotted = false) (names : List String)
    (arguments : List Node) (location : Option Location) :
    callee.dottedName.value = dotted callee.dangling ∧
    (callee.dottedName.value = "" ↔ callee.dangling = []) ∧
    (IsScanned names callee arguments location ↔
      callee.dangling = [] ∨ dotted callee.dangling ∉ names) ∧
    ((∀ name ∈ names, name.startsWith "." = false) →
      IsScanned names callee arguments location) := by
  have hvalue := value_dottedName_of_not_isDotted h
  have hscanned : IsScanned names callee arguments location ↔
      callee.dangling = [] ∨ dotted callee.dangling ∉ names := by
    rw [isScanned_iff, isMessageFunction_eq_false_iff, hvalue, dotted_eq_empty_iff]
  refine ⟨hvalue, by rw [hvalue, dotted_eq_empty_iff], hscanned, fun hnames => ?_⟩
  rw [hscanned, or_iff_not_imp_left]
  intro hdangling hmem
  have hnot := hnames _ hmem
  rw [startsWith_dotted hdangling] at hnot
  cases hnot

/-- The callee of `this.a.b()`. -/
def memberOfThis : Node :=
  .member (.member (leaf "ThisExpression") (.identifier "a") false) (.identifier "b") false

/-- A call of `this.a.b` is scanned if the message function is `tr` or `b`,
and not if it is `.b`. -/
theorem isScanned_call_iff_memberOfThis :
    memberOfThis.isDotted = false ∧ IsScanned ["tr", "b"] memberOfThis [string "x"] none ∧
      ¬ IsScanned [".b"] memberOfThis [string "x"] none := by
  have hdotted : memberOfThis.isDotted = false := rfl
  refine ⟨hdotted, ?_, ?_⟩
  · exact (isScanned_call_iff hdotted ["tr", "b"] [string "x"] none).2.2.2 (by decide +kernel)
  · rw [(isScanned_call_iff hdotted [".b"] [string "x"] none).2.2.1]
    decide

/-- The settings accept the name `.b`, and then the call `this.a.b("x")` gives a message although
its callee is no dotted name. -/
theorem not_isScanned_danglingName :
    let config : Config := { functionNames := .one ".b" }
    config.problem? = none ∧ memberOfThis.isDotted = false ∧ memberOfThis.dottedName.value = ".b" ∧
      ¬ IsScanned config.functionNames.toList memberOfThis [string "x"] none ∧
      ((Source.parse "this.a.b(\"x\")" "test.js" .javascript).toOption.map
        (Catalog.ofSource config.functionNames.toList)) = some ⟨[{ singular := "x" }]⟩ := by
  refine ⟨by decide +kernel, rfl, by decide, ?_, by decide +kernel⟩
  rw [isScanned_iff]
  decide

end StringHarvest.Node
