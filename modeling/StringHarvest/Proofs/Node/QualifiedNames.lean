import Mathlib.Data.List.Infix
import StringHarvest.Proofs.Node.DottedNames
import StringHarvest.Proofs.Node.MessageCalls

/-!
# Qualified names

A qualified name is a sequence of plain names, which are not empty and hold no dot. It is
written with dots between them, and it stands in a tree as a chain of members over an
identifier (`QualifiedName.node`).

**Main theorem** (`dottedName_recognises`): in a tree whose identifiers are plain names, a
node reads as a qualified name exactly if it is the chain of that name. So no two chains
read alike, and where all message functions have qualified names, the callees of message
calls are exactly their chains.

A node that is no dotted name reads as nothing or as a text that starts with a dot
(`value_dottedName_of_not_isDotted`), and such a text is no qualified name; a text without plain
segments would be another matter, since it could be cut at its dots in more than one way.
-/

namespace StringHarvest

/-- A name that is not empty and holds no dot. -/
structure IsPlainName (name : String) : Prop where
  ne_empty : name ≠ ""
  dot_notMem : '.' ∉ name.toList

/-- A sequence of plain names. -/
@[ext] structure QualifiedName where
  /-- The name at the start. -/
  first : String
  /-- The names behind it. -/
  rest : List String
  /-- All of them are plain. -/
  plain : ∀ segment ∈ first :: rest, IsPlainName segment

namespace QualifiedName

/-- The names with dots between them. -/
def text (name : QualifiedName) : String := ".".intercalate (name.first :: name.rest)

/-- The chain of members over an identifier. -/
def chain (first : String) (rest : List String) : Node :=
  rest.foldl (fun owner last => .member owner (.identifier last) false) (.identifier first)

/-- The chain of a qualified name. -/
def node (name : QualifiedName) : Node := chain name.first name.rest

/-- A longer chain is a member of the shorter one. -/
theorem chain_concat (first : String) (rest : List String) (last : String) :
    chain first (rest ++ [last]) = .member (chain first rest) (.identifier last) false := by
  simp [chain, List.foldl_append]

/-- A chain of names is one of dots. -/
theorem isDotted_chain (first : String) (rest : List String) :
    (chain first rest).isDotted = true := by
  induction rest using List.reverseRecOn with
  | nil => rfl
  | append_singleton rest last ih =>
      rw [chain_concat, Node.isDotted]
      exact ih

/-- **The text of a qualified name tells its parts**: they are what stands between the dots. -/
theorem text_injective : Function.Injective text := by
  intro name other h
  have hpieces (name : QualifiedName) :
      name.text.toList.splitOn '.' = (name.first :: name.rest).map String.toList := by
    have hdots : ∀ piece ∈ (name.first :: name.rest).map String.toList, '.' ∉ piece := by
      intro piece hpiece
      obtain ⟨segment, hsegment, rfl⟩ := List.mem_map.mp hpiece
      exact (name.plain segment hsegment).dot_notMem
    rw [text, String.toList_intercalate]
    exact List.splitOn_intercalate '.' hdots (List.cons_ne_nil _ _)
  have hmap : (name.first :: name.rest).map String.toList =
      (other.first :: other.rest).map String.toList := by
    rw [← hpieces, ← hpieces, h]
  have hinjective : Function.Injective String.toList := fun _ _ => String.toList_injective
  have hsegments := List.map_injective_iff.mpr hinjective hmap
  obtain ⟨hfirst, hrest⟩ := List.cons.inj hsegments
  exact QualifiedName.ext hfirst hrest

/-- A qualified name is not empty. -/
theorem text_ne_empty (name : QualifiedName) : name.text ≠ "" := by
  intro h
  have hfirst := (name.plain name.first List.mem_cons_self).ne_empty
  have hlist := congrArg String.toList h
  rw [text, String.toList_intercalate] at hlist
  rcases hrest : name.rest with _ | ⟨second, rest⟩ <;> simp_all [List.intercalate]

/-- A qualified name does not start with a dot. -/
theorem text_startsWith_dot (name : QualifiedName) : name.text.startsWith "." = false := by
  have hplain := name.plain name.first List.mem_cons_self
  rcases hfirst : name.first.toList with _ | ⟨c, cs⟩
  · exact absurd (String.toList_eq_nil_iff.mp hfirst) hplain.ne_empty
  · have hc : c ≠ '.' := by
      intro heq
      apply hplain.dot_notMem
      rw [hfirst, heq]
      exact List.mem_cons_self
    rw [Bool.eq_false_iff, ne_eq, String.startsWith_string_iff, text, String.toList_intercalate]
    rcases name.rest with _ | ⟨second, rest⟩ <;> simp [hfirst, List.intercalate, Ne.symm hc]

end QualifiedName

namespace Node

open QualifiedName

/-- All identifiers of a tree are plain names. -/
def NamesPlain (root : Node) : Prop :=
  ∀ position name, root.at? position = some (.identifier name) → IsPlainName name

/-- The identifiers of a tree are those of its children and, if it is one, the node itself. -/
theorem namesPlain_iff {node : Node} :
    node.NamesPlain ↔
      (∀ name, node = .identifier name → IsPlainName name) ∧ ∀ x ∈ node.slots, x.2.NamesPlain := by
  constructor
  · intro h
    refine ⟨fun name hnode => h [] name (congrArg some hnode), fun x hx position name hname => ?_⟩
    have hchild : node.child? x.1 = some x.2 := child?_eq_some_iff.mpr hx
    apply h (x.1 :: position) name
    rw [at?_cons, hchild]
    exact hname
  · rintro ⟨hself, hslots⟩ position name hname
    cases position with
    | nil => exact hself name (Option.some.inj hname)
    | cons slot rest =>
        rw [at?_cons, Option.bind_eq_some_iff] at hname
        obtain ⟨child, hchild, hname⟩ := hname
        exact hslots (slot, child) (child?_eq_some_iff.mp hchild) rest name hname

/-- A member of a dotted name that is named by an identifier reads as it is written. -/
theorem value_dottedName_named {owner : Node} (h : owner.isDotted = true) (last : String) :
    (member owner (.identifier last) false).dottedName.value =
      owner.dottedName.value ++ "." ++ last := by
  cases owner with
  | identifier first => rfl
  | member object part computed => rfl
  | _ => cases h

/-- The name of a chain is its names with dots between them. -/
theorem value_dottedName_chain (first : String) (rest : List String) :
    (chain first rest).dottedName.value = ".".intercalate (first :: rest) := by
  induction rest using List.reverseRecOn with
  | nil => rfl
  | append_singleton rest last ih =>
      rw [chain_concat, value_dottedName_named (isDotted_chain first rest), ih, ← List.cons_append,
        String.intercalate_append_of_ne_nil (List.cons_ne_nil _ _) (List.cons_ne_nil _ _),
        String.intercalate_singleton]

/-- A dotted name with plain identifiers is the chain of a qualified name. -/
theorem NamesPlain.exists_eq_node {node : Node} (h : node.NamesPlain)
    (hdotted : node.isDotted = true) : ∃ name : QualifiedName, node = name.node := by
  fun_induction isDotted node with
  | case1 first =>
      have hfirst : IsPlainName first := h [] first rfl
      exact ⟨⟨first, [], by simpa using hfirst⟩, rfl⟩
  | case2 owner last ih =>
      have howner : owner.NamesPlain :=
        fun position name hname => h (.memberObject :: position) name hname
      have hlast : IsPlainName last := h [.memberProperty] last rfl
      obtain ⟨name, rfl⟩ := ih howner hdotted
      have hplain : ∀ segment ∈ name.first :: (name.rest ++ [last]), IsPlainName segment := by
        intro segment hsegment
        rw [← List.cons_append, List.mem_append, List.mem_singleton] at hsegment
        rcases hsegment with hsegment | rfl
        · exact name.plain segment hsegment
        · exact hlast
      exact ⟨⟨name.first, name.rest ++ [last], hplain⟩, (chain_concat _ _ _).symm⟩
  | case3 => cases hdotted

/-- The chain of a qualified name has plain identifiers. -/
theorem namesPlain_chain {first : String} {rest : List String}
    (h : ∀ segment ∈ first :: rest, IsPlainName segment) : (chain first rest).NamesPlain := by
  have hidentifier {name : String} (hname : IsPlainName name) : (identifier name).NamesPlain :=
    namesPlain_iff.mpr ⟨fun other heq => identifier.inj heq ▸ hname, by simp [slots]⟩
  induction rest using List.reverseRecOn with
  | nil => exact hidentifier (h first List.mem_cons_self)
  | append_singleton rest last ih =>
      rw [chain_concat, namesPlain_iff]
      have howner := ih fun segment hsegment => h segment (List.mem_append_left [last] hsegment)
      have hlast := hidentifier (h last (by simp))
      exact ⟨by simp, by simpa [slots] using ⟨howner, hlast⟩⟩

/-- **A node that is no dotted name never reads as a qualified name.** -/
theorem value_dottedName_ne_text {node : Node} (h : node.isDotted = false) (name : QualifiedName) :
    node.dottedName.value ≠ name.text := by
  rw [value_dottedName_of_not_isDotted h]
  intro heq
  by_cases hdangling : node.dangling = []
  · rw [hdangling, dotted_nil] at heq
    exact name.text_ne_empty heq.symm
  · have hdot := startsWith_dotted hdangling
    rw [heq, name.text_startsWith_dot] at hdot
    cases hdot

/-- A node reads as a qualified name exactly if it is the chain of that name. -/
theorem NamesPlain.value_dottedName_eq_text_iff {node : Node} (h : node.NamesPlain)
    (name : QualifiedName) : node.dottedName.value = name.text ↔ node = name.node := by
  constructor
  · intro hvalue
    by_cases hdotted : node.isDotted = true
    · obtain ⟨other, rfl⟩ := h.exists_eq_node hdotted
      rw [node, value_dottedName_chain] at hvalue
      rw [text_injective (hvalue : other.text = name.text)]
    · exact absurd hvalue (value_dottedName_ne_text (by simpa using hdotted) name)
  · rintro rfl
    exact value_dottedName_chain name.first name.rest

/-- **Qualified names are recognised exactly.** In a tree with plain identifiers a node reads as a
qualified name exactly if it is the chain of members that spells the name. So two dotted names that
read alike are the same, and where all message functions have qualified names a call is a message
call exactly if its callee is the chain of one of them. -/
theorem dottedName_recognises {node : Node} (h : node.NamesPlain) :
    (∀ name : QualifiedName, node.dottedName.value = name.text ↔ node = name.node) ∧
    (∀ other : Node, other.NamesPlain → node.isDotted = true → other.isDotted = true →
      node.dottedName.value = other.dottedName.value → node = other) ∧
    (∀ names : List String, (∀ name ∈ names, ∃ spelled : QualifiedName, name = spelled.text) →
      ∀ arguments location,
        ((call node arguments location).messageCall? names = some ⟨arguments, location⟩ ↔
          ∃ name : QualifiedName, name.text ∈ names ∧ node = name.node)) := by
  refine ⟨h.value_dottedName_eq_text_iff, ?_, ?_⟩
  · intro other hother hnode hdotted hvalue
    obtain ⟨name, rfl⟩ := hother.exists_eq_node hdotted
    rw [(hother.value_dottedName_eq_text_iff name).mpr rfl] at hvalue
    exact (h.value_dottedName_eq_text_iff name).mp hvalue
  · intro names hnames arguments location
    have hcall : (call node arguments location).messageCall? names = some ⟨arguments, location⟩ ↔
        node.dottedName.value ≠ "" ∧ node.dottedName.value ∈ names := by
      simp [messageCall?, isMessageFunction]
    rw [hcall]
    constructor
    · rintro ⟨-, hmem⟩
      obtain ⟨name, hname⟩ := hnames _ hmem
      exact ⟨name, hname ▸ hmem, (h.value_dottedName_eq_text_iff name).mp hname⟩
    · rintro ⟨name, hmem, hnode⟩
      rw [(h.value_dottedName_eq_text_iff name).mpr hnode]
      exact ⟨name.text_ne_empty, hmem⟩

/-- The callee of `i18n.tr()` is the chain of `i18n.tr`, which is the message function. -/
theorem dottedName_recognises_namespaced :
    let callee : Node := .member (.identifier "i18n") (.identifier "tr") false
    callee.NamesPlain ∧ callee.dottedName.value = "i18n.tr" ∧
      (call callee [] none).messageCall? ["i18n.tr"] = some ⟨[], none⟩ := by
  intro callee
  have hplain : ∀ segment ∈ ["i18n", "tr"], IsPlainName segment := by
    intro segment hsegment
    constructor <;> revert hsegment segment <;> decide
  let name : QualifiedName := ⟨"i18n", ["tr"], hplain⟩
  have hnames : callee.NamesPlain := namesPlain_chain hplain
  obtain ⟨hvalue, -, hcalls⟩ := dottedName_recognises hnames
  refine ⟨hnames, (hvalue name).mpr rfl, (hcalls _ ?_ [] none).mpr ⟨name, ?_, rfl⟩⟩
  · intro text htext
    exact ⟨name, List.mem_singleton.mp htext⟩
  · exact List.mem_singleton_self _

end Node

end StringHarvest
