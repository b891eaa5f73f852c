import Mathlib.Data.Finset.Card
import Mathlib.Data.List.Nodup
import StringHarvest.Message.Options

/-!
# What the options of a call hold

The properties of an object literal are read one after the other, each into the options that the
ones before it left. This file says what the options hold in the end, without following that loop.

**Main theorem** (`ofNode_holds_last_texts`): under a name stands the text of the last property that
`Puts` one there. A property puts its text under its name if neither of them is empty, so a later
property without a text changes nothing, and no text ever stands under the empty name. The number of
entries is the number of names that have a text. What is no property does not count, and two
neighbours with different names may change places.

Entries are kept in the order of their first insertion, which a swap can change;
`Alike` compares what options answer.
-/

namespace StringHarvest

namespace Node

/-- What stands in an object literal. In other nodes there is nothing to be read. -/
def members : Node → List Node
  | .object properties => properties
  | _ => []

/-- An object is told by its members. -/
theorem eq_object_members {node : Node} (h : node.isObject = true) :
    node = .object node.members := by
  cases node with
  | object properties => rfl
  | _ => cases h

/-- The key and the value of a property. -/
def keyAndValue? : Node → Option (Node × Node)
  | .property key value => some (key, value)
  | _ => none

/-- A node is a property that puts a text under a name. -/
structure Puts (node : Node) (name text : String) : Prop where
  /-- The key spells the name and the value spells the text. -/
  spelled : ∃ key value, node = .property key value ∧ Options.nameOf key = name ∧
    value.constantText.value = text
  /-- There is a text. -/
  text_ne : text ≠ ""

/-- A text is the last one that is put under a name. -/
def LastUnder (nodes : List Node) (name text : String) : Prop :=
  ∃ before node after, nodes = before ++ node :: after ∧ node.Puts name text ∧
    ∀ later ∈ after, ∀ other, ¬ later.Puts name other

end Node

namespace Options

open Node

/-! ### Entries -/

/-- Options that answer alike: the same texts under the same names, and as many of them. -/
structure Alike (options other : Options) : Prop where
  get? : ∀ name, options.get? name = other.get? name
  size : options.size = other.size

/-- The first entry is found under its name. -/
theorem lookup_entry (entry : String × String) (rest : List (String × String)) (asked : String) :
    (entry :: rest).lookup asked = if asked = entry.1 then some entry.2 else rest.lookup asked := by
  rw [List.lookup_cons]
  by_cases h : asked = entry.1
  · simp [h]
  · have hbeq : (asked == entry.1) = false := by simpa using h
    simp [h, hbeq]

/-- After a text was put, it is found under its name, and the other ones as before. -/
theorem lookup_put (name text : String) (entries : List (String × String)) (asked : String) :
    (put name text entries).lookup asked =
      if asked = name then some text else entries.lookup asked := by
  induction entries with
  | nil => exact lookup_entry (name, text) [] asked
  | cons entry rest ih =>
      by_cases hentry : entry.1 = name
      · have hput : put name text (entry :: rest) = (name, text) :: rest := by simp [put, hentry]
        rw [hput, lookup_entry, lookup_entry, hentry]
        by_cases h : asked = name <;> simp [h]
      · have hput : put name text (entry :: rest) = entry :: put name text rest := by
          simp [put, hentry]
        rw [hput, lookup_entry, lookup_entry, ih]
        by_cases h : asked = entry.1
        · simp [h, hentry]
        · simp [h]

/-- So it is in the options. -/
@[simp] theorem get?_insert (options : Options) (name text asked : String) :
    (options.insert name text).get? asked =
      if asked = name then some text else options.get? asked :=
  lookup_put name text options.entries asked

/-- The names that have a text. -/
def names (options : Options) : List String := options.entries.map Prod.fst

/-- A name is one of the options if a text is found under it. -/
theorem mem_names_iff {options : Options} {name : String} :
    name ∈ options.names ↔ (options.get? name).isSome := by
  unfold names get?
  induction options.entries with
  | nil => simp
  | cons entry rest ih =>
      rw [List.map_cons, List.mem_cons, lookup_entry, ih]
      by_cases h : name = entry.1 <;> simp [h]

/-- A new name is put last. -/
theorem names_put_of_notMem {name text : String} {entries : List (String × String)}
    (h : name ∉ entries.map Prod.fst) :
    (put name text entries).map Prod.fst = entries.map Prod.fst ++ [name] := by
  induction entries with
  | nil => rfl
  | cons entry rest ih =>
      rw [List.map_cons, List.mem_cons, not_or] at h
      have hentry : (entry.1 == name) = false := by simpa using Ne.symm h.1
      simp [put, hentry, ih h.2]

/-- A known name stays in its place. -/
theorem names_put_of_mem {name text : String} {entries : List (String × String)}
    (h : name ∈ entries.map Prod.fst) :
    (put name text entries).map Prod.fst = entries.map Prod.fst := by
  induction entries with
  | nil => exact absurd h List.not_mem_nil
  | cons entry rest ih =>
      by_cases hentry : entry.1 = name
      · simp [put, hentry]
      · have hrest : name ∈ rest.map Prod.fst := by
          rw [List.map_cons, List.mem_cons] at h
          exact h.resolve_left (Ne.symm hentry)
        simp [put, hentry, ih hrest]

/-- **No name twice**: an insertion keeps the names different from each other. -/
theorem nodup_names_insert {options : Options} (h : options.names.Nodup) (name text : String) :
    (options.insert name text).names.Nodup := by
  unfold names insert at *
  by_cases hname : name ∈ options.entries.map Prod.fst
  · rwa [names_put_of_mem hname]
  · rw [names_put_of_notMem hname, ← List.concat_eq_append]
    exact List.Nodup.concat hname h

/-- Options with as many entries as names are alike if they hold the same texts. -/
theorem alike_of_get? {options other : Options} (h : options.names.Nodup)
    (hother : other.names.Nodup) (hget : ∀ name, options.get? name = other.get? name) :
    options.Alike other := by
  refine ⟨hget, ?_⟩
  have hperm : options.names.Perm other.names := by
    rw [List.perm_ext_iff_of_nodup h hother]
    intro name
    rw [mem_names_iff, mem_names_iff, hget]
  have hlength := hperm.length_eq
  unfold names at hlength
  rwa [List.length_map, List.length_map] at hlength

/-! ### One property -/

/-- The text that a node puts under a name. -/
def textUnder? (name : String) : Node → Option String
  | .property key value =>
    if name ≠ "" ∧ nameOf key = name ∧ value.constantText.value ≠ "" then
      some value.constantText.value
    else none
  | _ => none

/-- A node has a text under a name if it puts it there and the name is not empty. -/
theorem textUnder?_eq_some_iff {name text : String} {node : Node} :
    textUnder? name node = some text ↔ name ≠ "" ∧ node.Puts name text := by
  constructor
  · intro h
    cases node with
    | property key value =>
        simp only [textUnder?, Option.ite_none_right_eq_some, Option.some.injEq] at h
        obtain ⟨⟨hname, hkey, hvalue⟩, htext⟩ := h
        exact ⟨hname, ⟨key, value, rfl, hkey, htext⟩, htext ▸ hvalue⟩
    | _ => cases h
  · rintro ⟨hname, ⟨key, value, rfl, hkey, htext⟩, hne⟩
    subst htext
    exact if_pos ⟨hname, hkey, hne⟩

/-- Otherwise it has none. -/
theorem textUnder?_eq_none_iff {name : String} {node : Node} :
    textUnder? name node = none ↔ name = "" ∨ ∀ text, ¬ node.Puts name text := by
  rw [Option.eq_none_iff_forall_ne_some]
  simp only [ne_eq, textUnder?_eq_some_iff, not_and]
  by_cases hname : name = "" <;> simp [hname]

/-- **One step of the loop**: a property decides about its name and about no other. -/
theorem get?_addProperty (options : Options) (node : Node) (name : String) :
    (options.addProperty node).value.get? name = (textUnder? name node).or (options.get? name) := by
  cases node with
  | property key value =>
      rw [addProperty, Traced.value_bind, Traced.value_pure, textUnder?]
      by_cases hput : nameOf key ≠ "" ∧ value.constantText.value ≠ ""
      · rw [if_pos (by simpa using hput), get?_insert]
        by_cases hname : name = nameOf key
        · rw [if_pos hname, if_pos ⟨hname ▸ hput.1, hname.symm, hput.2⟩, Option.some_or]
        · rw [if_neg hname, if_neg fun h => hname h.2.1.symm, Option.none_or]
      · rw [if_neg (by simpa using hput), if_neg, Option.none_or]
        rintro ⟨hname, rfl, htext⟩
        exact hput ⟨hname, htext⟩
  | _ => rfl

/-- Reading one property leaves the names distinct. -/
theorem nodup_names_addProperty {options : Options} (h : options.names.Nodup) (node : Node) :
    (options.addProperty node).value.names.Nodup := by
  cases node with
  | property key value =>
      rw [addProperty, Traced.value_bind, Traced.value_pure]
      split
      · exact nodup_names_insert h _ _
      · exact h
  | _ => exact h

/-! ### All properties -/

/-- The last text that is put under a name. -/
def lastText? (nodes : List Node) (name : String) : Option String :=
  nodes.reverse.findSome? (textUnder? name)

/-- Without nodes there is no text. -/
@[simp] theorem lastText?_nil (name : String) : lastText? [] name = none := rfl

/-- Later nodes count before earlier ones. -/
theorem lastText?_append (nodes later : List Node) (name : String) :
    lastText? (nodes ++ later) name = (lastText? later name).or (lastText? nodes name) := by
  simp [lastText?, List.findSome?_append]

/-- The first node counts last. -/
theorem lastText?_cons (node : Node) (later : List Node) (name : String) :
    lastText? (node :: later) name = (lastText? later name).or (textUnder? name node) := by
  rw [← List.singleton_append, lastText?_append]
  cases h : textUnder? name node <;> simp [lastText?, h]

/-- The last text is that of the last node that puts one. -/
theorem lastText?_eq_some_iff {nodes : List Node} {name text : String} :
    lastText? nodes name = some text ↔ name ≠ "" ∧ LastUnder nodes name text := by
  unfold lastText? LastUnder
  rw [List.findSome?_eq_some_iff]
  constructor
  · rintro ⟨after, node, before, hnodes, hnode, hafter⟩
    obtain ⟨hname, hputs⟩ := textUnder?_eq_some_iff.mp hnode
    refine ⟨hname, before.reverse, node, after.reverse, ?_, hputs, ?_⟩
    · simpa using congrArg List.reverse hnodes
    · intro later hlater
      exact (textUnder?_eq_none_iff.mp (hafter later (List.mem_reverse.mp hlater))).resolve_left
        hname
  · rintro ⟨hname, before, node, after, rfl, hputs, hafter⟩
    refine ⟨after.reverse, node, before.reverse, by simp, ?_, ?_⟩
    · exact textUnder?_eq_some_iff.mpr ⟨hname, hputs⟩
    · intro later hlater
      exact textUnder?_eq_none_iff.mpr (.inr (hafter later (List.mem_reverse.mp hlater)))

/-- An empty text is put nowhere. -/
theorem lastText?_ne_empty (nodes : List Node) (name : String) :
    lastText? nodes name ≠ some "" := by
  intro h
  obtain ⟨-, before, node, after, -, hputs, -⟩ := lastText?_eq_some_iff.mp h
  exact hputs.text_ne rfl

/-- There is none if no node puts one. -/
theorem lastText?_eq_none_iff {nodes : List Node} {name : String} :
    lastText? nodes name = none ↔ name = "" ∨ ∀ node ∈ nodes, ∀ text, ¬ node.Puts name text := by
  unfold lastText?
  simp only [List.findSome?_eq_none_iff, List.mem_reverse, textUnder?_eq_none_iff]
  by_cases hname : name = "" <;> simp [hname]

/-- Only the properties count, by their keys and values. -/
theorem lastText?_properties (nodes : List Node) (name : String) :
    lastText? nodes name =
      lastText? ((nodes.filterMap keyAndValue?).map fun (key, value) => .property key value)
        name := by
  induction nodes with
  | nil => rfl
  | cons node rest ih =>
      rw [lastText?_cons, ih]
      cases node with
      | property key value => exact (lastText?_cons _ _ name).symm
      | _ => exact Option.or_none

/-- Two neighbours that put texts under different names may change places. -/
theorem lastText?_swap {first second : Node} {name : String}
    (h : textUnder? name first = none ∨ textUnder? name second = none) (before after : List Node) :
    lastText? (before ++ first :: second :: after) name =
      lastText? (before ++ second :: first :: after) name := by
  simp only [lastText?_append, lastText?_cons, Option.or_assoc]
  rcases h with h | h <;> simp [h]

/-- A property under another name has none. -/
theorem textUnder?_of_nameOf_ne {key : Node} {name : String} (h : nameOf key ≠ name)
    (value : Node) : textUnder? name (.property key value) = none := by
  rw [textUnder?, if_neg]
  intro hput
  exact h hput.2.1

/-- **The whole loop**: the last text that is put under a name, or the one
that stood there before. -/
theorem get?_addAll (options : Options) (nodes : List Node) (name : String) :
    (options.addAll nodes).value.get? name = (lastText? nodes name).or (options.get? name) := by
  induction nodes generalizing options with
  | nil => rfl
  | cons node rest ih =>
      rw [addAll, Traced.value_bind, ih, get?_addProperty, lastText?_cons, Option.or_assoc]

/-- Reading all properties leaves the names distinct. -/
theorem nodup_names_addAll {options : Options} (h : options.names.Nodup) (nodes : List Node) :
    (options.addAll nodes).value.names.Nodup := by
  induction nodes generalizing options with
  | nil => exact h
  | cons node rest ih =>
      rw [addAll, Traced.value_bind]
      exact ih (nodup_names_addProperty h node)

/-- What the options of a node hold is the last text under the name. -/
theorem get?_ofNode (node : Node) (name : String) :
    (ofNode node).value.get? name = lastText? node.members name := by
  cases node with
  | object properties =>
      have h := get?_addAll {} properties name
      rwa [show ({} : Options).get? name = none from rfl, Option.or_none] at h
  | _ => rfl

/-- The names of the options are distinct. -/
theorem nodup_names_ofNode (node : Node) : (ofNode node).value.names.Nodup := by
  cases node with
  | object properties =>
      have hnone : ({} : Options).names.Nodup := List.nodup_nil
      exact nodup_names_addAll hnone properties
  | _ => exact List.nodup_nil

/-- Nodes give options that are alike if the last texts under all names are the same. -/
theorem alike_ofNode {node other : Node}
    (h : ∀ name, lastText? node.members name = lastText? other.members name) :
    (ofNode node).value.Alike (ofNode other).value := by
  refine alike_of_get? (nodup_names_ofNode node) (nodup_names_ofNode other) fun name => ?_
  rw [get?_ofNode, get?_ofNode, h]

/-- **What options hold.** Under a name stands the last text that a property of the object literal
puts there, and nothing if none does; there is never a text under the empty name, and a node that is
no object literal gives no options. The entries are as many as the names that have a text. Hence
options that are read from the same properties are alike, whatever else stands among them; and so
are options if two properties next to each other with different names are swapped. -/
theorem ofNode_holds_last_texts (node : Node) :
    (∀ name text, (ofNode node).value.get? name = some text ↔
      name ≠ "" ∧ LastUnder node.members name text) ∧
    (∀ name, (ofNode node).value.get? name = none ↔
      name = "" ∨ ∀ member ∈ node.members, ∀ text, ¬ member.Puts name text) ∧
    (node.isObject = false → (ofNode node).value = {}) ∧
    (∃ names : Finset String, names.card = (ofNode node).value.size ∧
      ∀ name, name ∈ names ↔ ((ofNode node).value.get? name).isSome) ∧
    (∀ other : Node,
      node.members.filterMap keyAndValue? = other.members.filterMap keyAndValue? →
      (ofNode node).value.Alike (ofNode other).value) ∧
    (∀ before after key value key' value',
      node = .object (before ++ .property key value :: .property key' value' :: after) →
      nameOf key ≠ nameOf key' →
      (ofNode node).value.Alike
        (ofNode
          (.object (before ++ .property key' value' :: .property key value :: after))).value) := by
  refine ⟨?_, ?_, ?_, ?_, ?_, ?_⟩
  · intro name text
    rw [get?_ofNode, lastText?_eq_some_iff]
  · intro name
    rw [get?_ofNode, lastText?_eq_none_iff]
  · intro hobject
    cases node with
    | object properties => cases hobject
    | _ => rfl
  · refine ⟨⟨(ofNode node).value.names, nodup_names_ofNode node⟩, ?_, fun name => mem_names_iff⟩
    exact List.length_map Prod.fst
  · intro other hsame
    refine alike_ofNode fun name => ?_
    rw [lastText?_properties, hsame, ← lastText?_properties]
  · rintro before after key value key' value' rfl hdiffer
    refine alike_ofNode fun name => lastText?_swap ?_ before after
    by_cases hkey : nameOf key = name
    · have hother : nameOf key' ≠ name := fun h => hdiffer (hkey.trans h.symm)
      exact .inr (textUnder?_of_nameOf_ne hother value')
    · exact .inl (textUnder?_of_nameOf_ne hkey value)

/-- In `{1: "a", "1": f, context: "m", ...rest}` the text under `1` is `a`, although
the property behind it has the same name; the spread does not count, and the last
two properties may be swapped. -/
theorem ofNode_holds_last_texts_repeated :
    let one : Node := .property (.literal (.number (.ofNat 1))) (string "a")
    let again : Node := .property (string "1") (.identifier "f")
    let context : Node := .property (.identifier "context") (string "m")
    let spread : Node := withArgument "SpreadElement" (some (.identifier "rest"))
    let given := (ofNode (.object [one, again, context, spread])).value
    given.get? "1" = some "a" ∧ LastUnder [one, again, context, spread] "1" "a" ∧ given.size = 2 ∧
      given.Alike (ofNode (.object [spread, one, again, context])).value ∧
      given.Alike (ofNode (.object [one, context, again, spread])).value := by
  intro one again context spread given
  obtain ⟨hlast, -, -, -, hproperties, hswap⟩ :=
    ofNode_holds_last_texts (.object [one, again, context, spread])
  have hget : given.get? "1" = some "a" := by decide +kernel
  refine ⟨hget, ((hlast "1" "a").mp hget).2, by decide +kernel, hproperties _ rfl, ?_⟩
  exact hswap [one] [spread] _ _ _ _ rfl (by decide)

end Options

end StringHarvest
