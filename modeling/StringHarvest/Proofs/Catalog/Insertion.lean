import Mathlib.Data.Finset.Card
import StringHarvest.Catalog.Basic

/-!
# Insertion into catalogs

A message is known by its id, the pair of its context and its singular. `Catalog.put` finds the id
of a message in a list and overwrites there, or appends. This file says once what that does to the
list of ids and to the messages, so that no later proof opens `put` again.

**Main theorem** (`merge_ofList`): merging the catalog of a list is the same as inserting the list
itself, `c.merge (ofList l) = c.insertAll l`. The left side meets only one message for each id, in
the place of the first and with the content of the last; the right side meets all of them. The two
agree because an insertion at an id that is already there commutes with every insertion at another
id (`put_comm`), so the overwriting insertions of `l` can be moved forward to the first one with
their id (`insertAll_put`).

From it come the laws of merging (`merge_laws`): catalogs of lists are a monoid under `merge` in
which `ofList` turns `++` into `merge` and a catalog that is merged twice counts once.

The number of messages of `ofList l` is the number of different ids in `l` (`size_ofList`).
-/

namespace StringHarvest.Catalog

/-- The ids of messages in their order. -/
def idsOf (messages : List Message) : List Message.Id := messages.map Message.id

/-- No messages have no ids. -/
@[simp] theorem idsOf_nil : idsOf [] = [] := rfl

/-- The first message has the first id. -/
@[simp] theorem idsOf_cons (m : Message) (l : List Message) : idsOf (m :: l) = m.id :: idsOf l :=
  rfl

/-- The ids of two lists stand one behind the other. -/
@[simp] theorem idsOf_append (l l' : List Message) : idsOf (l ++ l') = idsOf l ++ idsOf l' :=
  List.map_append

/-- The id of a message of a list is an id of the list. -/
theorem id_mem_idsOf {m : Message} {l : List Message} (h : m ∈ l) : m.id ∈ idsOf l :=
  List.mem_map_of_mem h

/-- An id of a list is the id of one of its messages. -/
theorem mem_idsOf {k : Message.Id} {l : List Message} : k ∈ idsOf l ↔ ∃ m ∈ l, m.id = k :=
  List.mem_map

/-! ### One insertion -/

section put

variable {m a : Message} {l : List Message}

/-- In an empty list, a message takes the only place. -/
@[simp] theorem put_nil (m : Message) : put m [] = [m] := rfl

/-- A message replaces the first one if that has its id. -/
theorem put_cons_of_eq (h : a.id = m.id) (l : List Message) : put m (a :: l) = m :: l := by
  unfold put
  rw [if_pos (by simpa using h)]

/-- Otherwise it is put among the others. -/
theorem put_cons_of_ne (h : a.id ≠ m.id) (l : List Message) :
    put m (a :: l) = a :: put m l := by
  conv_lhs => unfold put
  rw [if_neg (by simpa using h)]

/-- A message with a new id goes to the end. -/
theorem put_of_notMem (h : m.id ∉ idsOf l) : put m l = l ++ [m] := by
  induction l with
  | nil => rfl
  | cons a l ih =>
      simp only [idsOf_cons, List.mem_cons, not_or] at h
      rw [put_cons_of_ne (Ne.symm h.1), ih h.2, List.cons_append]

/-- A message with a known id moves nothing: the ids stay as they are. -/
theorem idsOf_put_of_mem (h : m.id ∈ idsOf l) : idsOf (put m l) = idsOf l := by
  induction l with
  | nil => simp at h
  | cons a l ih =>
      by_cases ha : a.id = m.id
      · rw [put_cons_of_eq ha, idsOf_cons, idsOf_cons, ha]
      · have hl : m.id ∈ idsOf l := by
          simpa [Ne.symm ha] using h
        rw [put_cons_of_ne ha, idsOf_cons, idsOf_cons, ih hl]

/-- A message with a new id adds its id at the end. -/
theorem idsOf_put_of_notMem (h : m.id ∉ idsOf l) : idsOf (put m l) = idsOf l ++ [m.id] := by
  rw [put_of_notMem h, idsOf_append, idsOf_cons, idsOf_nil]

/-- To put a message adds its id and no other. -/
theorem mem_idsOf_put (k : Message.Id) : k ∈ idsOf (put m l) ↔ k = m.id ∨ k ∈ idsOf l := by
  by_cases h : m.id ∈ idsOf l
  · rw [idsOf_put_of_mem h]
    constructor
    · exact Or.inr
    · rintro (rfl | hk)
      · exact h
      · exact hk
  · rw [idsOf_put_of_notMem h, List.mem_append, List.mem_singleton, or_comm]

/-- Insertion never makes two entries with one id. -/
theorem nodup_put (h : (idsOf l).Nodup) : (idsOf (put m l)).Nodup := by
  by_cases hm : m.id ∈ idsOf l
  · rwa [idsOf_put_of_mem hm]
  · rw [idsOf_put_of_notMem hm]
    exact List.nodup_append.mpr ⟨h, List.nodup_singleton _, by
      intro k hk k' hk' hkk
      rw [List.mem_singleton.mp hk'] at hkk
      exact hm (hkk ▸ hk)⟩

/-- After an insertion there are the new message and the old messages with other ids. -/
theorem mem_put (h : (idsOf l).Nodup) {x : Message} :
    x ∈ put m l ↔ x = m ∨ x ∈ l ∧ x.id ≠ m.id := by
  induction l with
  | nil => simp
  | cons a l ih =>
      rw [idsOf_cons, List.nodup_cons] at h
      by_cases ha : a.id = m.id
      · rw [put_cons_of_eq ha, List.mem_cons, List.mem_cons]
        have hx : x ∈ l → x.id ≠ m.id := fun hx hxm => h.1 (ha ▸ hxm ▸ id_mem_idsOf hx)
        constructor
        · rintro (rfl | hxl)
          · exact Or.inl rfl
          · exact Or.inr ⟨Or.inr hxl, hx hxl⟩
        · rintro (rfl | ⟨rfl | hxl, hne⟩)
          · exact Or.inl rfl
          · exact absurd ha hne
          · exact Or.inr hxl
      · rw [put_cons_of_ne ha, List.mem_cons, List.mem_cons, ih h.2]
        constructor
        · rintro (rfl | rfl | ⟨hxl, hne⟩)
          · exact Or.inr ⟨Or.inl rfl, ha⟩
          · exact Or.inl rfl
          · exact Or.inr ⟨Or.inr hxl, hne⟩
        · rintro (rfl | ⟨rfl | hxl, hne⟩)
          · exact Or.inr (Or.inl rfl)
          · exact Or.inl rfl
          · exact Or.inr (Or.inr ⟨hxl, hne⟩)

/-- Of two insertions at one id the second decides. -/
theorem put_put_of_eq (h : a.id = m.id) (l : List Message) : put m (put a l) = put m l := by
  induction l with
  | nil => rw [put_nil, put_nil, put_cons_of_eq h]
  | cons b l ih =>
      by_cases hb : b.id = a.id
      · rw [put_cons_of_eq hb, put_cons_of_eq h, put_cons_of_eq (hb.trans h)]
      · have hbm : b.id ≠ m.id := fun hbm => hb (hbm.trans h.symm)
        rw [put_cons_of_ne hb, put_cons_of_ne hbm, put_cons_of_ne hbm, ih]

/-- Overwriting commutes with an insertion at another id. For two new ids this fails, because then
their order tells which came first. -/
theorem put_comm (h : a.id ≠ m.id) (hm : m.id ∈ idsOf l) :
    put m (put a l) = put a (put m l) := by
  induction l with
  | nil => simp at hm
  | cons b l ih =>
      by_cases hbm : b.id = m.id
      · have hba : b.id ≠ a.id := fun hba => h (hba.symm.trans hbm)
        rw [put_cons_of_ne hba, put_cons_of_eq hbm, put_cons_of_eq hbm,
          put_cons_of_ne (Ne.symm h)]
      · have hl : m.id ∈ idsOf l := by
          simpa [Ne.symm hbm] using hm
        by_cases hba : b.id = a.id
        · rw [put_cons_of_eq hba, put_cons_of_ne h, put_cons_of_ne hbm, put_cons_of_eq hba]
        · rw [put_cons_of_ne hba, put_cons_of_ne hbm, put_cons_of_ne hbm, put_cons_of_ne hba,
            ih hl]

end put

/-! ### Many insertions -/

section insertAll

variable (catalog : Catalog) {m : Message} {l : List Message}

/-- The empty catalog has no messages. -/
@[simp] theorem messages_empty : empty.messages = [] := rfl

/-- The messages of a catalog after an insertion. -/
@[simp] theorem messages_insert (m : Message) :
    (catalog.insert m).messages = put m catalog.messages := rfl

/-- Nothing is inserted. -/
@[simp] theorem insertAll_nil : catalog.insertAll [] = catalog := rfl

/-- The first message is inserted first. -/
@[simp] theorem insertAll_cons (m : Message) (l : List Message) :
    catalog.insertAll (m :: l) = (catalog.insert m).insertAll l := rfl

/-- Two lists are inserted one after the other. -/
theorem insertAll_append (l l' : List Message) :
    catalog.insertAll (l ++ l') = (catalog.insertAll l).insertAll l' :=
  List.foldl_append

/-- One message more, from behind. -/
theorem insertAll_concat (l : List Message) (m : Message) :
    catalog.insertAll (l ++ [m]) = (catalog.insertAll l).insert m := by
  rw [insertAll_append, insertAll_cons, insertAll_nil]

/-- The last message of a list is inserted last. -/
theorem ofList_concat (l : List Message) (m : Message) :
    ofList (l ++ [m]) = (ofList l).insert m :=
  insertAll_concat empty l m

/-- The ids after many insertions are the old ones and the inserted ones. -/
theorem mem_idsOf_insertAll (k : Message.Id) (l : List Message) :
    k ∈ idsOf (catalog.insertAll l).messages ↔ k ∈ idsOf catalog.messages ∨ k ∈ idsOf l := by
  induction l using List.reverseRecOn with
  | nil => simp
  | append_singleton l m ih =>
      rw [insertAll_concat, messages_insert, mem_idsOf_put, ih, idsOf_append, List.mem_append,
        idsOf_cons, idsOf_nil, List.mem_singleton]
      tauto

/-- Many insertions never make two entries with one id. -/
theorem nodup_insertAll (h : (idsOf catalog.messages).Nodup) (l : List Message) :
    (idsOf (catalog.insertAll l).messages).Nodup := by
  induction l using List.reverseRecOn with
  | nil => exact h
  | append_singleton l m ih =>
      rw [insertAll_concat, messages_insert]
      exact nodup_put ih

/-- The ids of the catalog of a list are different from each other. -/
theorem nodup_ofList (l : List Message) : (idsOf (ofList l).messages).Nodup :=
  nodup_insertAll empty List.nodup_nil l

/-- The catalog of a list has exactly the ids of the list. -/
theorem mem_idsOf_ofList (k : Message.Id) (l : List Message) :
    k ∈ idsOf (ofList l).messages ↔ k ∈ idsOf l := by
  unfold ofList
  rw [mem_idsOf_insertAll, messages_empty, idsOf_nil]
  simp

/-- An overwriting insertion can be made before all others that do not touch its id. -/
theorem insertAll_insert_of_mem (hm : m.id ∈ idsOf catalog.messages) (hl : m.id ∉ idsOf l) :
    (catalog.insertAll l).insert m = (catalog.insert m).insertAll l := by
  induction l generalizing catalog with
  | nil => rfl
  | cons a l ih =>
      rw [idsOf_cons, List.mem_cons, not_or] at hl
      have ha : m.id ∈ idsOf (catalog.insert a).messages := by
        rw [messages_insert, mem_idsOf_put]
        exact Or.inr hm
      have hcomm : (catalog.insert a).insert m = (catalog.insert m).insert a :=
        congrArg Catalog.mk (put_comm (Ne.symm hl.1) hm)
      rw [insertAll_cons, insertAll_cons, ih _ ha hl.2, hcomm]

/-- Overwriting in the list that is inserted is overwriting afterwards. -/
theorem insertAll_put (h : (idsOf l).Nodup) (m : Message) :
    catalog.insertAll (put m l) = (catalog.insertAll l).insert m := by
  induction l generalizing catalog with
  | nil => rfl
  | cons a l ih =>
      rw [idsOf_cons, List.nodup_cons] at h
      by_cases ha : a.id = m.id
      · have hmem : m.id ∈ idsOf (catalog.insert a).messages := by
          rw [messages_insert, mem_idsOf_put]
          exact Or.inl ha.symm
        have hput : (catalog.insert a).insert m = catalog.insert m :=
          congrArg Catalog.mk (put_put_of_eq ha catalog.messages)
        rw [put_cons_of_eq ha, insertAll_cons, insertAll_cons,
          insertAll_insert_of_mem _ hmem (ha ▸ h.1), hput]
      · rw [put_cons_of_ne ha, insertAll_cons, insertAll_cons, ih _ h.2]

/-- **Merging the catalog of a list is inserting the list.** Nothing is lost by collecting the
messages first: a message that the collection overwrites would be overwritten anyway. -/
theorem merge_ofList (l : List Message) : catalog.merge (ofList l) = catalog.insertAll l := by
  unfold merge
  induction l using List.reverseRecOn with
  | nil => rfl
  | append_singleton l m ih =>
      rw [ofList_concat, messages_insert, insertAll_put catalog (nodup_ofList l), ih,
        insertAll_concat]

/-- Catalogs that are merged one after the other are one catalog of all their messages. -/
theorem foldl_merge_ofList {α : Type} (f : α → List Message) (xs : List α) :
    (xs.map fun x => ofList (f x)).foldl merge catalog = catalog.insertAll (xs.flatMap f) := by
  induction xs generalizing catalog with
  | nil => rfl
  | cons x xs ih =>
      rw [List.map_cons, List.foldl_cons, merge_ofList, ih, List.flatMap_cons, insertAll_append]

/-! ### The algebra of merging -/

/-- The catalog of two lists, one after the other, is the merge of their catalogs. -/
theorem ofList_append (l l' : List Message) : ofList (l ++ l') = (ofList l).merge (ofList l') := by
  rw [merge_ofList]
  exact insertAll_append empty l l'

/-- Merging two catalogs one after the other is merging their merge. -/
theorem merge_assoc_ofList (l l' : List Message) :
    (catalog.merge (ofList l)).merge (ofList l') =
      catalog.merge ((ofList l).merge (ofList l')) := by
  rw [← ofList_append, merge_ofList, merge_ofList, merge_ofList, insertAll_append]

/-- A message that is there already changes nothing. -/
theorem put_of_mem (h : (idsOf l).Nodup) (hm : m ∈ l) : put m l = l := by
  induction l with
  | nil => cases hm
  | cons a l ih =>
      rw [idsOf_cons, List.nodup_cons] at h
      rcases List.mem_cons.mp hm with rfl | hl
      · exact put_cons_of_eq rfl l
      · have ha : a.id ≠ m.id := fun ha => h.1 (ha ▸ id_mem_idsOf hl)
        rw [put_cons_of_ne ha, ih h.2 hl]

/-- To insert messages that a catalog has already is to change nothing. -/
theorem insertAll_of_forall_mem (h : (idsOf catalog.messages).Nodup)
    (hl : ∀ m ∈ l, m ∈ catalog.messages) : catalog.insertAll l = catalog := by
  induction l with
  | nil => rfl
  | cons m l ih =>
      obtain ⟨hm, hl⟩ := List.forall_mem_cons.mp hl
      have hinsert : catalog.insert m = catalog := congrArg Catalog.mk (put_of_mem h hm)
      rw [insertAll_cons, hinsert, ih hl]

/-- A catalog that is merged into itself stays as it is. -/
theorem merge_self_ofList (l : List Message) : (ofList l).merge (ofList l) = ofList l :=
  insertAll_of_forall_mem _ (nodup_ofList l) fun _ hm => hm

/-- **The laws of merging.** Merging the catalogs of two lists gives the catalog of the two lists
one after the other; merging is associative, the empty catalog changes nothing on either side, and
merging a catalog twice is merging it once. The equations are between lists of messages, so the
places agree as well as the contents. The catalog on the left may be any catalog, those that are
merged into it are catalogs of lists. -/
theorem merge_laws (xs ys : List Message) :
    (ofList xs).merge (ofList ys) = ofList (xs ++ ys) ∧
    (catalog.merge (ofList xs)).merge (ofList ys) = catalog.merge ((ofList xs).merge (ofList ys)) ∧
    empty.merge (ofList xs) = ofList xs ∧
    catalog.merge empty = catalog ∧
    (catalog.merge (ofList xs)).merge (ofList xs) = catalog.merge (ofList xs) := by
  refine ⟨(ofList_append xs ys).symm, merge_assoc_ofList catalog xs ys, merge_ofList empty xs, rfl,
    ?_⟩
  rw [merge_assoc_ofList, merge_self_ofList]

/-- Two lists with one id in common, and a third id that is there from the start: the shared message
keeps its place and has its new plural, and merging again changes nothing. -/
theorem merge_laws_overlapping :
    let xs : List Message := [{ singular := "a" }, { singular := "b" }]
    let ys : List Message := [{ singular := "c" }, { singular := "b", plural := "bs" }]
    let start : Catalog := ofList [{ singular := "c", comment := "old" }]
    ((ofList xs).merge (ofList ys)).messages =
        [{ singular := "a" }, { singular := "b", plural := "bs" }, { singular := "c" }] ∧
      (start.merge ((ofList xs).merge (ofList ys))).messages =
        [{ singular := "c" }, { singular := "a" }, { singular := "b", plural := "bs" }] ∧
      ((start.merge (ofList ys)).merge (ofList ys)).messages =
        [{ singular := "c" }, { singular := "b", plural := "bs" }] := by
  intro xs ys start
  obtain ⟨happend, hassoc, -⟩ := @merge_laws start xs ys
  obtain ⟨-, -, -, -, htwice⟩ := @merge_laws start ys xs
  rw [← hassoc, happend, htwice]
  decide

/-- The catalog of a list has as many messages as the list has different ids. -/
theorem size_ofList (l : List Message) : (ofList l).size = (idsOf l).toFinset.card := by
  have hids : (idsOf (ofList l).messages).toFinset = (idsOf l).toFinset := by
    ext k
    rw [List.mem_toFinset, List.mem_toFinset, mem_idsOf_ofList]
  rw [← hids, List.toFinset_card_of_nodup (nodup_ofList l)]
  exact (List.length_map _).symm

end insertAll

end StringHarvest.Catalog
