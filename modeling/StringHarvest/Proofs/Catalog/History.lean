import StringHarvest.Proofs.Catalog.Insertion

/-!
# Catalogs and their histories

What a catalog holds after any sequence of operations, told by the history of the operations alone.
A history is a list of steps: a message is inserted, the messages that fail a test are dropped, or
everything is dropped. Place and content of an entry follow opposite rules.

* **Content.** A message is `Stored` after a history when some step inserts it and every later
  step spares it: no later step inserts its id again, no later test fails on it, nothing is cleared.
* **Place.** An id is `IntroducedAt` the step that is its first insertion after its most recent
  removal. An insertion at a known id is not such a step, so overwriting never moves an entry.

**Main theorem** (`runAll_follows_history`): after every sequence of operations no two entries share
an id, `get?` finds exactly the entry with the wanted id, the entries are the stored messages, and
they stand in the order in which their ids were introduced.

The road to it: every operation is a list of steps (`apply_eq_play`; for a merge this is
`merge_ofList`). `Describes` says that a list of messages is the one that a history leads to;
`Describes.step` shows that one more step keeps this, `describes_play` that every history does.
-/

namespace StringHarvest.Catalog

/-! ### Operations and steps -/

/-- An operation on a catalog. -/
inductive Operation where
  | insert (m : Message)
  /-- Merges with the catalog of a list. -/
  | merge (l : List Message)
  | retain (keep : Message → Bool)
  /-- Puts the catalog of a list in the place of the catalog. -/
  | replace (l : List Message)

/-- The catalog after an operation. -/
def Operation.apply (catalog : Catalog) : Operation → Catalog
  | .insert m => catalog.insert m
  | .merge l => catalog.merge (ofList l)
  | .retain keep => catalog.filter keep
  | .replace l => ofList l

/-- The catalog after operations that start with the empty one. -/
def runAll (operations : List Operation) : Catalog := operations.foldl Operation.apply empty

/-- A step of a history. -/
inductive Step where
  | insert (m : Message)
  | retain (keep : Message → Bool)
  | clear

/-- The catalog after a step. -/
def Step.apply (catalog : Catalog) : Step → Catalog
  | .insert m => catalog.insert m
  | .retain keep => catalog.filter keep
  | .clear => empty

/-- The catalog after the steps of a history. -/
def play (catalog : Catalog) (log : List Step) : Catalog := log.foldl Step.apply catalog

/-- The steps of an operation. -/
def Operation.steps : Operation → List Step
  | .insert m => [.insert m]
  | .merge l => l.map .insert
  | .retain keep => [.retain keep]
  | .replace l => .clear :: l.map .insert

/-- The history of operations. -/
def history (operations : List Operation) : List Step := operations.flatMap Operation.steps

/-- Nothing changes where nothing is done. -/
@[simp] theorem play_nil (catalog : Catalog) : catalog.play [] = catalog := rfl

/-- Two histories are played one after the other. -/
theorem play_append (catalog : Catalog) (log log' : List Step) :
    catalog.play (log ++ log') = (catalog.play log).play log' :=
  List.foldl_append

/-- The last step is applied to what the steps before it give. -/
theorem play_concat (catalog : Catalog) (log : List Step) (step : Step) :
    catalog.play (log ++ [step]) = step.apply (catalog.play log) := by
  rw [play_append]
  rfl

/-- Insertions as steps are insertions. -/
theorem play_inserts (catalog : Catalog) (l : List Message) :
    catalog.play (l.map .insert) = catalog.insertAll l := by
  unfold play insertAll
  rw [List.foldl_map]
  rfl

/-- An operation does what its steps do. -/
theorem apply_eq_play (catalog : Catalog) (operation : Operation) :
    operation.apply catalog = catalog.play operation.steps := by
  cases operation with
  | insert m => rfl
  | merge l => exact (merge_ofList catalog l).trans (play_inserts catalog l).symm
  | retain keep => rfl
  | replace l => exact (play_inserts empty l).symm

/-- Operations do what their history does. -/
theorem runAll_eq_play (operations : List Operation) :
    runAll operations = empty.play (history operations) := by
  unfold runAll history
  generalize empty = catalog
  induction operations generalizing catalog with
  | nil => rfl
  | cons operation rest ih =>
      rw [List.foldl_cons, ih, apply_eq_play, List.flatMap_cons, play_append]

/-! ### What a history says -/

/-- A step leaves a stored message as it is. -/
def Step.Spares (m : Message) : Step → Prop
  | .insert m' => m'.id ≠ m.id
  | .retain keep => keep m = true
  | .clear => False

/-- A message is the last one that was inserted with its id, and nothing has removed it since. -/
def Stored (log : List Step) (m : Message) : Prop :=
  ∃ before after, log = before ++ .insert m :: after ∧ ∀ step ∈ after, step.Spares m

/-- A message with the id is stored. -/
def Known (log : List Step) (k : Message.Id) : Prop := ∃ m, Stored log m ∧ m.id = k

/-- The step with the given number inserts a message with the id. -/
def InsertedAt (log : List Step) (k : Message.Id) (i : Nat) : Prop :=
  ∃ m, log[i]? = some (.insert m) ∧ m.id = k

/-- The step with the given number removes the id. -/
def RemovedAt (log : List Step) (k : Message.Id) (i : Nat) : Prop :=
  Known (log.take i) k ∧ ¬ Known (log.take (i + 1)) k

/-- The step with the given number is the first insertion of the id after its most recent removal,
or its first insertion at all if it was never removed. -/
def IntroducedAt (log : List Step) (k : Message.Id) (i : Nat) : Prop :=
  InsertedAt log k i ∧ (∀ j, i < j → ¬ RemovedAt log k j) ∧
    ∀ i' < i, InsertedAt log k i' → ∃ j, i' < j ∧ j < i ∧ RemovedAt log k j

/-- After one more step a message is stored if the step inserts it, or if it was stored and the
step spares it. -/
theorem stored_concat (log : List Step) (step : Step) (m : Message) :
    Stored (log ++ [step]) m ↔ step = .insert m ∨ Stored log m ∧ step.Spares m := by
  constructor
  · rintro ⟨before, after, hlog, hafter⟩
    rcases List.eq_nil_or_concat after with rfl | ⟨after, last, rfl⟩
    · left
      have hlast := (List.append_inj' hlog rfl).2
      simpa using hlast
    · right
      rw [List.concat_eq_append, ← List.cons_append, ← List.append_assoc] at hlog
      obtain ⟨rfl, hlast⟩ := List.append_inj' hlog rfl
      obtain rfl : step = last := by simpa using hlast
      refine ⟨⟨before, after, rfl, fun s hs => hafter s ?_⟩, hafter step ?_⟩
      · simp [hs]
      · simp
  · rintro (rfl | ⟨⟨before, after, rfl, hafter⟩, hspares⟩)
    · exact ⟨log, [], rfl, by simp⟩
    · refine ⟨before, after ++ [step], by simp, fun s hs => ?_⟩
      rcases List.mem_append.mp hs with hs | hs
      · exact hafter s hs
      · rwa [List.mem_singleton.mp hs]

/-- At the beginning nothing is stored. -/
@[simp] theorem not_stored_nil (m : Message) : ¬ Stored [] m := by
  rintro ⟨before, after, hlog, -⟩
  simp at hlog

/-- What is stored is known by its id. -/
theorem Stored.known {log : List Step} {m : Message} (h : Stored log m) : Known log m.id :=
  ⟨m, h, rfl⟩

/-- A number at which an id is inserted is the number of a step. -/
theorem InsertedAt.lt_length {log : List Step} {k : Message.Id} {i : Nat}
    (h : InsertedAt log k i) : i < log.length := by
  obtain ⟨m, hm, -⟩ := h
  exact (List.getElem?_eq_some_iff.mp hm).1

/-- Right after an insertion the id is known. -/
theorem InsertedAt.known_take {log : List Step} {k : Message.Id} {i : Nat}
    (h : InsertedAt log k i) : Known (log.take (i + 1)) k := by
  obtain ⟨m, hm, rfl⟩ := h
  refine ⟨m, ?_, rfl⟩
  rw [List.take_add_one, hm, Option.toList_some, stored_concat]
  exact Or.inl rfl

/-- Later steps do not change what an earlier step inserts. -/
theorem insertedAt_concat {log : List Step} {step : Step} {k : Message.Id} {i : Nat}
    (hi : i < log.length) : InsertedAt (log ++ [step]) k i ↔ InsertedAt log k i := by
  unfold InsertedAt
  rw [List.getElem?_append_left hi]

/-- Later steps do not change what an earlier step removes. -/
theorem removedAt_concat {log : List Step} {step : Step} {k : Message.Id} {j : Nat}
    (hj : j < log.length) : RemovedAt (log ++ [step]) k j ↔ RemovedAt log k j := by
  unfold RemovedAt
  rw [List.take_append_of_le_length hj.le, List.take_append_of_le_length hj]

/-- A step that removes an id is one of the history. -/
theorem RemovedAt.lt_length {log : List Step} {k : Message.Id} {j : Nat}
    (h : RemovedAt log k j) : j < log.length := by
  by_contra hj
  have hj : log.length ≤ j := Nat.le_of_not_lt hj
  obtain ⟨hbefore, hafter⟩ := h
  rw [List.take_of_length_le hj] at hbefore
  rw [List.take_of_length_le (hj.trans (Nat.le_succ j))] at hafter
  exact hafter hbefore

/-- An id that was known at some point and is not known in the end was removed in between. -/
theorem exists_removedAt {log : List Step} {k : Message.Id} {i : Nat}
    (hi : Known (log.take i) k) (hk : ¬ Known log k) : ∃ j, i ≤ j ∧ RemovedAt log k j := by
  by_contra hnone
  -- without a removal the id stays known for ever
  have hstays : ∀ n, Known (log.take (i + n)) k := by
    intro n
    induction n with
    | zero => exact hi
    | succ n ih =>
        by_contra hlost
        exact hnone ⟨i + n, Nat.le_add_right i n, ih, hlost⟩
  have hend := hstays log.length
  rw [List.take_of_length_le (Nat.le_add_left _ _)] at hend
  exact hk hend

/-! ### Introductions -/

/-- An id is introduced at one step at most. -/
theorem IntroducedAt.unique {log : List Step} {k : Message.Id} {i j : Nat}
    (hi : IntroducedAt log k i) (hj : IntroducedAt log k j) : i = j := by
  rcases Nat.lt_trichotomy i j with hij | hij | hij
  · obtain ⟨n, hin, -, hn⟩ := hj.2.2 i hij hi.1
    exact absurd hn (hi.2.1 n hin)
  · exact hij
  · obtain ⟨n, hjn, -, hn⟩ := hi.2.2 j hij hj.1
    exact absurd hn (hj.2.1 n hjn)

/-- An id that one more step leaves known keeps the place of its introduction. -/
theorem IntroducedAt.concat {log : List Step} {step : Step} {k : Message.Id} {i : Nat}
    (h : IntroducedAt log k i) (hk : Known (log ++ [step]) k) :
    IntroducedAt (log ++ [step]) k i := by
  obtain ⟨hins, hkept, hfirst⟩ := h
  have hi := hins.lt_length
  refine ⟨(insertedAt_concat hi).mpr hins, ?_, ?_⟩
  · intro j hij hj
    rcases Nat.lt_or_ge j log.length with hlt | hge
    · exact hkept j hij ((removedAt_concat hlt).mp hj)
    · have hlast : j = log.length := by
        have := hj.lt_length
        rw [List.length_append, List.length_singleton] at this
        omega
      subst hlast
      have hafter := hj.2
      rw [List.take_of_length_le (by simp)] at hafter
      exact hafter hk
  · intro i' hi' hins'
    obtain ⟨j, hij, hji, hj⟩ := hfirst i' hi' ((insertedAt_concat (hi'.trans hi)).mp hins')
    exact ⟨j, hij, hji, (removedAt_concat (hji.trans hi)).mpr hj⟩

/-- An id that was not known is introduced by its insertion. -/
theorem introducedAt_insert {log : List Step} {m : Message} (hm : ¬ Known log m.id) :
    IntroducedAt (log ++ [.insert m]) m.id log.length := by
  refine ⟨⟨m, by simp, rfl⟩, ?_, ?_⟩
  · intro j hj hrem
    have := hrem.lt_length
    rw [List.length_append, List.length_singleton] at this
    omega
  · intro i hi hins
    have hins := (insertedAt_concat hi).mp hins
    obtain ⟨j, hij, hj⟩ := exists_removedAt hins.known_take hm
    exact ⟨j, hij, hj.lt_length, (removedAt_concat hj.lt_length).mpr hj⟩

/-- The first id was introduced before the second one. -/
def IntroducedBefore (log : List Step) (k k' : Message.Id) : Prop :=
  ∃ i j, IntroducedAt log k i ∧ IntroducedAt log k' j ∧ i < j

/-! ### The invariant -/

/-- The messages are those that a history leads to, in the order that it gives them. -/
structure Describes (log : List Step) (messages : List Message) : Prop where
  /-- No two messages share an id. -/
  nodup : (idsOf messages).Nodup
  /-- The messages are the stored ones. -/
  mem_iff : ∀ m, m ∈ messages ↔ Stored log m
  /-- Every id of a message was introduced. -/
  introduced : ∀ k ∈ idsOf messages, ∃ i, IntroducedAt log k i
  /-- The messages stand in the order in which their ids were introduced. -/
  ordered : (idsOf messages).Pairwise (IntroducedBefore log)

namespace Describes

variable {log : List Step} {messages : List Message}

/-- In a catalog that a history describes, the known ids are those of its messages. -/
theorem known_iff (h : Describes log messages) (k : Message.Id) :
    Known log k ↔ k ∈ idsOf messages := by
  rw [mem_idsOf]
  unfold Known
  simp only [h.mem_iff]

/-- If the ids after one more step are among those before, in the same order, and all still known,
then they keep the places of their introduction. -/
theorem introduced_of_sublist (h : Describes log messages) {step : Step} {ids : List Message.Id}
    (hsub : ids.Sublist (idsOf messages)) (hknown : ∀ k ∈ ids, Known (log ++ [step]) k) :
    (∀ k ∈ ids, ∃ i, IntroducedAt (log ++ [step]) k i) ∧
      ids.Pairwise (IntroducedBefore (log ++ [step])) := by
  constructor
  · intro k hk
    obtain ⟨i, hi⟩ := h.introduced k (hsub.subset hk)
    exact ⟨i, hi.concat (hknown k hk)⟩
  · refine List.Pairwise.imp_of_mem ?_ (h.ordered.sublist hsub)
    rintro k k' hk hk' ⟨i, j, hi, hj, hij⟩
    exact ⟨i, j, hi.concat (hknown k hk), hj.concat (hknown k' hk'), hij⟩

/-- An insertion keeps the invariant: a known id is overwritten in its place, and a new one is
introduced after all others. -/
theorem insert (h : Describes log messages) (m : Message) :
    Describes (log ++ [.insert m]) (put m messages) := by
  have hmem : ∀ x, x ∈ put m messages ↔ Stored (log ++ [.insert m]) x := by
    intro x
    rw [mem_put h.nodup, stored_concat, h.mem_iff, Step.insert.injEq, eq_comm]
    exact or_congr_right (and_congr_right' ne_comm)
  have hknown : ∀ k ∈ idsOf (put m messages), Known (log ++ [.insert m]) k := by
    intro k hk
    obtain ⟨x, hx, rfl⟩ := mem_idsOf.mp hk
    exact ((hmem x).mp hx).known
  by_cases hm : m.id ∈ idsOf messages
  · obtain ⟨hint, hord⟩ :=
      h.introduced_of_sublist (by rw [idsOf_put_of_mem hm]) hknown
    exact ⟨nodup_put h.nodup, hmem, hint, hord⟩
  · have hids := idsOf_put_of_notMem hm
    have hnew : IntroducedAt (log ++ [.insert m]) m.id log.length :=
      introducedAt_insert fun hk => hm ((h.known_iff m.id).mp hk)
    obtain ⟨hint, hord⟩ := h.introduced_of_sublist (List.Sublist.refl _) fun k hk =>
      hknown k (by rw [hids]; exact List.mem_append_left _ hk)
    refine ⟨nodup_put h.nodup, hmem, ?_, ?_⟩
    · intro k hk
      rw [hids, List.mem_append, List.mem_singleton] at hk
      rcases hk with hk | rfl
      · exact hint k hk
      · exact ⟨_, hnew⟩
    · rw [hids, List.pairwise_append]
      refine ⟨hord, List.pairwise_singleton _ _, ?_⟩
      intro k hk k' hk'
      rw [List.mem_singleton.mp hk']
      -- the old ids were introduced by steps of the shorter history
      obtain ⟨i, hi⟩ := h.introduced k hk
      have hk' := hknown k (by rw [hids]; exact List.mem_append_left _ hk)
      exact ⟨i, log.length, hi.concat hk', hnew, hi.1.lt_length⟩

/-- A test keeps the invariant: what passes it keeps its place. -/
theorem retain (h : Describes log messages) (keep : Message → Bool) :
    Describes (log ++ [.retain keep]) (messages.filter keep) := by
  have hmem : ∀ x, x ∈ messages.filter keep ↔ Stored (log ++ [.retain keep]) x := by
    intro x
    rw [List.mem_filter, stored_concat, h.mem_iff]
    simp [Step.Spares]
  have hsub : (idsOf (messages.filter keep)).Sublist (idsOf messages) :=
    List.filter_sublist.map Message.id
  obtain ⟨hint, hord⟩ := h.introduced_of_sublist hsub fun k hk => by
    obtain ⟨x, hx, rfl⟩ := mem_idsOf.mp hk
    exact ((hmem x).mp hx).known
  exact ⟨h.nodup.sublist hsub, hmem, hint, hord⟩

/-- Without messages nothing is stored. -/
theorem clear (log : List Step) : Describes (log ++ [.clear]) [] := by
  refine ⟨List.nodup_nil, ?_, ?_, List.Pairwise.nil⟩
  · intro m
    rw [stored_concat]
    simp [Step.Spares]
  · intro k hk
    exact absurd hk List.not_mem_nil

/-- One more step keeps the invariant. -/
theorem step {catalog : Catalog} (h : Describes log catalog.messages) (step : Step) :
    Describes (log ++ [step]) (step.apply catalog).messages := by
  cases step with
  | insert m => exact h.insert m
  | retain keep => exact h.retain keep
  | clear => exact clear log

end Describes

/-- Every history leads to the messages that it describes. -/
theorem describes_play (log : List Step) : Describes log (empty.play log).messages := by
  induction log using List.reverseRecOn with
  | nil =>
      refine ⟨List.nodup_nil, ?_, ?_, List.Pairwise.nil⟩
      · intro m
        simp
      · intro k hk
        exact absurd hk List.not_mem_nil
  | append_singleton log step ih =>
      rw [play_concat]
      exact ih.step step

/-- Where ids are different from each other, looking up finds exactly the entry with the id. -/
theorem get?_eq_some_iff {catalog : Catalog} (h : (idsOf catalog.messages).Nodup)
    (context singular : String) (m : Message) :
    catalog.get? context singular = some m ↔
      m ∈ catalog.toList ∧ m.context = context ∧ m.singular = singular := by
  unfold get? toList
  have hid : ∀ x : Message, (x.id == ⟨context, singular⟩) = true ↔
      x.context = context ∧ x.singular = singular := by
    intro x
    simp [Message.id]
  constructor
  · intro hfind
    have hm := List.find?_some hfind
    exact ⟨List.mem_of_find?_eq_some hfind, (hid m).mp hm⟩
  · rintro ⟨hm, hctx, hsing⟩
    have hm' : (m.id == ⟨context, singular⟩) = true := (hid m).mpr ⟨hctx, hsing⟩
    rcases hfind : catalog.messages.find? fun x => x.id == ⟨context, singular⟩ with _ | x
    · exact absurd hm' (List.find?_eq_none.mp hfind m hm)
    · have hx := List.find?_some hfind
      have hxm : x.id = m.id := (beq_iff_eq.mp hx).trans (beq_iff_eq.mp hm').symm
      rw [hfind, List.inj_on_of_nodup_map h (List.mem_of_find?_eq_some hfind) hm hxm]

/-- **A catalog is what its history says.** After every sequence of operations no two entries have
the same context and singular; looking up a context and a singular gives the listed message with
them if there is one, and nothing otherwise; the listed messages are those that were the last to be
inserted with their id and have not been removed since; and they stand in the order in which their
ids were introduced, each by its first insertion after its most recent removal. -/
theorem runAll_follows_history (operations : List Operation) :
    (runAll operations).toList.Pairwise
      (fun a b => ¬ (a.context = b.context ∧ a.singular = b.singular)) ∧
    (∀ context singular m, (runAll operations).get? context singular = some m ↔
      m ∈ (runAll operations).toList ∧ m.context = context ∧ m.singular = singular) ∧
    (∀ m, m ∈ (runAll operations).toList ↔ Stored (history operations) m) ∧
    (∀ m ∈ (runAll operations).toList, ∃! i, IntroducedAt (history operations) m.id i) ∧
    (runAll operations).toList.Pairwise (fun a b =>
      ∀ i j, IntroducedAt (history operations) a.id i → IntroducedAt (history operations) b.id j →
        i < j) := by
  have h := describes_play (history operations)
  rw [← runAll_eq_play] at h
  refine ⟨?_, get?_eq_some_iff h.nodup, h.mem_iff, ?_, ?_⟩
  · refine (List.pairwise_map.mp h.nodup).imp ?_
    rintro a b hab ⟨hctx, hsing⟩
    exact hab (by unfold Message.id; rw [hctx, hsing])
  · intro m hm
    obtain ⟨i, hi⟩ := h.introduced m.id (id_mem_idsOf hm)
    exact ⟨i, hi, fun j hj => hj.unique hi⟩
  · refine (List.pairwise_map.mp h.ordered).imp ?_
    rintro a b ⟨i', j', hi', hj', hlt⟩ i j hi hj
    rw [hi.unique hi', hj.unique hj']
    exact hlt

end StringHarvest.Catalog
