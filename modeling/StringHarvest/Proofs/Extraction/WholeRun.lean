import Mathlib
import StringHarvest.Extraction
import StringHarvest.Proofs.Catalog.Insertion
import StringHarvest.Proofs.Extraction.Schedules

/-!
# The meaning of a whole extraction

An extraction collects messages on three levels: within a file, across the files of a group, across
the groups. Each level keeps one message for each id, the last one, in the place of the first. This
file shows that the three levels collapse into one: the catalog is that of the plain list of all
messages.

**Main theorem** (`collect_whole_run`): if all files can be read, the extraction succeeds, and its
catalog is the processed catalog of the messages of all files in order. So it depends on the
sequence of files with their languages and not on how that is cut into groups, nor on the order in
which the files are finished. The count of a group
is the number of different ids in it; with nothing processed, the size of the catalog lies between
the largest count and the sum of all, and is the sum exactly if no id stands in two groups.

Everything rests on `merge_ofList`; the bounds are about the union of finite sets of ids
(`card_idsOf_flatMap_le`, `card_idsOf_flatMap_eq_iff`).
-/

namespace StringHarvest

/-- The files of a group with their language. -/
def FileGroup.entries (group : FileGroup) : List (Path × Language) :=
  group.files.map fun path => (path, group.language)

/-- The entries of groups are the files of each of them. -/
theorem forall_entries_iff {groups : List FileGroup} {P : Path × Language → Prop} :
    (∀ entry ∈ groups.flatMap FileGroup.entries, P entry) ↔
      ∀ group ∈ groups, ∀ path ∈ group.files, P (path, group.language) := by
  unfold FileGroup.entries
  simp only [List.mem_flatMap, List.mem_map]
  constructor
  · intro h group hgroup path hpath
    exact h _ ⟨group, hgroup, path, hpath, rfl⟩
  · rintro h _ ⟨group, hgroup, path, hpath, rfl⟩
    exact h group hgroup path hpath

namespace Extraction

open Catalog (idsOf ofList)

/-! ### What files hold -/

/-- The source that a file holds, if it can be read as text and parsed. -/
def sourceAt? (fs : FileSystem) (entry : Path × Language) : Option Source :=
  match fs.readText entry.1 with
  | .ok text => (Source.parse text entry.1.text entry.2).toOption
  | .error _ => none

/-- A file can be read as text and parsed. -/
def Readable (fs : FileSystem) (entry : Path × Language) : Prop := (sourceAt? fs entry).isSome

instance (fs : FileSystem) (entry : Path × Language) : Decidable (Readable fs entry) :=
  inferInstanceAs (Decidable (_ = true))

/-- The messages that the message calls of a file give, in the order of the visits. -/
def messagesAt (fs : FileSystem) (names : List String) (entry : Path × Language) : List Message :=
  match sourceAt? fs entry with
  | some source => Catalog.messagesOf names source.lines source.program
  | none => []

/-- The messages of the files of a group from first to last. -/
def messagesIn (fs : FileSystem) (names : List String) (group : FileGroup) : List Message :=
  group.entries.flatMap (messagesAt fs names)

variable {fs : FileSystem} {names : List String}

/-- The catalog of a file that can be read is that of its messages. -/
theorem ofFile_of_readable {path : Path} {language : Language}
    (h : Readable fs (path, language)) :
    ofFile fs names language path = .ok (ofList (messagesAt fs names (path, language))) := by
  unfold Readable at h
  obtain ⟨source, hsource⟩ := Option.isSome_iff_exists.mp h
  unfold messagesAt
  rw [hsource]
  unfold sourceAt? at hsource
  unfold ofFile
  rcases htext : fs.readText path with e | text
  · rw [htext] at hsource
    cases hsource
  · rw [htext] at hsource
    dsimp only at hsource
    rcases hparse : Source.parse text path.text language with e | found
    · rw [hparse] at hsource
      cases hsource
    · rw [hparse] at hsource
      obtain rfl : found = source := Option.some.inj hsource
      change Except.mapError _ (Source.parse text path.text language) >>= _ = _
      rw [hparse]
      rfl

/-- The catalog of a group is that of its messages. -/
theorem ofGroup_of_readable {group : FileGroup} (schedule : Schedule)
    (h : ∀ entry ∈ group.entries, Readable fs entry) :
    ofGroup fs names group schedule = .ok (ofList (messagesIn fs names group)) := by
  have hfiles : ∀ path ∈ group.files, ofFile fs names group.language path =
      .ok (ofList (messagesAt fs names (path, group.language))) :=
    fun path hpath => ofFile_of_readable (h _ (List.mem_map_of_mem hpath))
  refine ofGroup_eq_ok_iff.mpr ⟨_, mapM_eq_ok hfiles, ?_⟩
  rw [Catalog.foldl_merge_ofList]
  unfold messagesIn FileGroup.entries
  rw [List.flatMap_map]
  rfl

/-- The extraction of groups that can be read. -/
theorem collect_of_readable {groups : List FileGroup} (process : Catalog → Catalog)
    (schedule : Schedule) (h : ∀ entry ∈ groups.flatMap FileGroup.entries, Readable fs entry) :
    collect fs names process groups schedule = .ok {
      catalog := process (ofList (groups.flatMap (messagesIn fs names)))
      groups := groups.map fun group =>
        { language := group.language
          fileCount := group.files.length
          messageCount := (idsOf (messagesIn fs names group)).toFinset.card } } := by
  have hgroups : ∀ group ∈ groups, ofGroup fs names group schedule =
      .ok (ofList (messagesIn fs names group)) :=
    fun group hgroup => ofGroup_of_readable schedule fun entry hentry =>
      h entry (List.mem_flatMap.mpr ⟨group, hgroup, hentry⟩)
  unfold collect
  rw [mapM_eq_ok hgroups]
  change Except.ok _ = Except.ok _
  congr 2
  · rw [Catalog.foldl_merge_ofList]
    rfl
  · have hzip : groups.zip (groups.map fun group => ofList (messagesIn fs names group)) =
        groups.map fun group => (group, ofList (messagesIn fs names group)) := by
      rw [← List.zip_map', List.map_id']
    rw [hzip, List.map_map]
    refine List.map_congr_left fun group _ => ?_
    simp only [Function.comp_apply, count, Catalog.size_ofList]

/-! ### How many messages there are -/

section card

variable {α : Type} (f : α → List Message)

/-- The ids of several parts are those of the first and of the other ones. -/
theorem idsOf_flatMap_cons (x : α) (xs : List α) :
    (idsOf ((x :: xs).flatMap f)).toFinset =
      (idsOf (f x)).toFinset ∪ (idsOf (xs.flatMap f)).toFinset := by
  rw [List.flatMap_cons, Catalog.idsOf_append, List.toFinset_append]

/-- A part has no more ids than the whole. -/
theorem card_idsOf_le_flatMap {x : α} {xs : List α} (h : x ∈ xs) :
    (idsOf (f x)).toFinset.card ≤ (idsOf (xs.flatMap f)).toFinset.card := by
  refine Finset.card_le_card fun k hk => ?_
  rw [List.mem_toFinset, Catalog.mem_idsOf] at hk ⊢
  obtain ⟨m, hm, rfl⟩ := hk
  exact ⟨m, List.mem_flatMap.mpr ⟨x, h, hm⟩, rfl⟩

/-- The whole has no more ids than its parts together. -/
theorem card_idsOf_flatMap_le (xs : List α) :
    (idsOf (xs.flatMap f)).toFinset.card ≤
      (xs.map fun x => (idsOf (f x)).toFinset.card).sum := by
  induction xs with
  | nil => simp
  | cons x xs ih =>
      rw [idsOf_flatMap_cons, List.map_cons, List.sum_cons]
      have hunion := Finset.card_union_le (idsOf (f x)).toFinset (idsOf (xs.flatMap f)).toFinset
      omega

/-- The whole has as many ids as its parts together exactly if no id stands in two parts. -/
theorem card_idsOf_flatMap_eq_iff (xs : List α) :
    (idsOf (xs.flatMap f)).toFinset.card = (xs.map fun x => (idsOf (f x)).toFinset.card).sum ↔
      xs.Pairwise fun x y => ∀ k ∈ idsOf (f x), k ∉ idsOf (f y) := by
  induction xs with
  | nil => simp
  | cons x xs ih =>
      rw [idsOf_flatMap_cons, List.map_cons, List.sum_cons, List.pairwise_cons, ← ih]
      -- the ids of the first part that stand in a later part are what the union loses
      have hunion := Finset.card_union_add_card_inter (idsOf (f x)).toFinset
        (idsOf (xs.flatMap f)).toFinset
      have hle := card_idsOf_flatMap_le f xs
      have hinter : ((idsOf (f x)).toFinset ∩ (idsOf (xs.flatMap f)).toFinset).card = 0 ↔
          ∀ y ∈ xs, ∀ k ∈ idsOf (f x), k ∉ idsOf (f y) := by
        rw [Finset.card_eq_zero, ← Finset.disjoint_iff_inter_eq_empty, Finset.disjoint_left]
        simp only [List.mem_toFinset, Catalog.mem_idsOf, List.mem_flatMap]
        constructor
        · rintro h y hy k hk ⟨m, hm, rfl⟩
          exact h hk ⟨m, ⟨y, hy, hm⟩, rfl⟩
        · rintro h k hk ⟨m, ⟨y, hy, hm⟩, rfl⟩
          exact h y hy m.id hk ⟨m, hm, rfl⟩
      rw [← hinter]
      omega

end card

/-- **A whole extraction.** If every file of every group can be read, the extraction succeeds, in
whatever order the files are finished. Its catalog is the processed catalog of all messages in the
order of the groups and of their files, and the count of each group has the number of different ids
in its part. Any other cut of the same files into groups gives the same catalog. Without processing,
the size of the catalog is at least every count and at most their sum, and it is the sum exactly if
no id stands in two groups. -/
theorem collect_whole_run (fs : FileSystem) (names : List String) (process : Catalog → Catalog)
    (groups : List FileGroup) (schedule : Schedule)
    (h : ∀ group ∈ groups, ∀ path ∈ group.files, Readable fs (path, group.language)) :
    collect fs names process groups schedule = .ok {
      catalog := process (ofList (groups.flatMap (messagesIn fs names)))
      groups := groups.map fun group =>
        { language := group.language
          fileCount := group.files.length
          messageCount := (idsOf (messagesIn fs names group)).toFinset.card } } ∧
    (∀ regrouped : List FileGroup,
      regrouped.flatMap FileGroup.entries = groups.flatMap FileGroup.entries →
      ∃ counts, collect fs names process regrouped schedule = .ok {
        catalog := process (ofList (groups.flatMap (messagesIn fs names)))
        groups := counts }) ∧
    ∃ extracted, collect fs names id groups schedule = .ok extracted ∧
      (∀ count ∈ extracted.groups, count.messageCount ≤ extracted.catalog.size) ∧
      extracted.catalog.size ≤ (extracted.groups.map GroupCount.messageCount).sum ∧
      (extracted.catalog.size = (extracted.groups.map GroupCount.messageCount).sum ↔
        groups.Pairwise fun a b =>
          ∀ k ∈ idsOf (messagesIn fs names a), k ∉ idsOf (messagesIn fs names b)) := by
  have hentries := forall_entries_iff.mpr h
  refine ⟨collect_of_readable process schedule hentries, ?_, _,
    collect_of_readable id schedule hentries, ?_⟩
  · intro regrouped hsame
    have hmessages : regrouped.flatMap (messagesIn fs names) =
        groups.flatMap (messagesIn fs names) := by
      unfold messagesIn
      rw [← List.flatMap_assoc, ← List.flatMap_assoc, hsame]
    rw [← hsame] at hentries
    exact ⟨_, by rw [collect_of_readable process schedule hentries, hmessages]⟩
  · simp only [id_eq, Catalog.size_ofList, List.map_map]
    refine ⟨?_, card_idsOf_flatMap_le _ groups, card_idsOf_flatMap_eq_iff _ groups⟩
    intro count hcount
    obtain ⟨group, hgroup, rfl⟩ := List.mem_map.mp hcount
    exact card_idsOf_le_flatMap _ hgroup

/-- Two files that share a message. -/
def sharedFiles : FileSystem where
  root := .directory [
    ("app.js", .file (some "tr(\"Shared\"); tr(\"Only here\");")),
    ("app.ts", .file (some "const s: string = tr(\"Shared\", \"Many\");"))]
  current := []

/-- The two files as groups. -/
def sharedGroups : List FileGroup := [⟨.javascript, [⟨"/app.js"⟩]⟩, ⟨.typescript, [⟨"/app.ts"⟩]⟩]

/-- Two groups of two messages and one message that share an id give a catalog of two messages. -/
theorem collect_whole_run_shared :
    (∀ group ∈ sharedGroups, ∀ path ∈ group.files, Readable sharedFiles (path, group.language)) ∧
    ∃ extracted, collect sharedFiles ["tr"] id sharedGroups = .ok extracted ∧
      extracted.groups = [⟨.javascript, 1, 2⟩, ⟨.typescript, 1, 1⟩] ∧
      extracted.catalog.messages =
        [{ singular := "Shared", plural := "Many" }, { singular := "Only here" }] := by
  have hreadable : ∀ group ∈ sharedGroups, ∀ path ∈ group.files,
      Readable sharedFiles (path, group.language) := by
    decide +kernel
  have hrun := (collect_whole_run sharedFiles ["tr"] id sharedGroups .inOrder hreadable).1
  exact ⟨hreadable, _, hrun, by decide +kernel, by decide +kernel⟩

end Extraction

end StringHarvest
