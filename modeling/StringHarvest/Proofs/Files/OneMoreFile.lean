import StringHarvest.Proofs.Files.Locations
import StringHarvest.Proofs.Path.Components

/-!
# One more file

Two file systems that differ in one file, which the second has and the first has not
(`AddsFile`), are told apart only by paths that lead to that file or on from it. A path leads on
from the locations of its `trail`.

**Main facts.** If the file is not on the trail of a path, the path leads to the same location in
both file systems, or fails for the same reason (`Sets.locate_eq`). Making all directories of a path
whose trail and goal keep off the file (`Avoids`) goes the same way in both and leaves them
different in this file only (`AddsFile.makeDirectories`), and so does writing to a path
(`AddsFile.write`), except that the path may be that of the file.
-/

namespace StringHarvest

/-- What is put beside something leaves it as it is. -/
theorem Tree.find?_put_of_ne {tree new : Tree} {parent : List String} {name other : String}
    (hparent : tree.placeAt? parent = some .directory) (h : other ≠ name) (rest : List String) :
    (tree.put new (parent ++ [name])).find? (parent ++ other :: rest) =
      tree.find? (parent ++ other :: rest) := by
  induction parent generalizing tree with
  | nil =>
      rw [List.nil_append, List.nil_append, put, find?, child?, entries, lookup_putEntry_of_ne h]
      rfl
  | cons first parent ih =>
      have hroot := placeAt?_append [] (first :: parent) hparent (List.cons_ne_nil _ _)
      obtain ⟨entries, rfl⟩ := eq_directory_of_place (Option.some.inj hroot)
      rw [placeAt?_directory_cons] at hparent
      obtain ⟨child, hchild, hparent⟩ := Option.bind_eq_some_iff.mp hparent
      rw [List.cons_append, List.cons_append, put, child?, Tree.entries, hchild, Option.getD_some,
        find?, child?, Tree.entries, lookup_putEntry_self, Option.bind_some, ih hparent, find?,
        child?, Tree.entries, hchild, Option.bind_some]

namespace FileSystem

variable {fs fs' : FileSystem} {p q : Path} {location target : List String} {new : Place}
  {text : Option String}

/-! ### The way of a path -/

/-- The locations from which segments are followed, one for each of them. -/
def trailFrom (location : List String) : List String → List (List String)
  | [] => []
  | segment :: rest => location :: trailFrom (move location segment) rest

/-- The locations from which the segments of a path are followed. -/
def trail (fs : FileSystem) (p : Path) : List (List String) := trailFrom (fs.start p) p.segments

/-- The location to which a path leads if it leads anywhere. -/
def goal (fs : FileSystem) (p : Path) : List String := p.segments.foldl move (fs.start p)

/-- The trail of a way is that of its front and of its back. -/
theorem trailFrom_append (location front back : List String) :
    trailFrom location (front ++ back) =
      trailFrom location front ++ trailFrom (front.foldl move location) back := by
  induction front generalizing location with
  | nil => rfl
  | cons segment front ih => rw [List.cons_append, trailFrom, ih, trailFrom, List.cons_append,
      List.foldl_cons]

/-- Where a path starts depends only on the current directory. -/
theorem start_eq (h : fs'.current = fs.current) (p : Path) : fs'.start p = fs.start p := by
  unfold start
  rw [h]

/-- So does its trail. -/
theorem trail_eq (h : fs'.current = fs.current) (p : Path) : fs'.trail p = fs.trail p := by
  unfold trail
  rw [start_eq h]

/-- So does its goal. -/
theorem goal_eq (h : fs'.current = fs.current) (p : Path) : fs'.goal p = fs.goal p := by
  unfold goal
  rw [start_eq h]

/-- Segments that stand for names lead down through them. -/
theorem trailFrom_of_names {segments names : List String}
    (h : segments.filterMap Path.component? = names.map .name) (location : List String) :
    (∀ passed ∈ trailFrom location segments, ∃ front, front <+: names ∧
      passed = location ++ front) ∧
      segments.foldl move location = location ++ names := by
  induction segments generalizing names location with
  | nil =>
      obtain rfl : names = [] := by simpa using h.symm
      exact ⟨nofun, (List.append_nil _).symm⟩
  | cons segment segments ih =>
      have hhere : ∃ front, front <+: names ∧ location = location ++ front :=
        ⟨[], List.nil_prefix, (List.append_nil _).symm⟩
      rw [List.filterMap_cons] at h
      rw [trailFrom, List.foldl_cons, move_eq]
      rcases hsegment : Path.component? segment with _ | c <;> rw [hsegment] at h
      · obtain ⟨hpassed, hgoal⟩ := ih h location
        exact ⟨List.forall_mem_cons.mpr ⟨hhere, hpassed⟩, hgoal⟩
      · obtain ⟨name, names, rfl, rfl, hrest⟩ := List.map_eq_cons_iff.mp h.symm
        obtain ⟨hpassed, hgoal⟩ := ih hrest.symm (location ++ [name])
        refine ⟨List.forall_mem_cons.mpr ⟨hhere, fun passed hmem => ?_⟩, ?_⟩
        · obtain ⟨front, hfront, rfl⟩ := hpassed passed hmem
          exact ⟨name :: front, List.cons_prefix_cons.mpr ⟨rfl, hfront⟩, by simp⟩
        · rw [hgoal, List.append_assoc, List.singleton_append]

/-! ### Operations told by places -/

/-- A path that leads to a location leads to its goal. -/
theorem eq_goal_of_locate (h : fs.locate p = .ok location) : location = fs.goal p := by
  obtain ⟨-, h⟩ := locate_eq_ok_iff.mp h
  unfold goal
  generalize fs.start p = before at h ⊢
  generalize p.segments = segments at h ⊢
  induction segments generalizing before with
  | nil => exact (Except.ok.inj h).symm
  | cons segment segments ih =>
      obtain ⟨next, hstep, h⟩ := bind_eq_ok_iff.mp h
      obtain ⟨-, rfl⟩ := step_eq_ok_iff.mp hstep
      exact ih (move before segment) h

/-- What reading gives, told by what stands at the location. -/
def textOf : Option Place → Except FileError String
  | none => .error .notFound
  | some .directory => .error .isADirectory
  | some (.file (some text)) => .ok text
  | some (.file none) => .error .notText

/-- What is read at a path is the text of the file at its place. -/
theorem readText_of_locate (h : fs.locate p = .ok location) :
    fs.readText p = textOf (fs.placeAt? location) := by
  unfold readText entry placeAt? Tree.placeAt?
  rw [h]
  dsimp only [bind, Except.bind]
  rcases fs.root.find? location with _ | ⟨_ | text⟩ | entries <;> rfl

/-- Where a path does not lead, reading fails as the path does. -/
theorem readText_of_locate_error {e : FileError} (h : fs.locate p = .error e) :
    fs.readText p = .error e := by
  unfold readText entry
  rw [h]
  rfl

/-- A path that leads to a place exists if something stands there. -/
theorem exists?_of_locate (h : fs.locate p = .ok location) :
    fs.exists? p = (fs.placeAt? location).isSome := by
  unfold exists? entry? entry placeAt? Tree.placeAt?
  rw [h]
  dsimp only [bind, Except.bind]
  rcases fs.root.find? location with _ | tree <;> rfl

/-- It is a directory if one stands there. -/
theorem isDirectory_of_locate (h : fs.locate p = .ok location) :
    fs.isDirectory p = decide (fs.placeAt? location = some .directory) := by
  unfold isDirectory entry? entry placeAt? Tree.placeAt?
  rw [h]
  dsimp only [bind, Except.bind]
  rcases fs.root.find? location with _ | text | entries <;> rfl

/-- Where a path does not lead, there is no directory. -/
theorem isDirectory_of_locate_error {e : FileError} (h : fs.locate p = .error e) :
    fs.isDirectory p = false := by
  unfold isDirectory entry? entry
  rw [h]
  rfl

/-- A directory is made at a place where nothing stands. -/
theorem makeDirectory_of_locate (h : fs.locate p = .ok location) :
    fs.makeDirectory p =
      if (fs.placeAt? location).isSome then .error .alreadyExists
      else .ok (fs.put location (.directory [])) := by
  unfold makeDirectory placeAt? Tree.placeAt?
  rw [h]
  dsimp only [bind, Except.bind]
  rcases fs.root.find? location with _ | tree <;> rfl

/-- Where a path does not lead, none is made. -/
theorem makeDirectory_of_locate_error {e : FileError} (h : fs.locate p = .error e) :
    fs.makeDirectory p = .error e := by
  unfold makeDirectory
  rw [h]
  rfl

/-! ### The same way in both -/

/-- A change that is not on the trail of a path does not matter for where the path leads. -/
theorem Sets.locate_eq (h : fs.Sets fs' target new) (hp : target ∉ fs.trail p) :
    fs'.locate p = fs.locate p := by
  have hfollow : ∀ segments before, target ∉ trailFrom before segments →
      segments.foldlM fs'.step before = segments.foldlM fs.step before := by
    intro segments
    induction segments with
    | nil => exact fun _ _ => rfl
    | cons segment segments ih =>
        intro before hnot
        rw [trailFrom, List.mem_cons, not_or] at hnot
        have hplace : fs'.placeAt? before = fs.placeAt? before := by
          rw [h.placeAt?, if_neg (Ne.symm hnot.1)]
        rw [List.foldlM_cons, List.foldlM_cons, step_eq, step_eq, hplace]
        rcases fs.placeAt? before with _ | _ | text
        · rfl
        · exact ih (move before segment) hnot.2
        · rfl
  unfold locate
  rw [show (if p.isAbsolute then [] else fs'.current) = fs.start p by unfold start; rw [h.current]]
  split
  · rfl
  · exact hfollow p.segments (fs.start p) hp

/-- What is read elsewhere is the same. -/
theorem Sets.readText_eq (h : fs.Sets fs' target new) (hp : target ∉ fs.trail p)
    (hgoal : fs.goal p ≠ target) : fs'.readText p = fs.readText p := by
  have hlocate := h.locate_eq hp
  rcases hfs : fs.locate p with e | location <;> rw [hfs] at hlocate
  · rw [readText_of_locate_error hfs, readText_of_locate_error hlocate]
  · obtain rfl := eq_goal_of_locate hfs
    rw [readText_of_locate hfs, readText_of_locate hlocate, h.placeAt?, if_neg hgoal]

/-- The second file system has one more file than the first. -/
structure AddsFile (fs fs' : FileSystem) (target : List String) (text : Option String) : Prop where
  free : fs.placeAt? target = none
  sets : fs.Sets fs' target (.file text)

/-- The file that is added does not stand at the root. -/
theorem AddsFile.target_ne_nil (h : fs.AddsFile fs' target text) : target ≠ [] := by
  rintro rfl
  cases h.free

/-- Both have the same directories: where the file is, there is none before or after. -/
theorem AddsFile.directory_iff (h : fs.AddsFile fs' target text) :
    fs'.placeAt? location = some .directory ↔ fs.placeAt? location = some .directory := by
  rw [h.sets.placeAt?]
  split
  · rename_i heq
    simp [heq, h.free]
  · rfl

/-- A path neither leads on from a location nor to it. -/
structure Avoids (fs : FileSystem) (target : List String) (p : Path) : Prop where
  notMem_trail : target ∉ fs.trail p
  goal_ne : fs.goal p ≠ target

/-- Whether a path avoids a place depends only on the current directory. -/
theorem Avoids.of_current (h : fs.Avoids target p) (hcurrent : fs'.current = fs.current) :
    fs'.Avoids target p where
  notMem_trail := trail_eq hcurrent p ▸ h.notMem_trail
  goal_ne := goal_eq hcurrent p ▸ h.goal_ne

/-- Where a path does not lead on from a location, the paths above it do not even lead to it. -/
theorem avoids_parent? (htarget : target ≠ []) (h : target ∉ fs.trail p)
    (hparent : p.parent? = some q) (hq : q.text ≠ "") : fs.Avoids target q := by
  obtain ⟨habsolute, dropped, hne, hsegments⟩ := Path.continues_parent? hparent hq
  have hstart : fs.start q = fs.start p := by
    unfold start
    rw [habsolute]
  obtain ⟨segment, dropped, rfl⟩ := List.exists_cons_of_ne_nil hne
  rcases hsegments with hp | ⟨hroot, hp⟩
  · unfold trail at h
    rw [hp, trailFrom_append, List.mem_append, not_or, trailFrom, List.mem_cons, not_or] at h
    refine ⟨?_, ?_⟩
    · unfold trail
      rw [hstart]
      exact h.1
    · unfold goal
      rw [hstart]
      exact Ne.symm h.2.1
  · -- the root
    have hempty : fs.start q = [] := by
      unfold start
      rw [if_pos ((Path.isAbsolute_iff q).mpr ⟨"", [], hroot⟩)]
    refine ⟨?_, ?_⟩
    · unfold trail
      rw [hempty, hroot]
      simpa [trailFrom, move] using htarget
    · unfold goal
      rw [hempty, hroot]
      exact Ne.symm htarget

/-- Putting the same at a location keeps the difference. -/
theorem AddsFile.put (h : fs.AddsFile fs' target text) (hopens : fs.Opens location)
    (hopens' : fs'.Opens location) (hold : fs.placeAt? location ≠ some .directory)
    (hne : location ≠ target) {tree : Tree} (htree : tree.entries = []) :
    (fs.put location tree).AddsFile (fs'.put location tree) target text := by
  have hsets := hopens.sets_put hold htree
  have hsets' := hopens'.sets_put (mt h.directory_iff.mp hold) htree
  refine ⟨?_, ?_, fun other => ?_⟩
  · rw [hsets.placeAt?, if_neg (Ne.symm hne), h.free]
  · rw [hsets'.current, hsets.current, h.sets.current]
  · rw [hsets'.placeAt?, hsets.placeAt?, h.sets.placeAt?]
    by_cases hother : other = location
    · rw [if_pos hother, if_pos hother, if_neg (hother ▸ hne)]
    · rw [if_neg hother, if_neg hother]

/-- A path that does not come by the file leads to a directory as before. -/
theorem AddsFile.isDirectory_eq (h : fs.AddsFile fs' target text) (hp : target ∉ fs.trail p) :
    fs'.isDirectory p = fs.isDirectory p := by
  have hlocate := h.sets.locate_eq hp
  rcases hfs : fs.locate p with e | location <;> rw [hfs] at hlocate
  · rw [isDirectory_of_locate_error hfs, isDirectory_of_locate_error hlocate]
  · rw [isDirectory_of_locate hfs, isDirectory_of_locate hlocate]
    exact decide_eq_decide.mpr h.directory_iff

/-- Making a directory somewhere else goes the same way in both. -/
theorem AddsFile.makeDirectory (h : fs.AddsFile fs' target text) (hp : fs.Avoids target p) :
    (∃ made made', fs.makeDirectory p = .ok made ∧ fs'.makeDirectory p = .ok made' ∧
      made.AddsFile made' target text) ∨
    ∃ e, fs.makeDirectory p = .error e ∧ fs'.makeDirectory p = .error e := by
  have hlocate := h.sets.locate_eq hp.notMem_trail
  rcases hfs : fs.locate p with e | location <;> rw [hfs] at hlocate
  · exact .inr ⟨e, makeDirectory_of_locate_error hfs, makeDirectory_of_locate_error hlocate⟩
  · have hne : location ≠ target := eq_goal_of_locate hfs ▸ hp.goal_ne
    rw [makeDirectory_of_locate hfs, makeDirectory_of_locate hlocate, h.sets.placeAt?, if_neg hne]
    rcases hplace : fs.placeAt? location with _ | place
    · refine .inl ⟨_, _, rfl, rfl, ?_⟩
      exact h.put (opens_of_locate hfs) (opens_of_locate hlocate) (by simp [hplace]) hne rfl
    · exact .inr ⟨_, rfl, rfl⟩

/-- Making a directory off the file fails as before. -/
theorem AddsFile.makeDirectory_eq_error_iff (h : fs.AddsFile fs' target text)
    (hp : fs.Avoids target p) {e : FileError} :
    fs'.makeDirectory p = .error e ↔ fs.makeDirectory p = .error e := by
  rcases h.makeDirectory hp with ⟨made, made', hmade, hmade', -⟩ | ⟨e, hfailed, hfailed'⟩
  · rw [hmade, hmade']
    exact ⟨nofun, nofun⟩
  · rw [hfailed, hfailed']

/-- Makes one directory, unless it is there. -/
def ensure (fs : FileSystem) (p : Path) : FileSystem × Option FileError :=
  match fs.makeDirectory p with
  | .ok made => (made, none)
  | .error e => (fs, if fs.isDirectory p then none else some e)

/-- Ensuring a directory off the file ends as before, and the file stays the only difference. -/
theorem AddsFile.ensure (h : fs.AddsFile fs' target text) (hp : fs.Avoids target p) :
    (fs'.ensure p).2 = (fs.ensure p).2 ∧ (fs.ensure p).1.AddsFile (fs'.ensure p).1 target text := by
  unfold FileSystem.ensure
  rcases h.makeDirectory hp with ⟨made, made', hmade, hmade', hadds⟩ | ⟨e, hfailed, hfailed'⟩
  · rw [hmade, hmade']
    exact ⟨rfl, hadds⟩
  · rw [hfailed, hfailed']
    exact ⟨by rw [h.isDirectory_eq hp.notMem_trail], h⟩

/-- Where the directory above is missing, it is made first. -/
theorem makeDirectories_of_notFound {above : Nat} (hp : p.text ≠ "")
    (hmissing : fs.makeDirectory p = .error .notFound) (hparent : p.parent? = some q) :
    fs.makeDirectories (above + 1) p =
      match fs.makeDirectories above q with
      | (made, some e) => (made, some e)
      | (made, none) => made.ensure p := by
  rw [makeDirectories, if_neg (by simpa using hp), hmissing, hparent]
  rfl

/-- To make directories is to ensure the last one, unless those above are missing. -/
theorem makeDirectories_eq_ensure {above : Nat} (hp : p.text ≠ "")
    (h : fs.makeDirectory p = .error .notFound → p.parent? = none) :
    fs.makeDirectories (above + 1) p = fs.ensure p := by
  rw [makeDirectories, if_neg (by simpa using hp)]
  unfold ensure
  rcases hmake : fs.makeDirectory p with e | made
  · cases e with
    | notFound => rw [h hmake]
    | _ => rfl
  · rfl

/-- **Making all directories of a path** that keeps off the file goes the same way in both. -/
theorem AddsFile.makeDirectories (h : fs.AddsFile fs' target text) (above : Nat) (p : Path)
    (hp : p.text ≠ "" → fs.Avoids target p) :
    (fs'.makeDirectories above p).2 = (fs.makeDirectories above p).2 ∧
      (fs.makeDirectories above p).1.AddsFile (fs'.makeDirectories above p).1 target text := by
  induction above generalizing p with
  | zero => exact ⟨rfl, h⟩
  | succ above ih =>
      by_cases hempty : p.text = ""
      · rw [FileSystem.makeDirectories, FileSystem.makeDirectories, if_pos (by simpa using hempty),
          if_pos (by simpa using hempty)]
        exact ⟨rfl, h⟩
      have havoids := hp hempty
      -- the first attempt ends alike, so both go on in the same way
      have hsame := h.makeDirectory_eq_error_iff havoids (e := .notFound)
      by_cases hmissing : fs.makeDirectory p = .error .notFound ∧ p.parent?.isSome
      · obtain ⟨q, hparent⟩ := Option.isSome_iff_exists.mp hmissing.2
        obtain ⟨hresult, hadds⟩ := ih q fun hq =>
          avoids_parent? h.target_ne_nil havoids.notMem_trail hparent hq
        have hgrows := fs.grows_makeDirectories above q
        rw [makeDirectories_of_notFound hempty hmissing.1 hparent,
          makeDirectories_of_notFound hempty (hsame.mpr hmissing.1) hparent]
        rcases hmade : fs.makeDirectories above q with ⟨made, failed⟩
        rcases hmade' : fs'.makeDirectories above q with ⟨made', failed'⟩
        rw [hmade, hmade'] at hresult hadds
        rw [hmade] at hgrows
        obtain rfl : failed' = failed := hresult
        cases failed' with
        | some e => exact ⟨rfl, hadds⟩
        | none => exact hadds.ensure (havoids.of_current hgrows.current)
      · have hroot : fs.makeDirectory p = .error .notFound → p.parent? = none := by
          simpa [not_and] using hmissing
        rw [makeDirectories_eq_ensure hempty hroot,
          makeDirectories_eq_ensure hempty fun hfailed => hroot (hsame.mp hfailed)]
        exact h.ensure havoids

/-! ### Writing -/

/-- The path that is followed when a file is written. -/
def writePath (p : Path) : Path := if p.bare.text == "" then p else p.bare

/-- A file is written at its place, unless a directory is meant or stands there. -/
theorem write_of_locate {contents : String} (h : fs.locate (writePath p) = .ok location) :
    fs.write p contents =
      if p.bare = p ∧ fs.placeAt? location ≠ some .directory then
        .ok (fs.put location (.file (some contents)))
      else .error .isADirectory := by
  unfold write placeAt? Tree.placeAt?
  dsimp only
  change fs.locate (writePath p) >>= _ = _
  rw [h]
  change (if (p.bare != p) = true then _ else _) = _
  by_cases hbare : p.bare = p
  · rw [if_neg (by simp [hbare])]
    rcases fs.root.find? location with _ | text | entries <;> simp [Tree.place, hbare]
  · rw [if_pos (by simpa using hbare), if_neg (by simp [hbare])]

/-- Where a path does not lead, nothing is written. -/
theorem write_of_locate_error {contents : String} {e : FileError}
    (h : fs.locate (writePath p) = .error e) : fs.write p contents = .error e := by
  unfold write
  dsimp only
  change fs.locate (writePath p) >>= _ = _
  rw [h]
  rfl

/-- Empty segments stay where they are. -/
theorem trailFrom_replicate_empty (location : List String) (k : Nat) :
    trailFrom location (List.replicate k "") = List.replicate k location := by
  induction k with
  | zero => rfl
  | succ k ih =>
      rw [List.replicate_succ, trailFrom, List.replicate_succ]
      exact congrArg _ ih

/-- Slashes alone lead to the root. -/
theorem Sets.locate_writePath_eq (h : fs.Sets fs' target new) (htarget : target ≠ [])
    (hp : target ∉ fs.trail p.bare) : fs'.locate (writePath p) = fs.locate (writePath p) := by
  unfold writePath
  split
  · rename_i hempty
    obtain ⟨k, hk⟩ := p.exists_segments_bare
    have hbare : p.bare = ⟨""⟩ := congrArg Path.mk (beq_iff_eq.mp hempty)
    rw [hbare, show (⟨""⟩ : Path).segments = [""] from rfl] at hk
    rcases k with _ | k
    · -- the empty path leads nowhere
      have htext : p.text = "" := by
        rw [Path.text_eq_intercalate, hk]
        rfl
      unfold locate
      rw [if_pos (by simp [htext]), if_pos (by simp [htext])]
    · refine h.locate_eq ?_
      have habsolute := (Path.isAbsolute_iff p).mpr ⟨"", List.replicate k "", hk⟩
      unfold trail start
      rw [if_pos habsolute, hk, List.singleton_append, ← List.replicate_succ,
        trailFrom_replicate_empty]
      intro hmem
      exact htarget (List.eq_of_mem_replicate hmem)
  · exact h.locate_eq hp

/-- Two file systems are the same apart from one location. -/
structure AgreesOff (fs fs' : FileSystem) (target : List String) : Prop where
  current : fs'.current = fs.current
  placeAt? (location : List String) :
    location ≠ target → fs'.placeAt? location = fs.placeAt? location

/-- File systems with different things in one place agree off that place. -/
theorem Sets.agreesOff (h : fs.Sets fs' target new) : fs.AgreesOff fs' target where
  current := h.current
  placeAt? location hne := by rw [h.placeAt?, if_neg hne]

/-- **Writing to a path** that does not lead on from the file goes the same way in both. -/
theorem AddsFile.write (h : fs.AddsFile fs' target text) (hp : target ∉ fs.trail p.bare)
    (contents : String) :
    (∃ written written', fs.write p contents = .ok written ∧
      fs'.write p contents = .ok written' ∧ written.AgreesOff written' target) ∨
    ∃ e, fs.write p contents = .error e ∧ fs'.write p contents = .error e := by
  have hlocate := h.sets.locate_writePath_eq h.target_ne_nil hp
  rcases hfs : fs.locate (writePath p) with e | location <;> rw [hfs] at hlocate
  · exact .inr ⟨e, write_of_locate_error hfs, write_of_locate_error hlocate⟩
  · rw [write_of_locate hfs, write_of_locate hlocate]
    have hwritable_iff : p.bare = p ∧ fs'.placeAt? location ≠ some .directory ↔
        p.bare = p ∧ fs.placeAt? location ≠ some .directory :=
      and_congr_right fun _ => not_congr h.directory_iff
    by_cases hwritable : p.bare = p ∧ fs.placeAt? location ≠ some .directory
    · rw [if_pos hwritable, if_pos (hwritable_iff.mpr hwritable)]
      have hempty : (Tree.file (some contents)).entries = [] := rfl
      have hsets := (opens_of_locate hfs).sets_put hwritable.2 hempty
      have hsets' := (opens_of_locate hlocate).sets_put (mt h.directory_iff.mp hwritable.2) hempty
      refine .inl ⟨_, _, rfl, rfl, ?_, fun other hne => ?_⟩
      · rw [hsets'.current, hsets.current, h.sets.current]
      · rw [hsets'.placeAt?, hsets.placeAt?, h.sets.agreesOff.placeAt? other hne]
    · rw [if_neg hwritable, if_neg (mt hwritable_iff.mp hwritable)]
      exact .inr ⟨_, rfl, rfl⟩

end FileSystem

end StringHarvest
