import Mathlib.Data.List.Basic
import StringHarvest.Files.System
import StringHarvest.Proofs.Path.Segments
import StringHarvest.Proofs.Results

/-!
# File systems as maps of locations

A file system is a tree, and what its operations do is said about the map from locations to what
stands there: nothing, a directory, or a file with its text (`placeAt?`). What stands below a
directory is told by the longer locations.

The main facts are the equations of the changing operations through this map.

* `placeAt?_put`: putting a file or an empty directory into a directory changes one location.
* `makeDirectory_eq_ok` and `write_eq_ok`: an operation on a path that succeeds changes the location
  of the path and nothing else (`Sets`).
* `grows_makeDirectories`: making all directories of a path adds directories at the path and above
  it (`Grows`).

Paths keep their locations when directories are added (`Keeps.locate`), and if a path leads
somewhere, the paths above it lead to directories (`locate_of_isAbove`).
-/

namespace StringHarvest

/-- What stands at a location, without what stands below it. -/
inductive Place where
  | directory
  | file (text : Option String)
  deriving DecidableEq, Repr

namespace Tree

/-- A tree without what stands below its root. -/
def place : Tree → Place
  | .directory _ => .directory
  | .file text => .file text

/-- What stands at the end of a list of names. -/
def placeAt? (tree : Tree) (location : List String) : Option Place :=
  (tree.find? location).map place

/-- At its root, a tree is what it is. -/
@[simp] theorem placeAt?_nil (tree : Tree) : tree.placeAt? [] = some tree.place := rfl

/-- A place below a directory is a place in one of its entries. -/
@[simp] theorem placeAt?_directory_cons (entries : List (String × Tree)) (name : String)
    (rest : List String) :
    (directory entries).placeAt? (name :: rest) =
      (entries.lookup name).bind (·.placeAt? rest) := by
  unfold placeAt?
  rw [find?, child?, Tree.entries]
  rcases entries.lookup name with _ | child <;> rfl

/-- Only a directory is one. -/
theorem eq_directory_of_place {tree : Tree} (h : tree.place = .directory) :
    ∃ entries, tree = directory entries := by
  cases tree with
  | file text => cases h
  | directory entries => exact ⟨entries, rfl⟩

/-- Below a tree without entries nothing stands. -/
theorem placeAt?_cons_of_entries {tree : Tree} (h : tree.entries = []) (name : String)
    (rest : List String) : tree.placeAt? (name :: rest) = none := by
  unfold placeAt?
  rw [find?, child?, h]
  rfl

/-- Where something stands below, a directory stands. -/
theorem placeAt?_append {tree : Tree} (front back : List String) {found : Place}
    (h : tree.placeAt? (front ++ back) = some found) (hback : back ≠ []) :
    tree.placeAt? front = some .directory := by
  induction front generalizing tree with
  | nil =>
      rcases back with _ | ⟨name, back⟩
      · exact absurd rfl hback
      · cases tree with
        | file text => cases h
        | directory entries => rfl
  | cons name front ih =>
      cases tree with
      | file text => cases h
      | directory entries =>
          rw [List.cons_append, placeAt?_directory_cons] at h
          obtain ⟨child, hchild, h⟩ := Option.bind_eq_some_iff.mp h
          rw [placeAt?_directory_cons, hchild]
          exact ih h

/-! ### Entries -/

/-- An entry that was put is found. -/
theorem lookup_putEntry_self (name : String) (new : Tree) (entries : List (String × Tree)) :
    (putEntry name new entries).lookup name = some new := by
  induction entries with
  | nil => simp [putEntry]
  | cons entry entries ih =>
      obtain ⟨key, tree⟩ := entry
      by_cases hkey : key = name
      · simp [putEntry, hkey]
      · have hname : (name == key) = false := beq_false_of_ne (Ne.symm hkey)
        simp [putEntry, hkey, List.lookup_cons, hname, ih]

/-- The other ones are found as before. -/
theorem lookup_putEntry_of_ne {name other : String} (h : other ≠ name) (new : Tree)
    (entries : List (String × Tree)) :
    (putEntry name new entries).lookup other = entries.lookup other := by
  induction entries with
  | nil => simp [putEntry, List.lookup_cons, beq_false_of_ne h]
  | cons entry entries ih =>
      obtain ⟨key, tree⟩ := entry
      by_cases hkey : key = name
      · simp [putEntry, hkey, List.lookup_cons, beq_false_of_ne h]
      · simp [putEntry, hkey, List.lookup_cons, ih]

/-- Below a directory, an entry that is put decides about what starts with its name. -/
theorem placeAt?_putEntry (entries : List (String × Tree)) (name : String) (new : Tree)
    (other : String) (rest : List String) :
    (directory (putEntry name new entries)).placeAt? (other :: rest) =
      if other = name then new.placeAt? rest else (directory entries).placeAt? (other :: rest) := by
  rw [placeAt?_directory_cons, placeAt?_directory_cons]
  split
  · rename_i heq
    rw [heq, lookup_putEntry_self, Option.bind_some]
  · rename_i hne
    rw [lookup_putEntry_of_ne hne]

/-- **Putting changes one location.** What is put has nothing below it, it is put into a directory,
and no directory stands there before. -/
theorem placeAt?_put {tree new : Tree} {parent : List String} {name : String}
    (hparent : tree.placeAt? parent = some .directory)
    (hold : tree.placeAt? (parent ++ [name]) ≠ some .directory) (hnew : new.entries = [])
    (location : List String) :
    (tree.put new (parent ++ [name])).placeAt? location =
      if location = parent ++ [name] then some new.place else tree.placeAt? location := by
  induction parent generalizing tree location with
  | nil =>
      obtain ⟨entries, rfl⟩ := eq_directory_of_place (Option.some.inj hparent)
      rw [List.nil_append, put, put]
      rcases location with _ | ⟨other, rest⟩
      · rfl
      · rw [Tree.entries, placeAt?_putEntry]
        by_cases hother : other = name
        · subst hother
          rcases rest with _ | ⟨next, rest⟩
          · simp
          · -- below the new entry nothing stands, and below the old one nothing stood
            have hbefore : (directory entries).placeAt? (other :: next :: rest) = none := by
              by_contra hsome
              obtain ⟨found, hfound⟩ := Option.ne_none_iff_exists'.mp hsome
              exact hold (placeAt?_append [other] (next :: rest) hfound (List.cons_ne_nil _ _))
            rw [if_pos rfl, placeAt?_cons_of_entries hnew, if_neg (by simp), hbefore]
        · rw [if_neg hother, if_neg (by simp [hother])]
  | cons first parent ih =>
      have hroot := placeAt?_append [] (first :: parent) hparent (List.cons_ne_nil _ _)
      obtain ⟨entries, rfl⟩ := eq_directory_of_place (Option.some.inj hroot)
      rw [placeAt?_directory_cons] at hparent
      obtain ⟨child, hchild, hparent⟩ := Option.bind_eq_some_iff.mp hparent
      rw [List.cons_append, placeAt?_directory_cons, hchild, Option.bind_some] at hold
      rw [List.cons_append, put, child?, Tree.entries, hchild, Option.getD_some]
      rcases location with _ | ⟨other, rest⟩
      · rfl
      · rw [placeAt?_putEntry, ih hparent hold]
        by_cases hother : other = first
        · simp [hother, hchild]
        · rw [if_neg hother, if_neg (by simp [hother])]

end Tree

namespace FileSystem

variable {fs fs' : FileSystem} {p q : Path} {location : List String}

/-- What stands at a location. -/
def placeAt? (fs : FileSystem) (location : List String) : Option Place :=
  fs.root.placeAt? location

/-! ### Following paths -/

/-- The location to which a segment leads from a directory. -/
def move (location : List String) (segment : String) : List String :=
  if segment == "" || segment == "." then location
  else if segment == ".." then location.dropLast
  else location ++ [segment]

/-- A segment leads where the component leads that it stands for. -/
theorem move_eq (location : List String) (segment : String) :
    move location segment =
      match Path.component? segment with
      | some (.name name) => location ++ [name]
      | some .up => location.dropLast
      | _ => location := by
  unfold move Path.component?
  split
  · rfl
  · split <;> rfl

/-- A step leads on from a directory only. -/
theorem step_eq (fs : FileSystem) (location : List String) (segment : String) :
    fs.step location segment =
      match fs.placeAt? location with
      | none => .error .notFound
      | some (.file _) => .error .notADirectory
      | some .directory => .ok (move location segment) := by
  unfold step placeAt? Tree.placeAt? move
  rcases fs.root.find? location with _ | ⟨text | entries⟩
  · rfl
  · rfl
  · dsimp only [Option.map_some, Tree.place]
    split
    · rfl
    · split <;> rfl

/-- A segment can be followed exactly from a directory. -/
theorem step_eq_ok_iff {segment : String} {target : List String} :
    fs.step location segment = .ok target ↔
      fs.placeAt? location = some .directory ∧ target = move location segment := by
  rw [step_eq]
  rcases fs.placeAt? location with _ | _ | text <;> simp [eq_comm]

/-- The location where a path starts. -/
def start (fs : FileSystem) (p : Path) : List String := if p.isAbsolute then [] else fs.current

/-- Following a path takes one step for each of its segments. -/
theorem locate_eq_ok_iff :
    fs.locate p = .ok location ↔
      p.text ≠ "" ∧ p.segments.foldlM fs.step (fs.start p) = .ok location := by
  unfold locate start
  by_cases h : p.text = "" <;> simp [h]

/-- Something can stand at a location: it is a directory, or it is in one. -/
def Opens (fs : FileSystem) (location : List String) : Prop :=
  fs.placeAt? location = some .directory ∨
    ∃ parent name, location = parent ++ [name] ∧ fs.placeAt? parent = some .directory

/-- A step from a directory leads to an open location. -/
theorem opens_move (h : fs.placeAt? location = some .directory) (segment : String) :
    fs.Opens (move location segment) := by
  unfold move
  split
  · exact .inl h
  · split
    · rcases List.eq_nil_or_concat location with rfl | ⟨above, name, rfl⟩
      · exact .inl h
      · rw [List.concat_eq_append] at h ⊢
        rw [List.dropLast_concat]
        exact .inl (Tree.placeAt?_append above [name] h (List.cons_ne_nil _ _))
    · exact .inr ⟨location, segment, rfl, h⟩

/-- A path leads to an open location. -/
theorem opens_of_locate (h : fs.locate p = .ok location) : fs.Opens location := by
  obtain ⟨-, h⟩ := locate_eq_ok_iff.mp h
  -- the last segment decides
  obtain ⟨front, last, hlast⟩ := (List.eq_nil_or_concat p.segments).resolve_left p.segments_ne_nil
  rw [hlast, List.concat_eq_append, List.foldlM_append] at h
  obtain ⟨before, -, h⟩ := bind_eq_ok_iff.mp h
  rw [List.foldlM_cons] at h
  obtain ⟨target, hstep, h⟩ := bind_eq_ok_iff.mp h
  obtain rfl : target = location := Except.ok.inj h
  obtain ⟨hbefore, rfl⟩ := step_eq_ok_iff.mp hstep
  exact opens_move hbefore last

/-- The directories of one file system are directories of another one with the same current
directory. -/
def Keeps (fs fs' : FileSystem) : Prop :=
  fs'.current = fs.current ∧
    ∀ location, fs.placeAt? location = some .directory → fs'.placeAt? location = some .directory

/-- A way that could be gone can still be gone where everything is kept. -/
theorem Keeps.foldlM_step (h : fs.Keeps fs') {segments before : List String}
    (hsegments : segments.foldlM fs.step before = .ok location) :
    segments.foldlM fs'.step before = .ok location := by
  induction segments generalizing before with
  | nil => exact hsegments
  | cons segment segments ih =>
      rw [List.foldlM_cons] at hsegments ⊢
      obtain ⟨next, hstep, hrest⟩ := bind_eq_ok_iff.mp hsegments
      obtain ⟨hdirectory, hnext⟩ := step_eq_ok_iff.mp hstep
      exact bind_eq_ok_iff.mpr ⟨next, step_eq_ok_iff.mpr ⟨h.2 _ hdirectory, hnext⟩, ih hrest⟩

/-- A path leads to the same location when the directories are kept. -/
theorem Keeps.locate (h : fs.Keeps fs') (hp : fs.locate p = .ok location) :
    fs'.locate p = .ok location := by
  rw [locate_eq_ok_iff] at hp ⊢
  have hstart : fs'.start p = fs.start p := by
    unfold start
    rw [h.1]
  rw [hstart]
  exact ⟨hp.1, h.foldlM_step hp.2⟩

/-- **If a path leads somewhere, its parent leads to a directory**, unless the parent is the empty
path. -/
theorem locate_parent? (h : fs.locate p = .ok location) (hparent : p.parent? = some q)
    (hq : q.text ≠ "") :
    ∃ above, fs.locate q = .ok above ∧ fs.placeAt? above = some .directory := by
  obtain ⟨-, h⟩ := locate_eq_ok_iff.mp h
  obtain ⟨habsolute, dropped, hne, hsegments⟩ := Path.continues_parent? hparent hq
  have hstart : fs.start q = fs.start p := by
    unfold start
    rw [habsolute]
  obtain ⟨segment, dropped, rfl⟩ := List.exists_cons_of_ne_nil hne
  rcases hsegments with hp | ⟨hroot, hp⟩
  · rw [hp, List.foldlM_append] at h
    obtain ⟨above, habove, h⟩ := bind_eq_ok_iff.mp h
    obtain ⟨target, hstep, -⟩ := bind_eq_ok_iff.mp h
    exact ⟨above, locate_eq_ok_iff.mpr ⟨hq, hstart ▸ habove⟩, (step_eq_ok_iff.mp hstep).1⟩
  · -- the two empty segments of the root stay where they start
    rw [hp] at h
    obtain ⟨target, hstep, -⟩ := bind_eq_ok_iff.mp h
    obtain ⟨hdirectory, htarget⟩ := step_eq_ok_iff.mp hstep
    have hstay : fs.step (fs.start q) "" = .ok (fs.start q) :=
      step_eq_ok_iff.mpr ⟨hstart ▸ hdirectory, rfl⟩
    refine ⟨fs.start q, locate_eq_ok_iff.mpr ⟨hq, ?_⟩, hstart ▸ hdirectory⟩
    rw [hroot, List.foldlM_cons]
    refine bind_eq_ok_iff.mpr ⟨_, hstay, ?_⟩
    rw [List.foldlM_cons]
    exact bind_eq_ok_iff.mpr ⟨_, hstay, rfl⟩

/-- **If a path leads somewhere, all paths above it lead to directories**, the empty path apart. -/
theorem locate_of_isAbove (h : fs.locate p = .ok location) (hq : q.IsAbove p)
    (htext : q.text ≠ "") :
    ∃ above, fs.locate q = .ok above ∧ fs.placeAt? above = some .directory := by
  induction hq using Relation.TransGen.head_induction_on with
  | single hparent => exact locate_parent? h hparent htext
  | head hparent hr ih =>
      rename_i q r
      -- the empty path has no parent
      have hr : r.text ≠ "" := by
        intro hempty
        obtain rfl : r = ⟨""⟩ := congrArg Path.mk hempty
        cases hparent
      obtain ⟨above, habove, -⟩ := ih hr
      exact locate_parent? habove hparent htext

/-! ### Reading -/

/-- Nothing stands where nothing is found. -/
theorem placeAt?_eq_none_iff : fs.placeAt? location = none ↔ fs.root.find? location = none :=
  Option.map_eq_none_iff

/-- A file stands where it is found. -/
theorem placeAt?_eq_file_iff {text : Option String} :
    fs.placeAt? location = some (.file text) ↔ fs.root.find? location = some (.file text) := by
  unfold placeAt? Tree.placeAt?
  rcases fs.root.find? location with _ | ⟨other | entries⟩ <;> simp [Tree.place]

/-- A directory stands where one is found. -/
theorem placeAt?_eq_directory_iff :
    fs.placeAt? location = some .directory ↔
      ∃ entries, fs.root.find? location = some (.directory entries) := by
  unfold placeAt? Tree.placeAt?
  rcases fs.root.find? location with _ | ⟨other | entries⟩ <;> simp [Tree.place]

/-- What a path leads to is what is found at its place. -/
theorem entry_of_locate {tree : Tree} (h : fs.locate p = .ok location)
    (hfind : fs.root.find? location = some tree) : fs.entry p = .ok tree := by
  unfold entry
  refine bind_eq_ok_iff.mpr ⟨location, h, ?_⟩
  rw [hfind]

/-- A file that a path leads to can be read. -/
theorem readText_of_placeAt? {text : String} (h : fs.locate p = .ok location)
    (hfile : fs.placeAt? location = some (.file (some text))) : fs.readText p = .ok text :=
  bind_eq_ok_iff.mpr ⟨_, entry_of_locate h (placeAt?_eq_file_iff.mp hfile), rfl⟩

/-- A directory that a path leads to is one. -/
theorem isDirectory_of_placeAt? (h : fs.locate p = .ok location)
    (hdirectory : fs.placeAt? location = some .directory) : fs.isDirectory p = true := by
  obtain ⟨entries, hentries⟩ := placeAt?_eq_directory_iff.mp hdirectory
  unfold isDirectory entry?
  rw [entry_of_locate h hentries]
  rfl

/-! ### Changes -/

/-- One location changes and everything else stays. -/
structure Sets (fs fs' : FileSystem) (location : List String) (new : Place) : Prop where
  current : fs'.current = fs.current
  placeAt? (other : List String) :
    fs'.placeAt? other = if other = location then some new else fs.placeAt? other

/-- Putting something without entries at an open location changes that location. -/
theorem Opens.sets_put (h : fs.Opens location) (hold : fs.placeAt? location ≠ some .directory)
    {new : Tree} (hnew : new.entries = []) : fs.Sets (fs.put location new) location new.place := by
  rcases h with h | ⟨parent, name, rfl, hparent⟩
  · exact absurd h hold
  · exact ⟨rfl, Tree.placeAt?_put hparent hold hnew⟩

/-- Where no directory stood before, a change keeps the directories. -/
theorem Sets.keeps {new : Place} (h : fs.Sets fs' location new)
    (hold : fs.placeAt? location ≠ some .directory) : fs.Keeps fs' := by
  refine ⟨h.current, fun other hother => ?_⟩
  have hne : other ≠ location := by
    rintro rfl
    exact hold hother
  rw [h.placeAt?, if_neg hne, hother]

/-- Making a directory adds one at the location of the path, where nothing stood. -/
theorem makeDirectory_eq_ok (h : fs.makeDirectory p = .ok fs') :
    ∃ location, fs.locate p = .ok location ∧ fs.placeAt? location = none ∧
      fs.Sets fs' location .directory := by
  unfold makeDirectory at h
  obtain ⟨location, hlocate, h⟩ := bind_eq_ok_iff.mp h
  split at h
  · cases h
  · rename_i hnone
    obtain rfl := Except.ok.inj h
    have hplace := placeAt?_eq_none_iff.mpr hnone
    exact ⟨location, hlocate, hplace, (opens_of_locate hlocate).sets_put (by simp [hplace]) rfl⟩

/-- Writing a file puts its text at the location of the path, where no directory stood. -/
theorem write_eq_ok {text : String} (h : fs.write p text = .ok fs') :
    ∃ location, fs.locate p = .ok location ∧ fs.placeAt? location ≠ some .directory ∧
      fs.Sets fs' location (.file (some text)) := by
  unfold write at h
  obtain ⟨location, hlocate, h⟩ := bind_eq_ok_iff.mp h
  split at h
  · cases h
  · rename_i hbare
    -- a path with a slash at its end is refused, so it is the path itself that was followed
    rw [bne_iff_ne, ne_eq, not_not] at hbare
    rw [hbare, ite_self] at hlocate
    split at h
    · cases h
    · rename_i hfile
      obtain rfl := Except.ok.inj h
      have hold : fs.placeAt? location ≠ some .directory := by
        rw [ne_eq, placeAt?_eq_directory_iff]
        rintro ⟨entries, hentries⟩
        exact hfile entries hentries
      exact ⟨location, hlocate, hold, (opens_of_locate hlocate).sets_put hold rfl⟩

/-! ### Making all directories of a path -/

/-- The only change is that there are new directories where nothing was, to which a path or a path
above it leads. -/
structure Grows (fs fs' : FileSystem) (p : Path) : Prop where
  current : fs'.current = fs.current
  placeAt? (location : List String) :
    fs'.placeAt? location = fs.placeAt? location ∨
      fs.placeAt? location = none ∧ fs'.placeAt? location = some .directory ∧
        ∃ q, (q = p ∨ q.IsAbove p) ∧ fs'.locate q = .ok location

/-- A file system grows by nothing. -/
theorem Grows.refl (fs : FileSystem) (p : Path) : fs.Grows fs p := ⟨rfl, fun _ => .inl rfl⟩

/-- A file system that grows keeps what it has. -/
theorem Grows.keeps (h : fs.Grows fs' p) : fs.Keeps fs' := by
  refine ⟨h.current, fun location hlocation => ?_⟩
  rcases h.placeAt? location with heq | ⟨hnone, -⟩
  · rw [heq, hlocation]
  · rw [hnone] at hlocation
    cases hlocation

/-- To grow twice is to grow. -/
theorem Grows.trans {fs'' : FileSystem} (h : fs.Grows fs' p) (h' : fs'.Grows fs'' p) :
    fs.Grows fs'' p := by
  refine ⟨h'.current.trans h.current, fun location => ?_⟩
  rcases h.placeAt? location with heq | ⟨hnone, hnew, q, hq, hlocate⟩
  · rw [← heq]
    exact h'.placeAt? location
  · rcases h'.placeAt? location with heq' | ⟨hnone', -⟩
    · exact .inr ⟨hnone, heq'.trans hnew, q, hq, h'.keeps.locate hlocate⟩
    · rw [hnew] at hnone'
      cases hnone'

/-- Directories above the parent of a path are above the path. -/
theorem Grows.of_parent (h : fs.Grows fs' q) (hparent : p.parent? = some q) : fs.Grows fs' p := by
  refine ⟨h.current, fun location => ?_⟩
  rcases h.placeAt? location with heq | ⟨hnone, hnew, r, hr, hlocate⟩
  · exact .inl heq
  · refine .inr ⟨hnone, hnew, r, .inr ?_, hlocate⟩
    rcases hr with rfl | hr
    · exact .single hparent
    · exact .tail hr hparent

/-- To make a directory is to grow. -/
theorem grows_of_makeDirectory (h : fs.makeDirectory p = .ok fs') : fs.Grows fs' p := by
  obtain ⟨location, hlocate, hnone, hsets⟩ := makeDirectory_eq_ok h
  refine ⟨hsets.current, fun other => ?_⟩
  by_cases hother : other = location
  · subst hother
    have hkeeps := hsets.keeps (by simp [hnone])
    exact .inr ⟨hnone, by rw [hsets.placeAt?, if_pos rfl], p, .inl rfl, hkeeps.locate hlocate⟩
  · exact .inl (by rw [hsets.placeAt?, if_neg hother])

/-- **Making all directories of a path** adds directories at the path and above it and changes
nothing else, whether it succeeds or not. -/
theorem grows_makeDirectories (fs : FileSystem) (above : Nat) (p : Path) :
    fs.Grows (fs.makeDirectories above p).1 p := by
  induction above generalizing p with
  | zero => exact Grows.refl fs p
  | succ above ih =>
      unfold makeDirectories
      split
      · exact Grows.refl fs p
      · split
        · rename_i hmake
          exact grows_of_makeDirectory hmake
        · rename_i parent hmake hparent
          have hgrows := (ih parent).of_parent hparent
          -- the parent first, and then the directory itself
          split
          · rename_i hrest
            rwa [hrest] at hgrows
          · rename_i hrest
            rw [hrest] at hgrows
            split
            · rename_i hmake'
              exact hgrows.trans (grows_of_makeDirectory hmake')
            · exact hgrows
        · exact Grows.refl fs p

end FileSystem

end StringHarvest
