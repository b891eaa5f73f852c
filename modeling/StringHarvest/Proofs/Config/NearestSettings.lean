import StringHarvest.Proofs.Config.CurrentSettings
import StringHarvest.Proofs.Path.Parents

/-!
# The nearest settings

The search for settings climbs from a directory to those above it. `Climbs` is the whole way: every
path is the one before it without its last component, until there is none to drop. The bound of the
search is the number of segments, and there are no more components than that, so it never cuts the
way short (`climbs_searchPath`).

**Main theorem** (`find?_nearest`): the file that is found is the one in the first directory on the
way that has an entry of its name, unless a directory before that has a `.git` entry. In particular
a file beside `.git` is found, and none above the nearest `.git` is.
-/

namespace StringHarvest

/-! ### The way up -/

namespace Path

variable {p q : Path} {paths : List Path}

/-- The way up from a path to where no component is left to drop. -/
inductive Climbs : Path → List Path → Prop where
  | top {p : Path} (hp : p.components = [] ∨ p.components = [.root]) : Climbs p [p]
  | step {p q : Path} {paths : List Path} (hparent : p.parent? = some q)
    (hdrops : q.components = p.components.dropLast) (hpaths : Climbs q paths) :
    Climbs p (p :: paths)

/-- A path with a parent has components. -/
theorem components_ne_nil_of_parent? (h : p.parent? = some q) : p.components ≠ [] := by
  intro hnil
  rw [parent?_eq_none_iff.mpr (.inl hnil)] at h
  cases h

/-- A parent has fewer components. -/
theorem length_components_parent? (h : p.parent? = some q) :
    q.components.length < p.components.length := by
  have hpos := List.length_pos_iff.mpr (components_ne_nil_of_parent? h)
  rw [components_parent? h, List.length_dropLast]
  omega

/-- There is only one way up. -/
theorem Climbs.unique {others : List Path} (h : Climbs p paths) (h' : Climbs p others) :
    paths = others := by
  induction h generalizing others with
  | top hp =>
      cases h' with
      | top => rfl
      | step hparent => cases (parent?_eq_none_iff.mpr hp).symm.trans hparent
  | step hparent _ _ ih =>
      cases h' with
      | top hp => cases (parent?_eq_none_iff.mpr hp).symm.trans hparent
      | step hother _ hpaths =>
          cases hparent.symm.trans hother
          rw [ih hpaths]

/-- There are no more components than segments. -/
theorem length_components_le (p : Path) : p.components.length ≤ p.segments.length := by
  obtain ⟨first, rest, hp⟩ := List.exists_cons_of_ne_nil p.segments_ne_nil
  have hrest := List.length_filterMap_le component? rest
  rw [components_eq hp, hp, List.length_append, List.length_cons]
  rcases leading_cases p.isAbsolute first with hnil | ⟨c, hc, -⟩
  · rw [hnil, List.length_nil]
    omega
  · rw [hc, List.length_singleton]
    omega

/-- Paths get shorter on the way. -/
theorem Climbs.length_lt (h : Climbs p paths) :
    paths.Pairwise (fun q r => r.components.length < q.components.length) ∧
      ∀ q ∈ paths, q.components.length ≤ p.components.length := by
  induction h with
  | top hp => simp
  | step hparent hdrops hpaths ih =>
      obtain ⟨hpairwise, hle⟩ := ih
      have hlt := length_components_parent? hparent
      have hbelow := fun r hr => (hle r hr).trans_lt hlt
      exact ⟨List.pairwise_cons.mpr ⟨hbelow, hpairwise⟩,
        List.forall_mem_cons.mpr ⟨le_rfl, fun r hr => (hbelow r hr).le⟩⟩

end Path

/-! ### Entries of directories -/

namespace FileSystem

variable {fs : FileSystem} {p : Path}

/-- A path leads to a location. The empty path leads to the current directory. -/
def Leads (fs : FileSystem) (p : Path) (location : List String) : Prop :=
  if p.text = "" then location = fs.current else fs.locate p = .ok location

/-- The directory to which a path leads has an entry of a name. -/
def HasEntry (fs : FileSystem) (directory : Path) (name : String) : Prop :=
  ∃ location, fs.Leads directory location ∧ fs.placeAt? (location ++ [name]) ≠ none

/-- A path exists if it leads to a place where something stands. -/
theorem exists?_iff : fs.exists? p = true ↔
    ∃ location, fs.locate p = .ok location ∧ fs.placeAt? location ≠ none := by
  rcases hlocate : fs.locate p with e | location
  · have hnone : fs.exists? p = false := by
      unfold exists? entry? entry
      rw [hlocate]
      rfl
    simp [hnone]
  · rw [exists?_of_locate hlocate, Option.isSome_iff_ne_none]
    simp

/-- A segment that is left open does not matter on the way to a directory. -/
theorem foldlM_openSegments {location start : List String}
    (h : fs.placeAt? location = some .directory) :
    p.segments.foldlM fs.step start = .ok location ↔
      p.openSegments.foldlM fs.step start = .ok location := by
  obtain ⟨-, hsegments | hsegments⟩ := p.segments_eq_openSegments
  · rw [hsegments]
  rw [hsegments, List.foldlM_append]
  constructor
  · intro hall
    obtain ⟨before, hbefore, hlast⟩ := bind_eq_ok_iff.mp hall
    obtain ⟨target, hstep, hend⟩ := bind_eq_ok_iff.mp hlast
    cases hend
    obtain ⟨-, rfl⟩ := step_eq_ok_iff.mp hstep
    exact hbefore
  · intro hopen
    have hstay : fs.step location "" = .ok location := step_eq_ok_iff.mpr ⟨h, rfl⟩
    exact bind_eq_ok_iff.mpr ⟨location, hopen, bind_eq_ok_iff.mpr ⟨location, hstay, rfl⟩⟩

/-- The last step of a path leads from a directory to a place in it. -/
theorem foldlM_step_last {front location start : List String} {name : String}
    (hname : Path.isName name = true) :
    (front ++ [name]).foldlM fs.step start = .ok location ↔
      ∃ above, front.foldlM fs.step start = .ok above ∧ fs.placeAt? above = some .directory ∧
        location = above ++ [name] := by
  rw [List.foldlM_append, bind_eq_ok_iff]
  refine exists_congr fun above => and_congr_right fun _ => ?_
  have hlast : [name].foldlM fs.step above = fs.step above name := by
    rw [List.foldlM_cons]
    rcases fs.step above name with e | target <;> rfl
  rw [hlast, step_eq_ok_iff, move_of_isName hname]

/-- A name below a path is followed from the directory to which the path leads. -/
theorem locate_join_iff {name : String} (hname : Path.isName name = true) (directory : Path)
    {location : List String} :
    fs.locate (directory.join ⟨name⟩) = .ok location ↔
      ∃ above, fs.Leads directory above ∧ fs.placeAt? above = some .directory ∧
        location = above ++ [name] := by
  obtain ⟨hempty, -, -, hslash⟩ := Path.isName_iff.mp hname
  have hrelative := Path.isAbsolute_of_slash_notMem hslash
  have hsegments := Path.segments_of_slash_notMem hslash
  unfold Leads
  rw [locate_eq_ok_iff]
  by_cases htext : directory.text = ""
  · have hstart : fs.start ⟨name⟩ = fs.current := if_neg (by simp [hrelative])
    rw [Path.join_of_empty htext, hsegments, hstart, ← List.nil_append [name],
      foldlM_step_last hname]
    simp only [List.foldlM_nil, if_pos htext, ne_eq, hempty, not_false_eq_true, true_and]
    refine exists_congr fun above => and_congr_left fun _ => ?_
    exact ⟨fun h => (Except.ok.inj h).symm, fun h => congrArg _ h.symm⟩
  · have hstart : fs.start (directory.join ⟨name⟩) = fs.start directory := by
      unfold start
      rw [Path.isAbsolute_join hrelative htext]
    rw [Path.segments_join hrelative htext, hsegments, hstart, foldlM_step_last hname]
    simp only [ne_eq, Path.join_text_ne hrelative htext, not_false_eq_true, true_and,
      locate_eq_ok_iff, htext]
    refine exists_congr fun above => ?_
    exact ⟨fun ⟨hopen, hdirectory, heq⟩ =>
        ⟨(foldlM_openSegments hdirectory).mpr hopen, hdirectory, heq⟩,
      fun ⟨hall, hdirectory, heq⟩ => ⟨(foldlM_openSegments hdirectory).mp hall, hdirectory, heq⟩⟩

/-- **Something stands at a name below a path** exactly if the directory there has such an entry. -/
theorem exists?_join_iff {name : String} (hname : Path.isName name = true) (directory : Path) :
    fs.exists? (directory.join ⟨name⟩) = true ↔ fs.HasEntry directory name := by
  rw [exists?_iff]
  constructor
  · rintro ⟨location, hlocate, hplace⟩
    obtain ⟨above, hleads, -, rfl⟩ := (locate_join_iff hname directory).mp hlocate
    exact ⟨above, hleads, hplace⟩
  · rintro ⟨above, hleads, hplace⟩
    obtain ⟨found, hfound⟩ := Option.ne_none_iff_exists'.mp hplace
    have hdirectory := Tree.placeAt?_append above [name] hfound (List.cons_ne_nil _ _)
    exact ⟨_, (locate_join_iff hname directory).mpr ⟨above, hleads, hdirectory, rfl⟩, hplace⟩

end FileSystem

/-! ### The search -/

namespace Config

variable {fs : FileSystem} {found : Path} {directories : List Path}

/-- The mark of a repository is a name. -/
theorem isName_repositoryMark : Path.isName repositoryMark = true := by decide +kernel

/-- A bound that is not less than the number of components does not cut the way short. -/
theorem climbs_chain {above : Nat} {p : Path} (h : p.components.length ≤ above) :
    p.Climbs (chain above p) := by
  induction above generalizing p with
  | zero => exact .top (.inl (List.eq_nil_of_length_eq_zero (Nat.le_zero.mp h)))
  | succ above ih =>
      unfold chain
      split
      · rename_i q hparent
        have hlt := Path.length_components_parent? hparent
        exact .step hparent (Path.components_parent? hparent) (ih (by omega))
      · rename_i hnone
        exact .top (Path.parent?_eq_none_iff.mp hnone)

/-- The search goes all the way up. -/
theorem climbs_searchPath (fs : FileSystem) (start : Path) :
    ((fs.absolute? start).getD start).Climbs (searchPath fs start) := by
  refine climbs_chain ?_
  have hle := ((fs.absolute? start).getD start).length_components_le
  omega

/-- The search stops at a directory: it has the file, and those before it neither the file
nor the mark of a repository. -/
structure StopsAt (fs : FileSystem) (before : List Path) (directory : Path) : Prop where
  hasFile : fs.HasEntry directory fileName
  passes : ∀ d ∈ before, ¬ fs.HasEntry d fileName ∧ ¬ fs.HasEntry d repositoryMark

/-- The first directory has the file, or it has neither the file nor the mark and is passed. -/
theorem findIn_cons_eq_some_iff {d : Path} {rest : List Path} : findIn fs (d :: rest) = some found ↔
    fs.HasEntry d fileName ∧ found = d.join ⟨fileName⟩ ∨
      (¬ fs.HasEntry d fileName ∧ ¬ fs.HasEntry d repositoryMark) ∧
      findIn fs rest = some found := by
  rw [findIn, ← FileSystem.exists?_join_iff isName_fileName d,
    ← FileSystem.exists?_join_iff isName_repositoryMark d]
  split
  · rw [Option.some_inj, eq_comm]
    simp [*]
  · split <;> simp [*]

/-- The first directory does not have the file, and it has the mark or is passed. -/
theorem findIn_cons_eq_none_iff {d : Path} {rest : List Path} : findIn fs (d :: rest) = none ↔
    ¬ fs.HasEntry d fileName ∧ (fs.HasEntry d repositoryMark ∨ findIn fs rest = none) := by
  rw [findIn, ← FileSystem.exists?_join_iff isName_fileName d,
    ← FileSystem.exists?_join_iff isName_repositoryMark d]
  split
  · simp [*]
  · split <;> simp [*]

/-- **What is found** on a way through directories. -/
theorem findIn_eq_some_iff : findIn fs directories = some found ↔
    ∃ before directory after, directories = before ++ directory :: after ∧
      found = directory.join ⟨fileName⟩ ∧ StopsAt fs before directory := by
  induction directories with
  | nil => simp [findIn]
  | cons d rest ih =>
      rw [findIn_cons_eq_some_iff, ih]
      constructor
      · rintro (⟨hfile, rfl⟩ | ⟨hpasses, before, directory, after, rfl, rfl, hstops⟩)
        · exact ⟨[], d, rest, rfl, rfl, hfile, List.forall_mem_nil _⟩
        · refine ⟨d :: before, directory, after, rfl, rfl, hstops.hasFile, ?_⟩
          exact List.forall_mem_cons.mpr ⟨hpasses, hstops.passes⟩
      · rintro ⟨_ | ⟨e, before⟩, directory, after, heq, rfl, hstops⟩
        · cases heq
          exact .inl ⟨hstops.hasFile, rfl⟩
        · cases heq
          obtain ⟨hpasses, hbefore⟩ := List.forall_mem_cons.mp hstops.passes
          exact .inr ⟨hpasses, before, directory, after, rfl, rfl, hstops.hasFile, hbefore⟩

/-- Nothing is found exactly if every directory that has the file comes behind the mark of a
repository. -/
theorem findIn_eq_none_iff : findIn fs directories = none ↔
    ∀ before directory after, directories = before ++ directory :: after →
      fs.HasEntry directory fileName → ∃ d ∈ before, fs.HasEntry d repositoryMark := by
  induction directories with
  | nil => simp [findIn]
  | cons d rest ih =>
      rw [findIn_cons_eq_none_iff, ih]
      constructor
      · rintro ⟨hfile, hrest⟩ (_ | ⟨e, before⟩) directory after heq hhas
        · cases heq
          exact absurd hhas hfile
        · cases heq
          rcases hrest with hmark | hrest
          · exact ⟨d, List.mem_cons_self, hmark⟩
          · obtain ⟨m, hm, hmark⟩ := hrest before directory after rfl hhas
            exact ⟨m, List.mem_cons_of_mem d hm, hmark⟩
      · intro h
        constructor
        · intro hfile
          obtain ⟨m, hm, -⟩ := h [] d rest rfl hfile
          cases hm
        · refine or_iff_not_imp_left.mpr fun hunmarked before directory after heq hhas => ?_
          obtain ⟨m, hm, hmark⟩ := h (d :: before) directory after (congrArg (d :: ·) heq) hhas
          rcases List.mem_cons.mp hm with rfl | hm
          · exact absurd hmark hunmarked
          · exact ⟨m, hm, hmark⟩

/-- What is found does not stand behind a mark. -/
theorem exists_of_findIn_eq_some {before after : List Path} {directory : Path}
    (hmark : fs.HasEntry directory repositoryMark)
    (hfound : findIn fs (before ++ directory :: after) = some found) :
    ∃ d ∈ before ++ [directory], found = d.join ⟨fileName⟩ := by
  induction before with
  | nil =>
      rcases findIn_cons_eq_some_iff.mp hfound with ⟨-, rfl⟩ | ⟨⟨-, hunmarked⟩, -⟩
      · exact ⟨directory, List.mem_singleton_self _, rfl⟩
      · exact absurd hmark hunmarked
  | cons e before ih =>
      rcases findIn_cons_eq_some_iff.mp hfound with ⟨-, rfl⟩ | ⟨-, hrest⟩
      · exact ⟨e, List.mem_cons_self, rfl⟩
      · obtain ⟨d, hd, rfl⟩ := ih hrest
        exact ⟨d, List.mem_cons_of_mem e hd, rfl⟩

/-- Nothing above a mark is found. -/
theorem findIn_ne_of_mem_after {p : Path} (hclimbs : p.Climbs directories)
    {before after : List Path} {directory d : Path}
    (hsplit : directories = before ++ directory :: after)
    (hmark : fs.HasEntry directory repositoryMark) (hd : d ∈ after) :
    findIn fs directories ≠ some (d.join ⟨fileName⟩) := by
  intro hfound
  obtain ⟨lower, hlower, hjoin⟩ := exists_of_findIn_eq_some hmark (hsplit ▸ hfound)
  -- paths up to the mark are longer than those that come behind it
  have hpairwise := hclimbs.length_lt.1
  rw [hsplit, ← List.singleton_append, ← List.append_assoc] at hpairwise
  have hlonger := (List.pairwise_append.mp hpairwise).2.2 lower hlower d hd
  have hcomponents := congrArg Path.components hjoin
  rw [Path.components_join_name isName_fileName,
    Path.components_join_name isName_fileName] at hcomponents
  rw [List.append_cancel_right hcomponents] at hlonger
  exact lt_irrefl _ hlonger

/-- **The nearest settings.** From a directory, which is made absolute if it is there, one way
leads up. The file that is found is that of the first directory on it with an entry of its name, if
none before that has a `.git` entry; otherwise nothing is found. So a file beside the nearest
`.git` is found, and none above it. -/
theorem find?_nearest (fs : FileSystem) (start : Path) :
    let first := (fs.absolute? start).getD start
    (∃ directories, first.Climbs directories) ∧
    ∀ directories, first.Climbs directories →
      (∀ found, find? fs start = some found ↔
        ∃ before directory after, directories = before ++ directory :: after ∧
          found = directory.join ⟨fileName⟩ ∧ StopsAt fs before directory) ∧
      (find? fs start = none ↔
        ∀ before directory after, directories = before ++ directory :: after →
          fs.HasEntry directory fileName → ∃ d ∈ before, fs.HasEntry d repositoryMark) ∧
      ∀ before directory after, directories = before ++ directory :: after →
        fs.HasEntry directory repositoryMark →
          (StopsAt fs before directory → find? fs start = some (directory.join ⟨fileName⟩)) ∧
          ∀ d ∈ after, find? fs start ≠ some (d.join ⟨fileName⟩) := by
  intro first
  have hsearch := climbs_searchPath fs start
  refine ⟨⟨_, hsearch⟩, fun directories hclimbs => ?_⟩
  have hfind : find? fs start = findIn fs directories := by rw [find?, hsearch.unique hclimbs]
  rw [hfind]
  refine ⟨fun found => findIn_eq_some_iff, findIn_eq_none_iff, ?_⟩
  intro before directory after hsplit hmark
  refine ⟨fun hstops => ?_, fun d hd => findIn_ne_of_mem_after hclimbs hsplit hmark hd⟩
  exact findIn_eq_some_iff.mpr ⟨before, directory, after, hsplit, rfl, hstops⟩

/-- From a directory below a repository the file beside `.git` is found, and not the one above. -/
theorem find?_nearest_besideMark :
    let fs : FileSystem := ⟨.directory [(fileName, .file (some "")),
      ("repo", .directory [(repositoryMark, .directory []), (fileName, .file (some "")),
        ("src", .directory [])])], ["repo"]⟩
    find? fs ⟨"src"⟩ = some ((⟨"/repo"⟩ : Path).join ⟨fileName⟩) ∧
    find? fs ⟨"src"⟩ ≠ some ((⟨"/"⟩ : Path).join ⟨fileName⟩) := by
  intro fs
  have hfirst : (fs.absolute? ⟨"src"⟩).getD ⟨"src"⟩ = ⟨"/repo/src"⟩ := by decide +kernel
  have hclimbs : ((fs.absolute? ⟨"src"⟩).getD ⟨"src"⟩).Climbs
      [⟨"/repo/src"⟩, ⟨"/repo"⟩, ⟨"/"⟩] := by
    rw [hfirst]
    exact .step (by decide +kernel) (by decide +kernel)
      (.step (by decide +kernel) (by decide +kernel) (.top (by decide +kernel)))
  have hentry : ∀ {directory name}, Path.isName name = true →
      fs.exists? (directory.join ⟨name⟩) = true → fs.HasEntry directory name :=
    fun hname => (FileSystem.exists?_join_iff hname _).mp
  have hnoEntry : ∀ {directory name}, Path.isName name = true →
      fs.exists? (directory.join ⟨name⟩) = false → ¬ fs.HasEntry directory name := by
    intro directory name hname hfalse hhas
    rw [(FileSystem.exists?_join_iff hname _).mpr hhas] at hfalse
    cases hfalse
  have hmark : fs.HasEntry ⟨"/repo"⟩ repositoryMark :=
    hentry isName_repositoryMark (by decide +kernel)
  have hstops : StopsAt fs [⟨"/repo/src"⟩] ⟨"/repo"⟩ := by
    refine ⟨hentry isName_fileName (by decide +kernel), List.forall_mem_singleton.mpr ⟨?_, ?_⟩⟩
    · exact hnoEntry isName_fileName (by decide +kernel)
    · exact hnoEntry isName_repositoryMark (by decide +kernel)
  obtain ⟨-, -, hbeside⟩ := (find?_nearest fs ⟨"src"⟩).2 _ hclimbs
  obtain ⟨hfound, habove⟩ := hbeside [⟨"/repo/src"⟩] ⟨"/repo"⟩ [⟨"/"⟩] rfl hmark
  exact ⟨hfound hstops, habove _ (List.mem_singleton_self _)⟩

end Config

end StringHarvest
