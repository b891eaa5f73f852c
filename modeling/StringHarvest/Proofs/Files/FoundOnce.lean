import StringHarvest.Proofs.Files.FoundPaths

/-!
# Which files are found twice

A file that an earlier source gave is not repeated, where files are told apart by the components
of their paths. So every spelling is kept once (`Collects`), and a file is there twice exactly if
the sources spell it in two ways.

**Main theorem** (`discover_target_nodup_iff`): no two of the files lead to the same place exactly
if any two paths that the sources give and that lead to the same place have the same components. If
no segment of a source leads up, there is one way left to spell a file twice: a source that is no
pattern and whose path starts with a `.`, beside a source that does not write this `.`.
-/

namespace StringHarvest

namespace Discovered

/-! ### What is kept -/

/-- The files that are kept have the components of all that was found, and each of them once. -/
structure Collects (found files : List Path) : Prop where
  nodup : (files.map Path.components).Nodup
  mem_iff (components : List Component) :
    components ∈ files.map Path.components ↔ components ∈ found.map Path.components

/-- A path is among others if its components are. -/
theorem any_same_iff {files : List Path} {p : Path} :
    files.any p.same = true ↔ p.components ∈ files.map Path.components := by
  rw [List.any_eq_true, List.mem_map]
  simp only [Path.same, beq_iff_eq, eq_comm (a := p.components)]

/-- **What a source adds**: a path is taken if there is none with its components. -/
theorem Collects.addNew {found files : List Path} (h : Collects found files) (paths : List Path) :
    Collects (found ++ paths) (addNew files paths) := by
  induction paths generalizing found files with
  | nil => rwa [List.append_nil]
  | cons p rest ih =>
      unfold Discovered.addNew
      rw [← List.singleton_append, ← List.append_assoc]
      split
      · rename_i hthere
        have hfound := (h.mem_iff _).mp (any_same_iff.mp hthere)
        refine ih ⟨h.nodup, fun components => ?_⟩
        rw [h.mem_iff, List.map_append, List.mem_append, List.map_singleton, List.mem_singleton]
        exact ⟨.inl, fun hor => hor.elim id fun heq => heq ▸ hfound⟩
      · rename_i hnew
        rw [any_same_iff] at hnew
        refine ih ⟨?_, fun components => ?_⟩
        · rw [List.map_append, List.map_singleton]
          exact List.nodup_append.mpr ⟨h.nodup, List.nodup_singleton _, by
            intro a ha b hb heq
            rw [heq, List.mem_singleton.mp hb] at ha
            exact hnew ha⟩
        · rw [List.map_append, List.map_append, List.mem_append, List.mem_append, h.mem_iff]

/-- What collects depends only on which paths were found before. -/
theorem Collects.congr {found found' files : List Path} (h : Collects found files)
    (hmem : ∀ p, p ∈ found' ↔ p ∈ found) : Collects found' files := by
  refine ⟨h.nodup, fun components => ?_⟩
  rw [h.mem_iff, List.mem_map, List.mem_map]
  simp only [hmem]

/-- The paths that sources give. -/
def found (fs : FileSystem) (base : Path) (language : Language) (sources : List String) :
    List Path :=
  sources.flatMap fun source => (ofSource fs base language source).1

variable (fs : FileSystem) (base : Path) (language : Language)

/-- One more source. -/
theorem Collects.add {before : List Path} {discovered : Discovered}
    (h : Collects before discovered.files) (source : String) :
    Collects (before ++ (ofSource fs base language source).1)
      (add fs base language discovered source).files := by
  unfold Discovered.add
  refine (h.addNew _).congr fun p => ?_
  unfold sortPaths
  rw [List.mem_append, List.mem_append, List.mem_mergeSort]

/-- More sources, from first to last. -/
theorem Collects.addAll {before : List Path} {discovered : Discovered}
    (h : Collects before discovered.files) (sources : List String) :
    Collects (before ++ found fs base language sources)
      (sources.foldl (Discovered.add fs base language) discovered).files := by
  induction sources generalizing before discovered with
  | nil => rwa [found, List.flatMap_nil, List.append_nil]
  | cons source sources ih =>
      rw [found, List.flatMap_cons, ← List.append_assoc]
      exact ih (h.add fs base language source)

/-- **All sources**: the files have the components of the paths that were
found, each of them once. -/
theorem collects_discover (sources : List String) :
    Collects (found fs base language sources) (discover fs base sources language).files := by
  have hempty : Collects [] ({} : Discovered).files := ⟨List.nodup_nil, fun _ => Iff.rfl⟩
  exact hempty.addAll fs base language sources

/-! ### Which files are there twice -/

/-- Files lead to different places exactly if found paths that lead to the
same place are the same. -/
theorem Collects.target_nodup_iff {found files : List Path} (h : Collects found files) :
    (files.map Path.target).Nodup ↔
      ∀ p ∈ found, ∀ q ∈ found, p.target = q.target → p.components = q.components := by
  have hmap : files.map Path.target =
      (files.map Path.components).map fun components => components.foldl Component.follow [] := by
    rw [List.map_map]
    rfl
  rw [hmap, List.nodup_map_iff_inj_on h.nodup]
  simp only [h.mem_iff, List.forall_mem_map]
  rfl

/-- **Which files are found twice.** No two of the files lead to the same place exactly if the paths
that the sources give and that lead to the same place are the same paths.

Let all names in the file system be names, and let no segment of a source lead up. Then files are
there twice exactly if a source that keeps the `.` at the start of its path and a source that
does not give the same file. -/
theorem discover_target_nodup_iff (sources : List String) :
    (((discover fs base sources language).files.map Path.target).Nodup ↔
      ∀ p ∈ found fs base language sources, ∀ q ∈ found fs base language sources,
        p.target = q.target → p.same q = true) ∧
    (fs.root.isNamed = true →
      (∀ source ∈ sources, ∀ segment ∈ (base.join ⟨source⟩).segments,
        Glob.goesDown segment = true) →
      (((discover fs base sources language).files.map Path.target).Nodup ↔
        ∀ source ∈ sources, ∀ other ∈ sources,
          keepsDot base source = true → keepsDot base other = false →
            ∀ p ∈ (ofSource fs base language source).1, ∀ q ∈ (ofSource fs base language other).1,
              p.target ≠ q.target)) := by
  have hcollects := (collects_discover fs base language sources).target_nodup_iff
  refine ⟨?_, fun hnamed hdown => ?_⟩
  · rw [hcollects]
    simp only [Path.same, beq_iff_eq]
  rw [hcollects]
  have hspelled : ∀ source ∈ sources, ∀ p ∈ (ofSource fs base language source).1,
      p.Spelled (keepsDot base source) :=
    fun source hsource => spelled_of_mem_ofSource hnamed (hdown source hsource)
  constructor
  · intro hsame source hsource other hother hkeeps hdrops p hp q hq htarget
    have hcomponents := hsame p (List.mem_flatMap.mpr ⟨source, hsource, hp⟩) q
      (List.mem_flatMap.mpr ⟨other, hother, hq⟩) htarget
    -- the two paths differ in their start
    have hstart := ((hspelled source hsource p hp).of_components hcomponents.symm).startsHere_eq
    rw [(hspelled other hother q hq).startsHere_eq, hkeeps, hdrops] at hstart
    cases hstart
  · intro hapart p hp q hq htarget
    obtain ⟨source, hsource, hp⟩ := List.mem_flatMap.mp hp
    obtain ⟨other, hother, hq⟩ := List.mem_flatMap.mp hq
    have hpspelled := hspelled source hsource p hp
    have hqspelled := hspelled other hother q hq
    rcases hkeeps : keepsDot base source <;> rcases hkeeps' : keepsDot base other <;>
      rw [hkeeps] at hpspelled <;> rw [hkeeps'] at hqspelled
    · exact hpspelled.components_inj hqspelled htarget
    · exact absurd htarget.symm (hapart other hother source hsource hkeeps' hkeeps q hq p hp)
    · exact absurd htarget (hapart source hsource other hother hkeeps hkeeps' p hp q hq)
    · exact hpspelled.components_inj hqspelled htarget

/-- A file that is named and that fits two patterns is there once, beside another one. -/
theorem discover_target_nodup_iff_overlap :
    let fs : FileSystem := ⟨.directory [("app", .directory
      [("b.ts", .file (some "")), ("src", .directory [("a.js", .file (some ""))])])], []⟩
    let sources := ["src/a.js", "./src/a.j?", "**/*.js", "?.ts"]
    let files := (discover fs ⟨"app"⟩ sources .javascript).files
    files = [⟨"app/src/a.js"⟩, ⟨"app/b.ts"⟩] ∧ (files.map Path.target).Nodup := by
  intro fs sources files
  refine ⟨by decide +kernel, ?_⟩
  refine ((discover_target_nodup_iff fs ⟨"app"⟩ .javascript sources).2 (by decide +kernel)
    (by decide +kernel)).mpr ?_
  intro source hsource other _ hkeeps
  have hdrops : ∀ source ∈ sources, keepsDot ⟨"app"⟩ source = false := by decide +kernel
  rw [hdrops source hsource] at hkeeps
  cases hkeeps

/-- Below `.` a file that is named and that fits a pattern is there twice. -/
theorem not_nodup_below_dot :
    let fs : FileSystem := ⟨.directory [("a.js", .file (some ""))], []⟩
    let files := (discover fs ⟨"."⟩ ["a.js", "*.js"] .javascript).files
    files = [⟨"./a.js"⟩, ⟨"a.js"⟩] ∧ ¬ (files.map Path.target).Nodup := by
  decide +kernel

end Discovered

end StringHarvest
