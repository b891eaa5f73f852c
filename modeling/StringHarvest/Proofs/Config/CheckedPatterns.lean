import StringHarvest.Command.Run
import StringHarvest.Proofs.Glob.Segments

/-!
# Checked patterns

Settings are checked with their patterns as they are written. What is expanded later is another
text, the pattern below the root directory, and it is read in segments. So a pattern that has passed
the check is expanded if two more things hold (`expand_checked_iff`): none of its brackets names a
slash, and the segments of the root directory are patterns as well.

Neither is checked anywhere. The files of a pattern that is not expanded are left out, and
nothing is counted as skipped.
-/

namespace StringHarvest

namespace Glob

/-- Without stars and brackets a text is a pattern. -/
theorem exists_reads_of_plain {cs : List Char} (before : Option Char) (hstar : '*' ∉ cs)
    (hopen : '[' ∉ cs) : ∃ found, Reads before cs found := by
  induction cs generalizing before with
  | nil => exact ⟨[], .nil before⟩
  | cons c cs ih =>
      rw [List.mem_cons, not_or] at hstar hopen
      obtain ⟨found, hfound⟩ := ih (some c) hstar.2 hopen.2
      by_cases hany : c = '?'
      · subst hany
        exact ⟨_, .any hfound⟩
      · refine ⟨_, .char ?_ hfound⟩
        simp [special, hany, Ne.symm hstar.1, Ne.symm hopen.1]

/-- The segments of a joined path are those of its parts, up to empty ones. -/
theorem forall_segments_join_iff {root p : Path} :
    (∀ segment ∈ (root.join p).segments, Compiles segment) ↔
      (∀ segment ∈ p.segments, Compiles segment) ∧
        (p.isAbsolute = false → ∀ segment ∈ root.segments, Compiles segment) := by
  by_cases hp : p.isAbsolute = true
  · rw [Path.join_of_isAbsolute hp]
    simp [hp]
  rw [Bool.not_eq_true] at hp
  by_cases hroot : root.text = ""
  · obtain rfl : root = ⟨""⟩ := congrArg Path.mk hroot
    rw [Path.join_of_empty rfl]
    have hempty : ∀ segment ∈ (⟨""⟩ : Path).segments, Compiles segment :=
      List.forall_mem_singleton.mpr compiles_empty
    exact (and_iff_left fun _ => hempty).symm
  · have hopen : (∀ segment ∈ root.openSegments, Compiles segment) ↔
        ∀ segment ∈ root.segments, Compiles segment := by
      rcases root.segments_eq_openSegments.2 with hsegments | hsegments
      · rw [hsegments]
      · rw [hsegments, List.forall_mem_append, List.forall_mem_singleton]
        exact (and_iff_left compiles_empty).symm
    rw [Path.segments_join hp hroot, List.forall_mem_append, hopen, and_comm]
    simp [hp]

end Glob

namespace Config

/-- What the check finds out about a pattern. -/
theorem compiles_of_problem?_eq_none {config : Config} (h : config.problem? = none)
    {group : SourceGroup} (hgroup : group ∈ config.groups) {source : String}
    (hsource : source ∈ group.sources) (hpattern : Glob.isPattern source = true) :
    Glob.Compiles source := by
  have hsources : (config.groups.flatMap (·.sources)).findSome? sourceProblem? = none := by
    unfold problem? at h
    dsimp only at h
    split at h
    · cases h
    · split at h
      · cases h
      · split at h
        · cases h
        · exact h
  have hmem : source ∈ config.groups.flatMap (·.sources) :=
    List.mem_flatMap.mpr ⟨group, hgroup, hsource⟩
  have hproblem := List.findSome?_eq_none_iff.mp hsources source hmem
  unfold sourceProblem? at hproblem
  rw [if_pos hpattern] at hproblem
  rcases hpieces : Glob.pieces source with e | found
  · rw [hpieces] at hproblem
    cases hproblem
  · exact ⟨found, hpieces⟩

/-- **Which checked patterns are expanded.** If settings have no problem, a pattern among their
sources is expanded below a root directory exactly if none of its brackets names a slash and,
unless it is absolute, the segments of the root directory are patterns. That is so if neither of
the two texts has a bracket and the root directory has no star. Otherwise the pattern gives no
files, and none is skipped. -/
theorem expand_checked_iff {config : Config} (h : config.problem? = none) {group : SourceGroup}
    (hgroup : group ∈ config.groups) {source : String} (hsource : source ∈ group.sources)
    (hpattern : Glob.isPattern source = true) (fs : FileSystem) (root : Path) :
    (∃ found, Glob.pieces source = .ok found ∧
      ((∃ paths, Glob.expand fs (root.join ⟨source⟩) = .ok paths) ↔
        (∀ piece ∈ found, piece.namesSlash = false) ∧
          ((⟨source⟩ : Path).isAbsolute = false →
            ∀ segment ∈ root.segments, Glob.Compiles segment))) ∧
    ('[' ∉ source.toList → '[' ∉ root.text.toList → '*' ∉ root.text.toList →
      ∃ paths, Glob.expand fs (root.join ⟨source⟩) = .ok paths) ∧
    ((¬ ∃ paths, Glob.expand fs (root.join ⟨source⟩) = .ok paths) →
      Discovered.ofSource fs root group.language source = ([], 0)) := by
  obtain ⟨found, hfound⟩ := compiles_of_problem?_eq_none h hgroup hsource hpattern
  have hexpand : (∃ paths, Glob.expand fs (root.join ⟨source⟩) = .ok paths) ↔
      (∀ piece ∈ found, piece.namesSlash = false) ∧
        ((⟨source⟩ : Path).isAbsolute = false →
          ∀ segment ∈ root.segments, Glob.Compiles segment) := by
    rw [Glob.exists_expand_iff, Glob.forall_segments_join_iff,
      Glob.forall_compiles_iff (p := ⟨source⟩) hfound]
  refine ⟨⟨found, hfound, hexpand⟩, fun hopen hrootOpen hrootStar => hexpand.mpr ⟨?_, fun _ => ?_⟩,
    fun hnot => ?_⟩
  · exact (Glob.pieces_eq_ok_iff.mp hfound).namesSlash_eq_false (.inl hopen)
  · -- a root directory without special characters is a pattern without brackets
    obtain ⟨pieces, hpieces⟩ := Glob.exists_reads_of_plain none hrootStar hrootOpen
    have hnames := hpieces.namesSlash_eq_false (.inl hrootOpen)
    exact (Glob.forall_compiles_iff (Glob.pieces_eq_ok_iff.mpr hpieces)).mpr hnames
  · unfold Discovered.ofSource
    dsimp only
    rw [if_pos hpattern]
    rcases hresult : Glob.expand fs (root.join ⟨source⟩) with e | paths
    · rfl
    · exact absurd ⟨paths, hresult⟩ hnot

/-- A pattern with a bracket is expanded below `app`, and one whose bracket names a slash is not,
although both pass the check. -/
theorem expand_checked_iff_brackets :
    ({ groups := [{ sources := ["src/[!_]*.js", "[a/b]?.js"] }] } : Config).problem? = none ∧
      (∃ paths, Glob.expand ⟨.directory [], []⟩ ((⟨"app"⟩ : Path).join ⟨"src/[!_]*.js"⟩) =
        .ok paths) ∧
      Discovered.ofSource ⟨.directory [], []⟩ ⟨"app"⟩ .javascript "[a/b]?.js" = ([], 0) := by
  have hchecked :
      ({ groups := [{ sources := ["src/[!_]*.js", "[a/b]?.js"] }] } : Config).problem? = none := by
    decide +kernel
  have hfirst := expand_checked_iff hchecked List.mem_cons_self List.mem_cons_self
    (by decide +kernel) ⟨.directory [], []⟩ ⟨"app"⟩
  have hsecond := expand_checked_iff hchecked List.mem_cons_self
    (List.mem_cons_of_mem _ List.mem_cons_self) (by decide +kernel) ⟨.directory [], []⟩ ⟨"app"⟩
  obtain ⟨⟨found, hfound, hexpand⟩, -⟩ := hfirst
  obtain ⟨⟨found', hfound', hexpand'⟩, -, hdropped⟩ := hsecond
  refine ⟨hchecked, hexpand.mpr ⟨?_, fun _ => by decide +kernel⟩, hdropped fun hpaths => ?_⟩
  · cases (Except.ok.inj hfound : _ = found)
    decide +kernel
  · have hnames := (hexpand'.mp hpaths).1
    cases (Except.ok.inj hfound' : _ = found')
    revert hnames
    decide +kernel

/-- Below a directory whose name starts a bracket no pattern is expanded: the file `[x/a.js` is not
found by `*.js`, and the extraction succeeds without it. -/
theorem not_expanded_below_openBracket :
    let fs : FileSystem :=
      ⟨.directory [("[x", .directory [("a.js", .file (some "tr('x')"))])], []⟩
    let request : Command.ExtractRequest := { root := "[x", sources := ["*.js"] }
    (request.override {}).problem? = none ∧
      (¬ ∃ paths, Glob.expand fs ((⟨"[x"⟩ : Path).join ⟨"*.js"⟩) = .ok paths) ∧
      (Command.extract fs request "").2.toOption =
        some {
          groups := [⟨.javascript, 0, 0⟩]
          messageCount := 0
          template := ⟨"[x/messages.pot"⟩
          skipped := 0
          fromFile := false } := by
  intro fs request
  refine ⟨by decide +kernel, fun hpaths => ?_, by decide +kernel⟩
  have hsegments := Glob.exists_expand_iff.mp hpaths
  revert hsegments
  decide +kernel

end Config

end StringHarvest
