import StringHarvest.Config.Lookup
import StringHarvest.Proofs.Files.FoundPaths
import StringHarvest.Proofs.Files.OneMoreFile

/-!
# Settings in the current directory

The search for settings goes up from the current directory, on the path from the root to it. If the
file system is `Proper`, that path can be followed name by name, also with one more name behind it
(`locate_pathOf_join`). So the search finds settings in the current directory exactly if something
stands there under their name (`find?_here`).

The text of the default settings is read back as the default settings (`ofText_toText_default`), and
a file with this text gives what no file gives (`load_of_default`, `load_of_find?_eq_none`).
-/

namespace StringHarvest

namespace FileSystem

variable {fs : FileSystem}

/-- A file system as a program meets it: its names are names, and the program is in a directory. -/
structure Proper (fs : FileSystem) : Prop where
  named : fs.root.isNamed = true
  current : fs.placeAt? fs.current = some .directory

/-- The current directory is named by names. -/
theorem Proper.isName (h : fs.Proper) : ∀ name ∈ fs.current, Path.isName name = true := by
  obtain ⟨entries, hentries⟩ := placeAt?_eq_directory_iff.mp h.current
  exact Tree.isName_of_find? h.named hentries

/-- To move along a name is to go one step down. -/
theorem move_of_isName {name : String} (h : Path.isName name = true) (location : List String) :
    move location name = location ++ [name] := by
  obtain ⟨hempty, hdot, hup, -⟩ := Path.isName_iff.mp h
  simp [move, hempty, hdot, hup]

/-- Names that lead to a directory can be followed. -/
theorem foldlM_step_names {names : List String} (hnames : ∀ name ∈ names, Path.isName name = true)
    {location : List String} (h : fs.placeAt? (location ++ names) = some .directory) :
    names.foldlM fs.step location = .ok (location ++ names) := by
  induction names generalizing location with
  | nil =>
      rw [List.append_nil]
      rfl
  | cons name names ih =>
      obtain ⟨hname, hnames⟩ := List.forall_mem_cons.mp hnames
      have hhere := Tree.placeAt?_append location (name :: names) h (List.cons_ne_nil _ _)
      have hstep : fs.step location name = .ok (location ++ [name]) :=
        step_eq_ok_iff.mpr ⟨hhere, (move_of_isName hname location).symm⟩
      rw [← List.singleton_append, ← List.append_assoc] at h ⊢
      rw [List.singleton_append, List.foldlM_cons, hstep]
      exact ih hnames h

/-- Names that lead to a directory, and one more. -/
theorem foldlM_step_concat {names : List String} {name : String}
    (hnames : ∀ name ∈ names, Path.isName name = true) (hname : Path.isName name = true)
    {location : List String} (h : fs.placeAt? (location ++ names) = some .directory) :
    (names ++ [name]).foldlM fs.step location = .ok (location ++ names ++ [name]) := by
  have hstep : fs.step (location ++ names) name = .ok (location ++ names ++ [name]) :=
    step_eq_ok_iff.mpr ⟨h, (move_of_isName hname _).symm⟩
  rw [List.foldlM_append]
  refine bind_eq_ok_iff.mpr ⟨_, foldlM_step_names hnames h, ?_⟩
  exact bind_eq_ok_iff.mpr ⟨_, hstep, rfl⟩

/-- A name leads from the current directory to what stands under it there. -/
theorem locate_name {name : String} (hname : Path.isName name = true)
    (h : fs.placeAt? fs.current = some .directory) :
    fs.locate ⟨name⟩ = .ok (fs.current ++ [name]) := by
  obtain ⟨hempty, -, -, hslash⟩ := Path.isName_iff.mp hname
  have hstep : fs.step fs.current name = .ok (fs.current ++ [name]) :=
    step_eq_ok_iff.mpr ⟨h, (move_of_isName hname _).symm⟩
  rw [locate_eq_ok_iff, Path.segments_of_slash_notMem hslash, start,
    Path.isAbsolute_of_slash_notMem hslash]
  exact ⟨hempty, bind_eq_ok_iff.mpr ⟨_, hstep, rfl⟩⟩

/-- The path from the root to a location. -/
def pathOf (location : List String) : Path := ⟨"/" ++ "/".intercalate location⟩

/-- The segments of a name below the path from the root to a location. -/
theorem segments_pathOf_join {location : List String}
    (hlocation : ∀ name ∈ location, Path.isName name = true) {name : String}
    (hname : Path.isName name = true) :
    ((pathOf location).join ⟨name⟩).segments = "" :: (location ++ [name]) := by
  have hslash := (Path.isName_iff.mp hname).2.2.2
  have htext : (pathOf location).text ≠ "" := by simp [pathOf]
  rw [Path.segments_join (Path.isAbsolute_of_slash_notMem hslash) htext,
    Path.segments_of_slash_notMem hslash, ← List.cons_append]
  congr 1
  rcases location with _ | ⟨first, rest⟩
  · decide +kernel
  · have hsegments : (pathOf (first :: rest)).segments = "" :: first :: rest := by
      have hslashes : ∀ s ∈ first :: rest, '/' ∉ s.toList := fun s hs =>
        (Path.isName_iff.mp (hlocation s hs)).2.2.2
      have hslash := Path.segments_slash "" ("/".intercalate (first :: rest))
      rw [String.empty_append, Path.segments_intercalate (List.cons_ne_nil first rest) hslashes]
        at hslash
      exact hslash
    obtain ⟨-, hopen | hopen⟩ := Path.segments_eq_openSegments (pathOf (first :: rest))
    · rw [← hopen, hsegments]
    · -- the last segment is a name
      have hlast := congrArg List.getLast? (hsegments.symm.trans hopen)
      rw [List.getLast?_cons_cons, List.getLast?_concat] at hlast
      exact absurd rfl (Path.isName_iff.mp (hlocation _ (List.mem_of_getLast? hlast))).1

/-- The path from the root to the current directory can be followed, and one name more. -/
theorem locate_pathOf_join (hnames : ∀ name ∈ fs.current, Path.isName name = true)
    (hcurrent : fs.placeAt? fs.current = some .directory) {name : String}
    (hname : Path.isName name = true) :
    fs.locate ((pathOf fs.current).join ⟨name⟩) = .ok (fs.current ++ [name]) := by
  have hsegments := segments_pathOf_join hnames hname
  obtain ⟨first, rest, hcons⟩ := List.exists_cons_of_ne_nil (List.concat_ne_nil name fs.current)
  have habsolute := (Path.isAbsolute_iff _).mpr ⟨first, rest, hcons ▸ hsegments⟩
  have hroot : fs.placeAt? [] = some .directory := by
    rcases hlocation : fs.current with _ | ⟨top, below⟩ <;> rw [hlocation] at hcurrent
    · exact hcurrent
    · exact Tree.placeAt?_append [] (top :: below) hcurrent (List.cons_ne_nil _ _)
  rw [locate_eq_ok_iff, start, habsolute, hsegments]
  refine ⟨Path.join_text_ne (Path.isAbsolute_of_slash_notMem (Path.isName_iff.mp hname).2.2.2)
    (by simp [pathOf]), ?_⟩
  have hstay : fs.step [] "" = .ok [] := step_eq_ok_iff.mpr ⟨hroot, rfl⟩
  rw [List.foldlM_cons]
  exact bind_eq_ok_iff.mpr ⟨[], hstay, foldlM_step_concat hnames hname hcurrent⟩

end FileSystem

namespace Config

variable {fs : FileSystem}

/-- Where the settings of the current directory stand. -/
def location (fs : FileSystem) : List String := fs.current ++ [fileName]

/-- The file with the settings has a name. -/
theorem isName_fileName : Path.isName fileName = true := by decide +kernel

/-- Its path leads to the place in the current directory. -/
theorem locate_fileName (hcurrent : fs.placeAt? fs.current = some .directory) :
    fs.locate ⟨fileName⟩ = .ok (location fs) :=
  FileSystem.locate_name isName_fileName hcurrent

/-- So does its absolute path. -/
theorem locate_fileName_absolute (hnames : ∀ name ∈ fs.current, Path.isName name = true)
    (hcurrent : fs.placeAt? fs.current = some .directory) :
    fs.locate ((FileSystem.pathOf fs.current).join ⟨fileName⟩) = .ok (location fs) :=
  FileSystem.locate_pathOf_join hnames hcurrent isName_fileName

/-- The search for settings starts in the current directory. -/
theorem searchPath_here (hcurrent : fs.placeAt? fs.current = some .directory) :
    ∃ above, searchPath fs ⟨"."⟩ = FileSystem.pathOf fs.current :: above := by
  have hlocate : fs.locate ⟨"."⟩ = .ok fs.current := by
    have hstay : fs.step fs.current "." = .ok fs.current :=
      FileSystem.step_eq_ok_iff.mpr ⟨hcurrent, rfl⟩
    have hsegments : (⟨"."⟩ : Path).segments = ["."] := by decide +kernel
    have hstart : fs.start ⟨"."⟩ = fs.current := if_neg (by decide +kernel)
    rw [FileSystem.locate_eq_ok_iff, hsegments, hstart]
    exact ⟨by decide, bind_eq_ok_iff.mpr ⟨fs.current, hstay, rfl⟩⟩
  have habsolute : fs.absolute? ⟨"."⟩ = some (FileSystem.pathOf fs.current) := by
    obtain ⟨entries, hentries⟩ := FileSystem.placeAt?_eq_directory_iff.mp hcurrent
    unfold FileSystem.absolute?
    rw [hlocate]
    dsimp only
    rw [hentries]
    rfl
  unfold searchPath
  rw [habsolute, Option.getD_some, chain]
  split
  · exact ⟨_, rfl⟩
  · exact ⟨_, rfl⟩

/-- Settings in the current directory are found before all others. -/
theorem find?_here (hnames : ∀ name ∈ fs.current, Path.isName name = true)
    (hcurrent : fs.placeAt? fs.current = some .directory) :
    (fs.placeAt? (location fs) ≠ none →
      find? fs ⟨"."⟩ = some ((FileSystem.pathOf fs.current).join ⟨fileName⟩)) ∧
    (find? fs ⟨"."⟩ = none → fs.placeAt? (location fs) = none) := by
  have hexists := FileSystem.exists?_of_locate (locate_fileName_absolute hnames hcurrent)
  obtain ⟨above, habove⟩ := searchPath_here hcurrent
  unfold find?
  rw [habove, findIn, hexists]
  constructor
  · intro hsome
    rw [if_pos (Option.isSome_iff_ne_none.mpr hsome)]
  · intro hnone
    by_contra hsome
    rw [if_pos (Option.isSome_iff_ne_none.mpr hsome)] at hnone
    cases hnone

/-- The text of the default settings is read back as the default settings. -/
theorem ofText_toText_default : ofText ({} : Config).toText = .ok {} := by
  have hsome : (ofText ({} : Config).toText).toOption = some {} := by decide +kernel
  rcases h : ofText ({} : Config).toText with e | config <;> rw [h] at hsome
  · cases hsome
  · exact congrArg _ (Option.some.inj hsome)

/-- The default settings pass their own check. -/
theorem check_default : check {} = .ok () := by
  have hnone : ({} : Config).problem? = none := by decide +kernel
  unfold check
  rw [hnone]

/-- Without a file the settings are the defaults. -/
theorem load_of_find?_eq_none {start : Path} (h : find? fs start = none) :
    load fs start = .ok { config := {}, fromFile := false } := by
  unfold load
  rw [h]
  rfl

/-- A file with the default settings gives the defaults. -/
theorem load_of_default {start path : Path} (h : find? fs start = some path)
    (htext : fs.readText path = .ok ({} : Config).toText) :
    load fs start = .ok { config := {}, fromFile := true } := by
  unfold load
  rw [h]
  dsimp only
  rw [htext]
  refine bind_eq_ok_iff.mpr ⟨_, rfl, ?_⟩
  rw [ofText_toText_default]
  refine bind_eq_ok_iff.mpr ⟨_, rfl, ?_⟩
  rw [check_default]
  rfl

end Config

end StringHarvest
