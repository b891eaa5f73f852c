import StringHarvest.Proofs.Command.ExtractFrame
import StringHarvest.Proofs.Config.CurrentSettings
import StringHarvest.Proofs.Files.DirectoryWalk

/-!
# New settings change nothing

The command for new settings writes the default settings into a file, and an extraction without such
a file takes the default settings as they are. The two ways to the settings are different: one
serialises them, finds the file, reads it and checks what it says. This file compares whole runs.

**Main theorem** (`init_transparent`): where no settings are found, an extraction with no sources of
its own runs behind the command as it does without (`RunsAlike`): it fails in the same way, or it
tells the same and writes the same template. An extraction with several broken source files can end
in several ways, since the files are read side by side; these are the same behind the command.

The two runs start from file systems that differ in the file with the settings (`HasDefaults`). They
read the same sources, which stand in a directory beside that file (`avoids_of_source`), and put the
template in the same way (`Extraction.write_alike`). There is one condition: the path of the
template must not lead on from the file with the settings, be it to something below that file or
with a `.` alone (`init_not_transparent`).
-/

namespace StringHarvest

/-! ### The template -/

namespace Extraction

variable {fs fs' : FileSystem} {target : List String} {text : Option String} {path : Path}

open FileSystem (AddsFile AgreesOff)

/-- A file beside those that are read does not matter for the catalog. -/
theorem collect_congr {names : List String} {process : Catalog → Catalog} {groups : List FileGroup}
    (schedule : Schedule)
    (h : ∀ group ∈ groups, ∀ path ∈ group.files, fs'.readText path = fs.readText path) :
    collect fs' names process groups schedule = collect fs names process groups schedule := by
  have hgroups : groups.mapM (ofGroup fs' names · schedule) =
      groups.mapM (ofGroup fs names · schedule) := by
    refine mapM_congr fun group hgroup => ?_
    unfold ofGroup
    rw [List.map_congr_left fun path hpath => ?_]
    unfold ofFile
    rw [h group hgroup path hpath]
  unfold collect
  rw [hgroups]

/-- The directories above a template are made the same way in both. -/
theorem prepareParent_alike (h : fs.AddsFile fs' target text) (hp : target ∉ fs.trail path.bare) :
    (prepareParent fs' path).2 = (prepareParent fs path).2 ∧
      (prepareParent fs path).1.AddsFile (prepareParent fs' path).1 target text := by
  unfold prepareParent
  rcases hparent : path.parent? with _ | parent
  · exact ⟨rfl, h⟩
  · dsimp only
    by_cases hempty : parent.text = ""
    · rw [if_pos (by simpa using hempty), if_pos (by simpa using hempty)]
      exact ⟨rfl, h⟩
    · rw [← path.parent?_bare] at hparent
      obtain ⟨hresult, hadds⟩ := h.makeDirectories (parent.segments.length + 1) parent fun _ =>
        FileSystem.avoids_parent? h.target_ne_nil hp hparent hempty
      rw [if_neg (by simpa using hempty), if_neg (by simpa using hempty)]
      exact ⟨congrArg (Option.map (ExtractionError.noDirectory parent)) hresult, hadds⟩

/-- **A template that does not lead on from the file** is put the same way in both. -/
theorem putTemplate_alike (h : fs.AddsFile fs' target text) (hp : target ∉ fs.trail path.bare)
    (catalog : Catalog) (generatedAt : String) :
    (putTemplate fs' catalog path generatedAt).2 = (putTemplate fs catalog path generatedAt).2 ∧
      (putTemplate fs catalog path generatedAt).1.AgreesOff
        (putTemplate fs' catalog path generatedAt).1 target := by
  obtain ⟨hresult, hadds⟩ := prepareParent_alike h hp
  have hgrows := grows_prepareParent fs path
  unfold putTemplate
  rcases hprepared : prepareParent fs path with ⟨prepared, failed⟩
  rcases hprepared' : prepareParent fs' path with ⟨prepared', failed'⟩
  rw [hprepared, hprepared'] at hresult hadds
  rw [hprepared] at hgrows
  obtain rfl : failed' = failed := hresult
  cases failed' with
  | some e => exact ⟨rfl, hadds.sets.agreesOff⟩
  | none =>
      have htrail : target ∉ prepared.trail path.bare := by
        rw [FileSystem.trail_eq hgrows.current]
        exact hp
      dsimp only
      rcases hadds.write htrail (Template.render catalog generatedAt) with
        ⟨written, written', hwritten, hwritten', hagrees⟩ | ⟨e, hfailed, hfailed'⟩
      · rw [hwritten, hwritten']
        exact ⟨rfl, hagrees⟩
      · rw [hfailed, hfailed']
        exact ⟨rfl, hadds.sets.agreesOff⟩

/-- **An extraction goes the same way in both** if it reads the same and its template
does not lead on from the file. -/
theorem write_alike (h : fs.AddsFile fs' target text) (hp : target ∉ fs.trail path.bare)
    {groups : List FileGroup}
    (hread : ∀ group ∈ groups, ∀ path ∈ group.files, fs'.readText path = fs.readText path)
    (names : List String) (process : Catalog → Catalog) (generatedAt : String)
    (schedule : Schedule) :
    (write fs' names process groups path generatedAt schedule).2 =
        (write fs names process groups path generatedAt schedule).2 ∧
      (write fs names process groups path generatedAt schedule).1.AgreesOff
        (write fs' names process groups path generatedAt schedule).1 target ∧
      ∀ extracted, (write fs names process groups path generatedAt schedule).2 = .ok extracted →
        ∃ text,
          (write fs names process groups path generatedAt schedule).1.readText path = .ok text ∧
          (write fs' names process groups path generatedAt schedule).1.readText path =
            .ok text := by
  unfold write
  rw [collect_congr schedule hread]
  rcases collect fs names process groups schedule with e | extracted
  · exact ⟨rfl, h.sets.agreesOff, nofun⟩
  · dsimp only
    obtain ⟨hresult, hagrees⟩ := putTemplate_alike h hp extracted.catalog generatedAt
    rcases hput : putTemplate fs extracted.catalog path generatedAt with ⟨put, failed⟩
    rcases hput' : putTemplate fs' extracted.catalog path generatedAt with ⟨put', failed'⟩
    rw [hput, hput'] at hresult hagrees
    obtain rfl : failed' = failed := hresult
    cases failed' with
    | some e => exact ⟨rfl, hagrees, nofun⟩
    | none =>
        exact ⟨rfl, hagrees, fun _ _ => ⟨_, (delivers_of_putTemplate hput).written,
          (delivers_of_putTemplate hput').written⟩⟩

end Extraction

namespace Command

variable {fs fs' : FileSystem} {request : ExtractRequest} {generatedAt : String}
    {schedule : Schedule}

/-! ### New settings -/

/-- From where the program stands, a path leads where it says. -/
theorem resolve_here (p : Path) : Path.resolve ⟨"."⟩ p = p := by
  have hhere : (⟨"."⟩ : Path).components = [.here] := by decide +kernel
  unfold Path.resolve
  rw [if_pos (by simp [hhere])]

/-- Where there are settings already, nothing is written. -/
theorem init_of_exists (hcurrent : fs.placeAt? fs.current = some .directory)
    (h : fs.placeAt? (Config.location fs) ≠ none) :
    init fs = (fs, .error .settingsExist) := by
  have hexists := FileSystem.exists?_of_locate (Config.locate_fileName hcurrent)
  unfold init
  rw [resolve_here]
  dsimp only
  rw [hexists, if_pos (Option.isSome_iff_ne_none.mpr h)]

/-- The second file system is the first with the default settings in the current directory. -/
structure HasDefaults (fs fs' : FileSystem) : Prop where
  adds : fs.AddsFile fs' (Config.location fs) (some ({} : Config).toText)
  sources : fs'.root.find? (fs.current ++ ["src"]) = fs.root.find? (fs.current ++ ["src"])

/-- Where there are none, the defaults are written. -/
theorem init_of_not_exists (hcurrent : fs.placeAt? fs.current = some .directory)
    (h : fs.placeAt? (Config.location fs) = none) :
    (init fs).2 = .ok ⟨Config.fileName⟩ ∧ HasDefaults fs (init fs).1 := by
  have hlocate := Config.locate_fileName hcurrent
  have hbare : (⟨Config.fileName⟩ : Path).bare = ⟨Config.fileName⟩ := by decide +kernel
  have hwritePath : FileSystem.writePath ⟨Config.fileName⟩ = ⟨Config.fileName⟩ := by decide +kernel
  have hwrite : fs.write ⟨Config.fileName⟩ ({} : Config).toText = .ok
      (fs.put (Config.location fs) (.file (some ({} : Config).toText))) := by
    rw [FileSystem.write_of_locate (hwritePath ▸ hlocate), if_pos ⟨hbare, by simp [h]⟩]
  have hinit : init fs = (fs.put (Config.location fs)
      (.file (some ({} : Config).toText)), .ok ⟨Config.fileName⟩) := by
    unfold init
    rw [resolve_here]
    dsimp only
    rw [FileSystem.exists?_of_locate hlocate, h, hwrite]
    rfl
  rw [hinit]
  have hopens : fs.Opens (Config.location fs) := .inr ⟨_, _, rfl, hcurrent⟩
  exact ⟨rfl, ⟨h, hopens.sets_put (by simp [h]) rfl⟩, Tree.find?_put_of_ne hcurrent (by decide) []⟩

/-! ### The sources of the default settings -/

/-- The sources of the default settings. -/
def defaultGroup : SourceGroup := { sources := ["src"] }

/-- The path at which they are looked for. -/
def defaultSource : Path := ⟨"./src"⟩

/-- The default source is a directory below the current one. -/
theorem locate_defaultSource (hcurrent : fs.placeAt? fs.current = some .directory) :
    fs.locate defaultSource = .ok (fs.current ++ ["src"]) := by
  have hsegments : defaultSource.segments = [".", "src"] := by decide +kernel
  have hstart : fs.start defaultSource = fs.current := if_neg (by decide +kernel)
  have hstay : fs.step fs.current "." = .ok fs.current :=
    FileSystem.step_eq_ok_iff.mpr ⟨hcurrent, rfl⟩
  have hdown : fs.step fs.current "src" = .ok (fs.current ++ ["src"]) :=
    FileSystem.step_eq_ok_iff.mpr ⟨hcurrent, rfl⟩
  rw [FileSystem.locate_eq_ok_iff, hsegments, hstart]
  refine ⟨by decide, bind_eq_ok_iff.mpr ⟨_, hstay, ?_⟩⟩
  exact bind_eq_ok_iff.mpr ⟨_, hdown, rfl⟩

/-- What the source of the default settings gives, told by the files of its directory. -/
theorem ofSource_default (fs : FileSystem) :
    Discovered.ofSource fs ⟨"."⟩ .javascript "src" =
      match Discovered.filesAt fs .javascript defaultSource with
      | some files => (files, 0)
      | none => ([], 1) := by
  have hpath : (⟨"."⟩ : Path).join ⟨"src"⟩ = defaultSource := by decide +kernel
  have hplain : Glob.isPattern "src" = false := by decide +kernel
  unfold Discovered.ofSource
  rw [hpath, hplain]
  rfl

/-- The files of the default group are the directory itself or stand below it. -/
theorem mem_discoverGroup_default (hnamed : fs.root.isNamed = true) {p : Path}
    (h : p ∈ (discoverGroup fs ⟨"."⟩ defaultGroup).files) :
    p = defaultSource ∨ p.IsBelow defaultSource := by
  have hmem : p ∈ (Discovered.ofSource fs ⟨"."⟩ .javascript "src").1 :=
    List.mem_mergeSort.mp ((Discovered.mem_of_mem_addNew h).resolve_left List.not_mem_nil)
  rw [ofSource_default] at hmem
  split at hmem
  · rename_i files hfiles
    unfold Discovered.filesAt at hfiles
    split at hfiles
    · obtain rfl := Option.some.inj hfiles
      exact .inl (List.mem_singleton.mp hmem)
    · rename_i tree _ hentry
      obtain rfl := Option.some.inj hfiles
      have htree := FileSystem.isNamed_of_entry? hnamed hentry
      exact .inr (Tree.isBelow_of_mem_sourceFiles tree htree p hmem)
    · cases hfiles
  · cases hmem

/-- The default group finds the same with settings beside its directory. -/
theorem HasDefaults.discoverGroup_eq (h : HasDefaults fs fs')
    (hcurrent : fs.placeAt? fs.current = some .directory) :
    discoverGroup fs' ⟨"."⟩ defaultGroup = discoverGroup fs ⟨"."⟩ defaultGroup := by
  have hcurrent' := (h.adds.sets.keeps (by simp [h.adds.free])).2 _ hcurrent
  rw [← h.adds.sets.current] at hcurrent'
  have hentry : fs'.entry? defaultSource = fs.entry? defaultSource := by
    unfold FileSystem.entry? FileSystem.entry
    rw [locate_defaultSource hcurrent, locate_defaultSource hcurrent', h.adds.sets.current]
    dsimp only [bind, Except.bind]
    rw [h.sources]
  change Discovered.add fs' ⟨"."⟩ .javascript {} "src" =
    Discovered.add fs ⟨"."⟩ .javascript {} "src"
  unfold Discovered.add
  rw [ofSource_default, ofSource_default]
  unfold Discovered.filesAt
  rw [hentry]

/-- Paths at and below the directory of sources keep off the settings. -/
theorem avoids_of_source (fs : FileSystem) {p : Path}
    (h : p = defaultSource ∨ p.IsBelow defaultSource) : fs.Avoids (Config.location fs) p := by
  unfold Config.location
  have hsource : defaultSource.components = [.here, .name "src"] := by decide +kernel
  obtain ⟨names, hnames⟩ : ∃ names : List String,
      p.components = .here :: ("src" :: names).map .name := by
    rcases h with rfl | ⟨names, -, hp⟩
    · exact ⟨[], hsource⟩
    · exact ⟨names, by rw [hp, hsource]; rfl⟩
  obtain ⟨rest, hsegments, hrest⟩ := Path.segments_of_components_here hnames
  have hstart : fs.start p = fs.current := by
    refine if_neg fun habsolute => ?_
    obtain ⟨second, more, hroot⟩ := (Path.isAbsolute_iff p).mp habsolute
    rw [hsegments] at hroot
    exact absurd (List.cons.inj hroot).1 (by decide)
  obtain ⟨hpassed, hgoal⟩ := FileSystem.trailFrom_of_names hrest fs.current
  constructor
  · unfold FileSystem.trail
    rw [hstart, hsegments, FileSystem.trailFrom, List.mem_cons, not_or]
    refine ⟨by simp, fun hmem => ?_⟩
    obtain ⟨front, hfront, heq⟩ := hpassed _ hmem
    rw [← List.append_cancel_left heq] at hfront
    exact absurd (List.cons_prefix_cons.mp hfront).1 (by decide)
  · unfold FileSystem.goal
    rw [hstart, hsegments, List.foldl_cons]
    change rest.foldl FileSystem.move fs.current ≠ _
    rw [hgoal]
    intro heq
    exact absurd (List.cons.inj (List.append_cancel_left heq)).1 (by decide)

/-! ### Runs with the default settings -/

/-- What an extraction tells about what was extracted. -/
def outcomeOf (template : Path) (skipped : Nat) (fromFile : Bool) (extracted : Extracted) :
    ExtractOutcome where
  groups := extracted.groups
  messageCount := extracted.catalog.size
  template := template
  skipped := skipped
  fromFile := fromFile

/-- An extraction with the default settings and sources. -/
theorem extract_of_load_default {fromFile : Bool} (hroot : request.root = ".")
    (hsources : request.sources = []) (hload : Config.load fs ⟨"."⟩ = .ok ⟨{}, fromFile⟩)
    (hcheck : Config.check (request.override {}) = .ok ()) :
    let found := discoverGroup fs ⟨"."⟩ defaultGroup
    let template : Path := ⟨(request.override {}).template⟩
    let written := Extraction.write fs (request.override {}).functionNames.toList id
      [fileGroup defaultGroup found] template generatedAt schedule
    extract fs request generatedAt schedule =
      (written.1,
        (written.2.map (outcomeOf template found.skipped fromFile)).mapError .extraction) := by
  have hgroups : (request.override {}).groups = [defaultGroup] := by
    unfold ExtractRequest.override
    rw [hsources]
    rfl
  have hsettings : settings fs request = .ok ⟨request.override {}, fromFile⟩ :=
    settings_eq_ok_iff.mpr ⟨_, hroot ▸ hload, hcheck, rfl⟩
  intro found template written
  unfold extract
  rw [hsettings]
  dsimp only
  rw [hroot, resolve_here, hgroups]
  have hwritten : Extraction.write fs (request.override {}).functionNames.toList id
      ([defaultGroup].zipWith fileGroup ([defaultGroup].map (discoverGroup fs ⟨"."⟩))) template
      generatedAt schedule = written := rfl
  rw [hwritten]
  rcases written with ⟨after, failure | extracted⟩
  · rfl
  · have hskipped : found.skipped = 0 + found.skipped := (Nat.zero_add _).symm
    rw [hskipped]
    rfl

/-! ### The whole run -/

/-- Two ends of an extraction tell the same, apart from where the settings come from,
and have the same template; and the file systems that are left are the same, apart from
the file with the settings. -/
structure EndsAlike (alone behind : FileSystem × Except Failure ExtractOutcome)
    (settings : List String) : Prop where
  /-- The same failure, or the same outcome with settings from a file. -/
  result : behind.2 = alone.2.map fun outcome => { outcome with fromFile := true }
  /-- Alone the settings are not from a file. -/
  fromFile (outcome : ExtractOutcome) : alone.2 = .ok outcome → outcome.fromFile = false
  /-- The template has the same text. -/
  written (outcome : ExtractOutcome) : alone.2 = .ok outcome →
    ∃ text, alone.1.readText outcome.template = .ok text ∧
      behind.1.readText outcome.template = .ok text
  /-- Everything else is the same as well. -/
  elsewhere : alone.1.AgreesOff behind.1 settings

/-- An extraction can end in this way, with the files of a group finished in some order. -/
def CanEnd (fs : FileSystem) (request : ExtractRequest) (generatedAt : String)
    (ended : FileSystem × Except Failure ExtractOutcome) : Prop :=
  ∃ schedule, extract fs request generatedAt schedule = ended

/-- An extraction runs in the second file system as it does in the first: each can end only as the
other can (`forth`, `back`), and any two ends are alike or both failures at a source (`either`). -/
structure RunsAlike (fs fs' : FileSystem) (request : ExtractRequest) (generatedAt : String) :
    Prop where
  /-- An end in the first is one in the second. -/
  forth (alone : FileSystem × Except Failure ExtractOutcome) :
    CanEnd fs request generatedAt alone →
    ∃ behind, CanEnd fs' request generatedAt behind ∧ EndsAlike alone behind (Config.location fs)
  /-- An end in the second is one in the first. -/
  back (behind : FileSystem × Except Failure ExtractOutcome) :
    CanEnd fs' request generatedAt behind →
    ∃ alone, CanEnd fs request generatedAt alone ∧ EndsAlike alone behind (Config.location fs)
  /-- Only failures at sources can differ from one run to another. -/
  either (alone behind : FileSystem × Except Failure ExtractOutcome) :
    CanEnd fs request generatedAt alone → CanEnd fs' request generatedAt behind →
      EndsAlike alone behind (Config.location fs) ∨
        FailsAtSource fs request alone ∧ FailsAtSource fs' request behind

/-- Default settings in the current directory are the ones that are loaded. -/
theorem HasDefaults.load_eq (h : HasDefaults fs fs') (hfs : fs.Proper) :
    Config.load fs' ⟨"."⟩ = .ok ⟨{}, true⟩ := by
  have hkept := h.adds.sets.current
  have hplace : fs'.placeAt? (Config.location fs') =
      some (.file (some ({} : Config).toText)) := by
    have hsame : Config.location fs' = Config.location fs := congrArg (· ++ [Config.fileName]) hkept
    rw [hsame, h.adds.sets.placeAt?, if_pos rfl]
  have hnames : ∀ name ∈ fs'.current, Path.isName name = true := hkept ▸ hfs.isName
  have hcurrent : fs'.placeAt? fs'.current = some .directory :=
    hkept ▸ (h.adds.sets.keeps (by simp [h.adds.free])).2 _ hfs.current
  have hlocate := Config.locate_fileName_absolute hnames hcurrent
  exact Config.load_of_default ((Config.find?_here hnames hcurrent).1 (by simp [hplace]))
    (FileSystem.readText_of_placeAt? hlocate hplace)

/-- With the default settings in a file an extraction ends as without any settings, if the files are
finished in the same order. -/
theorem HasDefaults.endsAlike (h : HasDefaults fs fs') (hfs : fs.Proper)
    (hfind : Config.find? fs ⟨"."⟩ = none) (hroot : request.root = ".")
    (hsources : request.sources = [])
    (htemplate : Config.location fs ∉
      fs.trail (Path.bare ⟨(request.override {}).template⟩)) (generatedAt : String)
    (schedule : Schedule) :
    EndsAlike (extract fs request generatedAt schedule) (extract fs' request generatedAt schedule)
      (Config.location fs) := by
  have hload := Config.load_of_find?_eq_none hfind
  have hload' := h.load_eq hfs
  rcases hcheck : Config.check (request.override {}) with problem | _
  · rw [extract_of_problem (hroot ▸ hload) hcheck, extract_of_problem (hroot ▸ hload') hcheck]
    exact ⟨rfl, nofun, nofun, h.adds.sets.agreesOff⟩
  · have hread : ∀ group ∈ [fileGroup defaultGroup
        (discoverGroup fs ⟨"."⟩ defaultGroup)], ∀ path ∈ group.files,
          fs'.readText path = fs.readText path := by
      intro group hgroup path hpath
      obtain rfl := List.mem_singleton.mp hgroup
      have havoids := avoids_of_source fs (mem_discoverGroup_default hfs.named hpath)
      exact h.adds.sets.readText_eq havoids.notMem_trail havoids.goal_ne
    obtain ⟨hresult, hagrees, hwritten⟩ := Extraction.write_alike h.adds htemplate hread
      (request.override {}).functionNames.toList id generatedAt schedule
    rw [extract_of_load_default hroot hsources hload hcheck,
      extract_of_load_default hroot hsources hload' hcheck, h.discoverGroup_eq hfs.current, hresult]
    generalize Extraction.write fs _ _ _ _ _ _ = alone at hagrees hwritten ⊢
    rcases alone with ⟨after, failure | extracted⟩
    · exact ⟨rfl, nofun, nofun, hagrees⟩
    · refine ⟨rfl, ?_, ?_, hagrees⟩
      · intro outcome houtcome
        obtain rfl := Except.ok.inj houtcome
        rfl
      · intro outcome houtcome
        obtain rfl := Except.ok.inj houtcome
        exact hwritten extracted rfl

/-- With the default settings in a file an extraction runs as without any settings. -/
theorem HasDefaults.runsAlike (h : HasDefaults fs fs') (hfs : fs.Proper)
    (hfind : Config.find? fs ⟨"."⟩ = none) (hroot : request.root = ".")
    (hsources : request.sources = [])
    (htemplate : Config.location fs ∉
      fs.trail (Path.bare ⟨(request.override {}).template⟩)) (generatedAt : String) :
    RunsAlike fs fs' request generatedAt := by
  have halike := h.endsAlike hfs hfind hroot hsources htemplate generatedAt
  constructor
  · rintro _ ⟨schedule, rfl⟩
    exact ⟨_, ⟨schedule, rfl⟩, halike schedule⟩
  · rintro _ ⟨schedule, rfl⟩
    exact ⟨_, ⟨schedule, rfl⟩, halike schedule⟩
  · rintro _ _ ⟨schedule, rfl⟩ ⟨schedule', rfl⟩
    -- if either run could have gone in the order of the other, the ends are alike
    rcases extract_of_schedules fs request generatedAt schedule schedule' with hsame | ⟨halone, -⟩
    · rw [← hsame]
      exact .inl (halike schedule')
    · rcases extract_of_schedules fs' request generatedAt schedule schedule'
        with hsame | ⟨-, hbehind⟩
      · rw [hsame]
        exact .inl (halike schedule)
      · exact .inr ⟨halone, hbehind⟩

/-- **New settings change nothing.** Let no settings be found from the current directory. Then the
default settings can be written there, and an extraction from there with no sources of its own runs
behind that as it does without, for all function names and for every template whose path, without
slashes at its end, does not lead on from the file with the settings: whatever end it can have
without, it can have behind that and the other way round, and only where source files are broken
can it end in more than one way.

Where something stands under the name of that file in the current directory, new settings are
refused and nothing is changed. -/
theorem init_transparent (hfs : fs.Proper) :
    (Config.find? fs ⟨"."⟩ = none →
      (init fs).2 = .ok ⟨Config.fileName⟩ ∧
      ∀ (request : ExtractRequest) (generatedAt : String), request.root = "." →
        request.sources = [] →
        Config.location fs ∉ fs.trail (Path.bare ⟨(request.override {}).template⟩) →
        RunsAlike fs (init fs).1 request generatedAt) ∧
    (fs.placeAt? (Config.location fs) ≠ none → init fs = (fs, .error .settingsExist)) := by
  refine ⟨fun hfind => ?_, fun hexists => init_of_exists hfs.current hexists⟩
  obtain ⟨hresult, hdefaults⟩ := init_of_not_exists hfs.current
    ((Config.find?_here hfs.isName hfs.current).2 hfind)
  refine ⟨hresult, fun request generatedAt hroot hsources htemplate => ?_⟩
  exact hdefaults.runsAlike hfs hfind hroot hsources htemplate generatedAt

/-- The small project runs alike, and then it refuses further settings. -/
theorem init_transparent_small :
    Config.find? smallProject ⟨"."⟩ = none ∧
    RunsAlike smallProject (init smallProject).1 smallRequest "now" ∧
    init (init smallProject).1 = ((init smallProject).1, .error .settingsExist) := by
  have hproper : smallProject.Proper := ⟨by decide +kernel, rfl⟩
  have hfind : Config.find? smallProject ⟨"."⟩ = none := by decide +kernel
  have hafter : (init smallProject).1.Proper := ⟨by decide +kernel, by decide +kernel⟩
  refine ⟨hfind, ?_, (init_transparent hafter).2 (by decide +kernel)⟩
  exact ((init_transparent hproper).1 hfind).2 smallRequest "now" rfl rfl (by decide +kernel)

/-- Above a bare name there is only the empty path. -/
theorem eq_of_isAbove {p q : Path} (hp : p.parent? = some ⟨""⟩) (h : q.IsAbove p) : q = ⟨""⟩ := by
  have hroot : ∀ r : Path, ¬ r.IsAbove ⟨""⟩ := by
    intro r hr
    cases hr with
    | single h => cases h
    | tail _ h => cases h
  cases h with
  | single h =>
      rw [hp] at h
      exact (Option.some.inj h).symm
  | tail habove h =>
      rw [hp] at h
      obtain rfl := Option.some.inj h
      exact absurd habove (hroot q)

/-- A directory with two source files that are broken. -/
def twoBrokenSources : List (String × Tree) :=
  [("a.js", .file (some "tr(\"x\"")), ("b.js", .file (some "tr(\"yy\""))]

/-- A project with this directory. -/
def twoBroken : FileSystem := ⟨.directory [("src", .directory twoBrokenSources)], []⟩

/-- Its files are those of the directory. -/
theorem discoverGroup_twoBroken :
    (discoverGroup twoBroken ⟨"."⟩ defaultGroup).files =
      (Tree.directory twoBrokenSources).sourceFiles .javascript defaultSource := by
  have hentry : twoBroken.entry? defaultSource = some (.directory twoBrokenSources) := by
    unfold FileSystem.entry? FileSystem.entry
    rw [locate_defaultSource (by decide +kernel)]
    rfl
  have hjoin : (⟨"."⟩ : Path).join ⟨"src"⟩ = defaultSource := by decide +kernel
  have hordered : ((Tree.directory twoBrokenSources).sourceFiles .javascript defaultSource).Pairwise
      fun p q => p.compare q = .lt :=
    Tree.pairwise_sourceFiles _ (by decide +kernel) (by decide +kernel) defaultSource
  rw [← hjoin] at hentry hordered ⊢
  exact congrArg Discovered.files
    (Discovered.discover_directory (by decide +kernel) hentry hordered)

/-- With the default settings, wherever they come from, the failure of any
source can be reported. -/
theorem canEnd_of_ofFile {fromFile : Bool} (hload : Config.load fs ⟨"."⟩ = .ok ⟨{}, fromFile⟩)
    {path : Path} (hpath : path ∈ (discoverGroup fs ⟨"."⟩ defaultGroup).files)
    {error : ExtractionError}
    (hfile : Extraction.ofFile fs ["tr"] .javascript path = .error error) :
    CanEnd fs {} generatedAt (fs, .error (.extraction error)) := by
  have hcheck : Config.check (({} : ExtractRequest).override {}) = .ok () := by decide +kernel
  have hsettings : settings fs {} = .ok ⟨{}, fromFile⟩ :=
    settings_eq_ok_iff.mpr ⟨_, hload, hcheck, rfl⟩
  exact exists_schedule_extract hsettings [] rfl nofun hpath hfile

/-- The two files do not fail alike. -/
theorem ofFile_twoBroken :
    (∃ e, Extraction.ofFile twoBroken ["tr"] .javascript ⟨"./src/a.js"⟩ = .error e ∧
      e.message = "Failed to parse ./src/a.js:1:7: Expected ',', got '<eof>'") ∧
    ∃ e, Extraction.ofFile (init twoBroken).1 ["tr"] .javascript ⟨"./src/b.js"⟩ = .error e ∧
      e.message = "Failed to parse ./src/b.js:1:8: Expected ',', got '<eof>'" := by
  have hmessage {result : Except ExtractionError Catalog} {message : String}
      (h : (result.map Catalog.size).mapError ExtractionError.message = .error message) :
      ∃ e, result = .error e ∧ e.message = message := by
    cases result with
    | error e => exact ⟨e, rfl, Except.error.inj h⟩
    | ok catalog => cases h
  exact ⟨hmessage (by decide +kernel), hmessage (by decide +kernel)⟩

/-- One of them can be reported alone and the other one behind new settings. -/
theorem exists_ends_twoBroken :
    ∃ alone behind, CanEnd twoBroken {} "now" alone ∧ CanEnd (init twoBroken).1 {} "now" behind ∧
      alone.2.mapError Failure.message =
        .error "Failed to parse ./src/a.js:1:7: Expected ',', got '<eof>'" ∧
      behind.2.mapError Failure.message =
        .error "Failed to parse ./src/b.js:1:8: Expected ',', got '<eof>'" := by
  have hproper : twoBroken.Proper := ⟨by decide +kernel, rfl⟩
  have hfind : Config.find? twoBroken ⟨"."⟩ = none := by decide +kernel
  obtain ⟨-, hdefaults⟩ := init_of_not_exists hproper.current
    ((Config.find?_here hproper.isName hproper.current).2 hfind)
  have hfirst : ⟨"./src/a.js"⟩ ∈ (discoverGroup twoBroken ⟨"."⟩ defaultGroup).files := by
    rw [discoverGroup_twoBroken, Tree.mem_sourceFiles_directory]
    exact ⟨_, List.mem_cons_self, by decide +kernel⟩
  have hsecond : ⟨"./src/b.js"⟩ ∈ (discoverGroup (init twoBroken).1 ⟨"."⟩ defaultGroup).files := by
    rw [hdefaults.discoverGroup_eq hproper.current, discoverGroup_twoBroken,
      Tree.mem_sourceFiles_directory]
    exact ⟨_, List.mem_cons_of_mem _ List.mem_cons_self, by decide +kernel⟩
  obtain ⟨⟨e, hfile, hmessage⟩, e', hfile', hmessage'⟩ := ofFile_twoBroken
  exact ⟨_, _, canEnd_of_ofFile (Config.load_of_find?_eq_none hfind) hfirst hfile,
    canEnd_of_ofFile (hdefaults.load_eq hproper) hsecond hfile', congrArg Except.error hmessage,
    congrArg Except.error hmessage'⟩

/-- The settings need not be above the template for new settings to change the failure: it is
enough that the template is at the path of the settings with a `.` behind it. And where two
source files are broken, the failure of one of them can be reported alone and that of the
other one behind new settings. -/
theorem init_not_transparent :
    (let fs : FileSystem := ⟨.directory [], []⟩
      let request : ExtractRequest := { template? := some ".jsgettextrc.json/." }
      fs.Proper ∧ Config.find? fs ⟨"."⟩ = none ∧
      (∀ q : Path, q.IsAbove ⟨(request.override {}).template⟩ → q.same ⟨Config.fileName⟩ = false) ∧
      (∀ alone, CanEnd fs request "now" alone → alone.2.mapError Failure.message = .error
        "Failed to write template: .jsgettextrc.json/.: No such file or directory (os error 2)") ∧
      ∀ behind, CanEnd (init fs).1 request "now" behind → behind.2.mapError Failure.message = .error
        "Failed to write template: .jsgettextrc.json/.: Not a directory (os error 20)") ∧
    twoBroken.Proper ∧ Config.find? twoBroken ⟨"."⟩ = none ∧
    (∀ q : Path, q.IsAbove ⟨({} : Config).template⟩ → q.same ⟨Config.fileName⟩ = false) ∧
    ∃ alone behind, CanEnd twoBroken {} "now" alone ∧ CanEnd (init twoBroken).1 {} "now" behind ∧
      alone.2.mapError Failure.message =
        .error "Failed to parse ./src/a.js:1:7: Expected ',', got '<eof>'" ∧
      behind.2.mapError Failure.message =
        .error "Failed to parse ./src/b.js:1:8: Expected ',', got '<eof>'" := by
  refine ⟨?_, ⟨by decide +kernel, rfl⟩, by decide +kernel, ?_, ?_⟩
  · intro fs request
    refine ⟨⟨by decide +kernel, rfl⟩, by decide +kernel, ?_, ?_, ?_⟩
    · intro q hq
      obtain rfl := eq_of_isAbove (by decide +kernel) hq
      decide +kernel
    · rintro _ ⟨schedule, rfl⟩
      have hconfig : (settings fs request).toOption.map (·.config) =
          some (request.override {}) := by
        decide +kernel
      rw [extract_of_no_files hconfig (by decide +kernel) .inOrder]
      decide +kernel
    · rintro _ ⟨schedule, rfl⟩
      have hconfig : (settings (init fs).1 request).toOption.map (·.config) =
          some (request.override {}) := by
        decide +kernel
      rw [extract_of_no_files hconfig (by decide +kernel) .inOrder]
      decide +kernel
  · intro q hq
    obtain rfl := eq_of_isAbove (by decide +kernel) hq
    decide +kernel
  · exact exists_ends_twoBroken

end Command

end StringHarvest
