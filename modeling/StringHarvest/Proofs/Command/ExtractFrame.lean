import StringHarvest.Command.Run
import StringHarvest.Proofs.Extraction.WholeRun
import StringHarvest.Proofs.Files.Locations

/-!
# What an extraction does to the files

An extraction reads the settings and all source files before it writes anything.

**Main theorem** (`extract_atomic`): settings that cannot be loaded, settings with a problem and a
source file that cannot be read or parsed make the command fail with the file system as it was. If
the command succeeds, the template has the text of the catalog, the directories above it are there,
and no other location has changed (`Delivers`).

The failures come from `collect`: it fails exactly if a file is not `Readable`, and its error tells
what is wrong with one of the files (`blames_of_collect`, `readable_of_collect`). Which of them that
is depends on the order in which the files are finished, and nothing else does. The changes come
from `putTemplate`: it makes directories (`grows_prepareParent`) and then sets one location.
-/

namespace StringHarvest

/-- An error tells what is wrong with a file: it cannot be read as text, or it cannot be parsed. -/
def ExtractionError.Blames (fs : FileSystem) (error : ExtractionError) (entry : Path × Language) :
    Prop :=
  (∃ e, fs.readText entry.1 = .error e ∧ error = .unreadable entry.1 e) ∨
    ∃ text e, fs.readText entry.1 = .ok text ∧
      Source.parse text entry.1.text entry.2 = .error e ∧ error = .malformed e

namespace Extraction

variable {fs fs' : FileSystem} {names : List String}

/-! ### Files that cannot be read -/

section collect

variable {path : Path} {language : Language} {groups : List FileGroup}
  {process : Catalog → Catalog} {schedule : Schedule} {error : ExtractionError}

/-- A file that gives no catalog is blamed for what is wrong with it. -/
theorem blames_of_ofFile (h : ofFile fs names language path = .error error) :
    error.Blames fs (path, language) := by
  unfold ofFile at h
  rcases htext : fs.readText path with e | text
  · rw [htext] at h
    exact .inl ⟨e, htext, (Except.error.inj h).symm⟩
  · rw [htext] at h
    change Except.mapError _ (Source.parse text path.text language) >>= _ = _ at h
    rcases hparse : Source.parse text path.text language with e | source
    · rw [hparse] at h
      exact .inr ⟨text, e, htext, hparse, (Except.error.inj h).symm⟩
    · rw [hparse] at h
      cases h

/-- A file that gives a catalog can be read. -/
theorem readable_of_ofFile {catalog : Catalog}
    (h : ofFile fs names language path = .ok catalog) : Readable fs (path, language) := by
  unfold ofFile at h
  obtain ⟨text, htext, h⟩ := bind_eq_ok_iff.mp h
  obtain ⟨source, hsource, -⟩ := bind_eq_ok_iff.mp h
  unfold Readable sourceAt?
  rw [mapError_eq_ok_iff.mp htext]
  dsimp only
  rw [mapError_eq_ok_iff.mp hsource]
  rfl

/-- An extraction that fails blames one of the files. -/
theorem blames_of_collect (h : collect fs names process groups schedule = .error error) :
    ∃ group ∈ groups, ∃ path ∈ group.files, error.Blames fs (path, group.language) := by
  obtain ⟨before, group, after, rfl, -, path, hpath, hfile⟩ :=
    exists_schedule_collect_eq_error_iff.mp ⟨schedule, h⟩
  exact ⟨group, List.mem_append_right before List.mem_cons_self, path, hpath,
    blames_of_ofFile hfile⟩

/-- An extraction that succeeds has read every file. -/
theorem readable_of_collect {extracted : Extracted}
    (h : collect fs names process groups schedule = .ok extracted) :
    ∀ group ∈ groups, ∀ path ∈ group.files, Readable fs (path, group.language) := by
  obtain ⟨catalogs, hcatalogs, -⟩ := collect_eq_ok_iff.mp h
  intro group hgroup path hpath
  obtain ⟨catalog, hcatalog⟩ := forall_ok_of_mapM hcatalogs group hgroup
  obtain ⟨parts, hparts, -⟩ := ofGroup_eq_ok_iff.mp hcatalog
  obtain ⟨part, hpart⟩ := forall_ok_of_mapM hparts path hpath
  exact readable_of_ofFile hpart

end collect

/-! ### The template -/

/-- A file is written, the directories above it are there, and every other location is as before or
one of these directories that was missing. -/
structure Delivers (fs fs' : FileSystem) (path : Path) (text : String) : Prop where
  current : fs'.current = fs.current
  written : fs'.readText path = .ok text
  above (q : Path) : q.IsAbove path → q.text ≠ "" → fs'.isDirectory q = true
  elsewhere (location : List String) : fs'.locate path ≠ .ok location →
    fs'.placeAt? location = fs.placeAt? location ∨
      fs.placeAt? location = none ∧ fs'.placeAt? location = some .directory ∧
        ∃ q : Path, q.IsAbove path ∧ fs'.locate q = .ok location

/-- Before the template only directories are made. -/
theorem grows_prepareParent (fs : FileSystem) (path : Path) :
    fs.Grows (prepareParent fs path).1 path := by
  unfold prepareParent
  split
  · rename_i parent hparent
    split
    · exact .refl fs path
    · exact (fs.grows_makeDirectories _ parent).of_parent hparent
  · exact .refl fs path

/-- **A template that is written is all that changes**, with the directories above it. -/
theorem delivers_of_putTemplate {catalog : Catalog} {path : Path} {generatedAt : String}
    (h : putTemplate fs catalog path generatedAt = (fs', none)) :
    Delivers fs fs' path (Template.render catalog generatedAt) := by
  unfold putTemplate at h
  have hgrows := grows_prepareParent fs path
  split at h
  · cases h
  · rename_i prepared hprepared
    rw [hprepared] at hgrows
    split at h
    · rename_i written hwrite
      obtain rfl : written = fs' := (Prod.mk.inj h).1
      obtain ⟨target, htarget, hold, hsets⟩ := FileSystem.write_eq_ok hwrite
      have hlocate := (hsets.keeps hold).locate htarget
      refine ⟨hsets.current.trans hgrows.current, ?_, ?_, ?_⟩
      · refine FileSystem.readText_of_placeAt? hlocate ?_
        rw [hsets.placeAt?, if_pos rfl]
      · intro q hq htext
        obtain ⟨location, habove, hdirectory⟩ := FileSystem.locate_of_isAbove hlocate hq htext
        exact FileSystem.isDirectory_of_placeAt? habove hdirectory
      · intro location hne
        have hother : location ≠ target := by
          rintro rfl
          exact hne hlocate
        rw [hsets.placeAt?, if_neg hother]
        rcases hgrows.placeAt? location with hsame | ⟨hnone, hnew, q, hq, hlocation⟩
        · exact .inl hsame
        · have hlocation' := (hsets.keeps hold).locate hlocation
          refine .inr ⟨hnone, hnew, q, hq.resolve_left ?_, hlocation'⟩
          -- the path itself leads to the template
          rintro rfl
          exact hne hlocation'
    · cases (Prod.mk.inj h).2

end Extraction

namespace Command

open Extraction (Readable messagesIn Delivers)

variable {fs fs' : FileSystem} {request : ExtractRequest} {generatedAt : String}
    {schedule : Schedule}

/-- The files of each group of the settings. -/
def sourceGroups (fs : FileSystem) (request : ExtractRequest) (config : Config) : List FileGroup :=
  config.groups.map fun group => fileGroup group (discoverGroup fs ⟨request.root⟩ group)

/-- The settings of an extraction are those that are loaded, with the arguments in place of parts of
them, if these have no problem. -/
theorem settings_eq_ok_iff {loaded : Config.Loaded} :
    settings fs request = .ok loaded ↔
      ∃ before, Config.load fs ⟨request.root⟩ = .ok before ∧
        Config.check (request.override before.config) = .ok () ∧
        loaded = { before with config := request.override before.config } := by
  unfold settings
  constructor
  · intro h
    obtain ⟨before, hload, h⟩ := bind_eq_ok_iff.mp h
    obtain ⟨_, hcheck, h⟩ := bind_eq_ok_iff.mp h
    exact ⟨before, mapError_eq_ok_iff.mp hload, mapError_eq_ok_iff.mp hcheck,
      (Except.ok.inj h).symm⟩
  · rintro ⟨before, hload, hcheck, rfl⟩
    rw [hload]
    refine bind_eq_ok_iff.mpr ⟨before, rfl, ?_⟩
    dsimp only
    rw [hcheck]
    rfl

/-- The groups with what is found for them are the groups of source files. -/
theorem zipWith_fileGroup (fs : FileSystem) (request : ExtractRequest) (config : Config) :
    config.groups.zipWith fileGroup (config.groups.map (discoverGroup fs ⟨request.root⟩)) =
      sourceGroups fs request config := by
  unfold sourceGroups
  rw [List.zipWith_map_right, List.zipWith_self]

/-! ### Failures before anything is written -/

/-- Settings that cannot be loaded. -/
theorem extract_of_load_error {error : Config.LoadError}
    (h : Config.load fs ⟨request.root⟩ = .error error) :
    extract fs request generatedAt schedule = (fs, .error (.load error)) := by
  unfold extract settings
  rw [h]
  rfl

/-- Settings with a problem. -/
theorem extract_of_problem {loaded : Config.Loaded} {problem : Config.Problem}
    (h : Config.load fs ⟨request.root⟩ = .ok loaded)
    (hcheck : Config.check (request.override loaded.config) = .error problem) :
    extract fs request generatedAt schedule = (fs, .error (.settings problem)) := by
  have hsettings : settings fs request = .error (.settings problem) := by
    unfold settings
    rw [h]
    change Except.mapError _ (Config.check (request.override loaded.config)) >>= _ = _
    rw [hcheck]
    rfl
  unfold extract
  rw [hsettings]

/-- Without a catalog nothing is written. -/
theorem extract_of_collect_error {loaded : Config.Loaded} {error : ExtractionError}
    (h : settings fs request = .ok loaded)
    (hcollect : Extraction.collect fs loaded.config.functionNames.toList id
      (sourceGroups fs request loaded.config) schedule = .error error) :
    extract fs request generatedAt schedule = (fs, .error (.extraction error)) := by
  unfold extract Extraction.write
  rw [h]
  dsimp only
  rw [zipWith_fileGroup, hcollect]

/-- A file that cannot be read or parsed, among those of any group. -/
theorem extract_of_not_readable {loaded : Config.Loaded} (h : settings fs request = .ok loaded)
    {group : FileGroup} (hgroup : group ∈ sourceGroups fs request loaded.config)
    {path : Path} (hpath : path ∈ group.files) (hfile : ¬ Readable fs (path, group.language)) :
    ∃ error, extract fs request generatedAt schedule = (fs, .error (.extraction error)) ∧
      ∃ group ∈ sourceGroups fs request loaded.config, ∃ path ∈ group.files,
        error.Blames fs (path, group.language) := by
  rcases hcollect : Extraction.collect fs loaded.config.functionNames.toList id
      (sourceGroups fs request loaded.config) schedule with error | extracted
  · exact ⟨error, extract_of_collect_error h hcollect, Extraction.blames_of_collect hcollect⟩
  · exact absurd (Extraction.readable_of_collect hcollect group hgroup path hpath) hfile

/-- An extraction that ends in this way has left the files as they were, and its failure tells what
is wrong with one of the source files. -/
def FailsAtSource (fs : FileSystem) (request : ExtractRequest)
    (ended : FileSystem × Except Failure ExtractOutcome) : Prop :=
  ∃ loaded error, settings fs request = .ok loaded ∧ ended = (fs, .error (.extraction error)) ∧
    ∃ group ∈ sourceGroups fs request loaded.config, ∃ path ∈ group.files,
      error.Blames fs (path, group.language)

/-- A catalog that is there does not depend on the order in which the files are finished,
and nothing behind it does. -/
theorem extract_of_collect_ok {loaded : Config.Loaded} {extracted : Extracted}
    (h : settings fs request = .ok loaded)
    (hcollect : Extraction.collect fs loaded.config.functionNames.toList id
      (sourceGroups fs request loaded.config) schedule = .ok extracted) (schedule' : Schedule) :
    extract fs request generatedAt schedule' = extract fs request generatedAt schedule := by
  have hcollect' := Extraction.collect_eq_ok_of_schedule schedule' hcollect
  unfold extract Extraction.write
  rw [h]
  dsimp only
  rw [zipWith_fileGroup, hcollect, hcollect']

/-- **What the order decides.** Two runs of one extraction, with the files finished in different
orders, end in the same way, or both fail at a source. -/
theorem extract_of_schedules (fs : FileSystem) (request : ExtractRequest) (generatedAt : String)
    (schedule schedule' : Schedule) :
    extract fs request generatedAt schedule' = extract fs request generatedAt schedule ∨
      FailsAtSource fs request (extract fs request generatedAt schedule) ∧
        FailsAtSource fs request (extract fs request generatedAt schedule') := by
  rcases hsettings : settings fs request with failure | loaded
  · left
    unfold extract
    rw [hsettings]
  · rcases hcollect : Extraction.collect fs loaded.config.functionNames.toList id
        (sourceGroups fs request loaded.config) schedule with error | extracted
    · rcases hcollect' : Extraction.collect fs loaded.config.functionNames.toList id
          (sourceGroups fs request loaded.config) schedule' with error' | extracted'
      · right
        exact ⟨⟨loaded, error, hsettings, extract_of_collect_error hsettings hcollect,
            Extraction.blames_of_collect hcollect⟩,
          ⟨loaded, error', hsettings, extract_of_collect_error hsettings hcollect',
            Extraction.blames_of_collect hcollect'⟩⟩
      · exact .inl (extract_of_collect_ok hsettings hcollect' schedule).symm
    · exact .inl (extract_of_collect_ok hsettings hcollect schedule')

/-- Each file that fails in the first group that fails can be the one that is reported. -/
theorem exists_schedule_extract {loaded : Config.Loaded} (h : settings fs request = .ok loaded)
    (before : List FileGroup) {group : FileGroup} {after : List FileGroup}
    (hgroups : sourceGroups fs request loaded.config = before ++ group :: after)
    (hbefore : ∀ earlier ∈ before, ∀ path ∈ earlier.files, Readable fs (path, earlier.language))
    {path : Path} (hpath : path ∈ group.files) {error : ExtractionError}
    (hfile : Extraction.ofFile fs loaded.config.functionNames.toList group.language path =
      .error error) :
    ∃ schedule, extract fs request generatedAt schedule = (fs, .error (.extraction error)) := by
  obtain ⟨schedule, hcollect⟩ := Extraction.exists_schedule_collect_eq_error_iff.mpr
    ⟨before, group, after, hgroups, fun earlier hearlier other hother =>
      ⟨_, Extraction.ofFile_of_readable (hbefore earlier hearlier other hother)⟩,
      path, hpath, hfile⟩
  exact ⟨schedule, extract_of_collect_error h hcollect⟩

/-- Where no source files are found, there is nothing that an order could decide. -/
theorem extract_of_no_files {config : Config}
    (hconfig : (settings fs request).toOption.map (·.config) = some config)
    (hfiles : ∀ group ∈ sourceGroups fs request config, group.files = [])
    (schedule schedule' : Schedule) :
    extract fs request generatedAt schedule' = extract fs request generatedAt schedule := by
  rcases extract_of_schedules fs request generatedAt schedule schedule' with hsame | ⟨hfails, -⟩
  · exact hsame
  · obtain ⟨loaded, _, hsettings, -, group, hgroup, path, hpath, -⟩ := hfails
    rw [hsettings] at hconfig
    obtain rfl : loaded.config = config := Option.some.inj hconfig
    rw [hfiles group hgroup] at hpath
    cases hpath

/-! ### Success -/

/-- An extraction that succeeds has its settings and its catalog, and the template is put. -/
theorem extract_eq_ok {outcome : ExtractOutcome}
    (h : extract fs request generatedAt schedule = (fs', .ok outcome)) :
    ∃ loaded extracted, settings fs request = .ok loaded ∧
      Extraction.collect fs loaded.config.functionNames.toList id
        (sourceGroups fs request loaded.config) schedule = .ok extracted ∧
      outcome.template = Path.resolve ⟨request.root⟩ ⟨loaded.config.template⟩ ∧
      outcome.messageCount = extracted.catalog.size ∧
      Extraction.putTemplate fs extracted.catalog outcome.template generatedAt = (fs', none) := by
  unfold extract at h
  split at h
  · cases h
  · rename_i config fromFile hsettings
    dsimp only at h
    rw [zipWith_fileGroup] at h
    split at h
    · cases h
    · rename_i written extracted hwrite
      obtain ⟨rfl, houtcome⟩ := Prod.mk.inj h
      obtain rfl := Except.ok.inj houtcome
      unfold Extraction.write at hwrite
      split at hwrite
      · cases hwrite
      · rename_i hcollect
        split at hwrite
        · rename_i hput
          obtain ⟨rfl, hextracted⟩ := Prod.mk.inj hwrite
          obtain rfl := Except.ok.inj hextracted
          exact ⟨_, _, hsettings, hcollect, rfl, rfl, hput⟩
        · cases (Prod.mk.inj hwrite).2

/-- **An extraction leaves the files as they are or delivers the template.** It fails without any
change if the settings cannot be loaded, if they have a problem once the arguments are in place, or
if some file of some group cannot be read as text or parsed; the error tells which. If it succeeds,
the file at the path of the template has the text of the catalog of all messages, the only other
change is that directories above it that were missing are there, and the number that is reported is
that of the blocks in the text. -/
theorem extract_atomic (fs : FileSystem) (request : ExtractRequest) (pinned? : Option String)
    (now : String) (schedule : Schedule) :
    let stamp := generationStamp pinned? now
    (∀ error, Config.load fs ⟨request.root⟩ = .error error →
      extract fs request stamp schedule = (fs, .error (.load error))) ∧
    (∀ loaded problem, Config.load fs ⟨request.root⟩ = .ok loaded →
      Config.check (request.override loaded.config) = .error problem →
      extract fs request stamp schedule = (fs, .error (.settings problem))) ∧
    (∀ loaded groups, Config.load fs ⟨request.root⟩ = .ok loaded →
      Config.check (request.override loaded.config) = .ok () →
      groups = sourceGroups fs request (request.override loaded.config) →
      (∃ group ∈ groups, ∃ path ∈ group.files, ¬ Readable fs (path, group.language)) →
      ∃ error, extract fs request stamp schedule = (fs, .error (.extraction error)) ∧
        ∃ group ∈ groups, ∃ path ∈ group.files, error.Blames fs (path, group.language)) ∧
    ∀ fs' outcome, extract fs request stamp schedule = (fs', .ok outcome) →
      ∃ loaded config catalog, Config.load fs ⟨request.root⟩ = .ok loaded ∧
        config = request.override loaded.config ∧
        Config.check config = .ok () ∧
        catalog = Catalog.ofList ((sourceGroups fs request config).flatMap
          (messagesIn fs config.functionNames.toList)) ∧
        outcome.template = Path.resolve ⟨request.root⟩ ⟨config.template⟩ ∧
        Delivers fs fs' outcome.template (Template.render catalog stamp) ∧
        outcome.messageCount = (catalog.messages.map Template.block).length := by
  intro stamp
  refine ⟨fun error hload => extract_of_load_error hload,
    fun loaded problem hload hcheck => extract_of_problem hload hcheck, ?_, ?_⟩
  · rintro loaded groups hload hcheck rfl ⟨group, hgroup, path, hpath, hfile⟩
    have hsettings := settings_eq_ok_iff.mpr ⟨loaded, hload, hcheck, rfl⟩
    exact extract_of_not_readable hsettings hgroup hpath hfile
  · intro fs' outcome h
    obtain ⟨loaded, extracted, hsettings, hcollect, htemplate, hcount, hput⟩ := extract_eq_ok h
    obtain ⟨before, hload, hcheck, rfl⟩ := settings_eq_ok_iff.mp hsettings
    -- the catalog is that of all messages, since every file was read
    have hreadable := forall_entries_iff.mpr (Extraction.readable_of_collect hcollect)
    rw [Extraction.collect_of_readable id schedule hreadable] at hcollect
    obtain rfl := Except.ok.inj hcollect
    refine ⟨before, _, _, hload, rfl, hcheck, rfl, htemplate, ?_, ?_⟩
    · exact Extraction.delivers_of_putTemplate hput
    · rw [hcount, List.length_map]
      rfl

/-- A project with one source file. -/
def smallProject : FileSystem where
  root := .directory [("src", .directory [("app.js", .file (some "tr(\"Hello\");"))])]
  current := []

/-- A request for a template in directories that the project does not have. -/
def smallRequest : ExtractRequest := { template? := some "po/de/app.pot" }

/-- A project with a template whose second source file is broken. -/
def brokenProject : FileSystem where
  root := .directory [
    ("src", .directory [
      ("app.js", .file (some "tr(\"Hello\");")),
      ("broken.js", .file (some "tr(\"Hello\"")) ]),
    ("messages.pot", .file (some "old"))]
  current := []

/-- A request for the two files. -/
def brokenRequest : ExtractRequest := { sources := ["src/app.js", "src/broken.js"] }

/-- The template of the small project is delivered with its one message, and the broken project
keeps its old template. -/
theorem extract_atomic_small :
    (∃ outcome, (extract smallProject smallRequest (generationStamp (some "0") "")).2 =
        .ok outcome ∧ outcome.messageCount = 1 ∧
      Delivers smallProject (extract smallProject smallRequest (generationStamp (some "0") "")).1
        ⟨"po/de/app.pot"⟩ ("# Generated by jsgettext on Thu Jan 01 1970 00:00:00 GMT+0000\n\n" ++
          "msgid \"Hello\"\nmsgstr \"\"\n")) ∧
    ∃ error, extract brokenProject brokenRequest (generationStamp (some "0") "") =
      (brokenProject, .error (.extraction error)) := by
  constructor
  · have houtcome : (extract smallProject smallRequest
        (generationStamp (some "0") "")).2.toOption.map (fun o => (o.messageCount, o.template)) =
          some (1, ⟨"po/de/app.pot"⟩) := by
      decide +kernel
    have htext : ((extract smallProject smallRequest
        (generationStamp (some "0") "")).1.readText ⟨"po/de/app.pot"⟩).toOption =
          some ("# Generated by jsgettext on Thu Jan 01 1970 00:00:00 GMT+0000\n\n" ++
            "msgid \"Hello\"\nmsgstr \"\"\n") := by
      decide +kernel
    have hdone := (extract_atomic smallProject smallRequest (some "0") "" .inOrder).2.2.2
    rcases hrun : extract smallProject smallRequest (generationStamp (some "0") "")
      with ⟨fs', failure | outcome⟩
    · rw [hrun] at houtcome
      cases houtcome
    · rw [hrun] at houtcome htext
      obtain ⟨hcount, htemplate⟩ := Prod.mk.inj (Option.some.inj houtcome)
      obtain ⟨_, _, _, _, _, _, _, _, hdelivers, _⟩ := hdone fs' outcome hrun
      rw [htemplate] at hdelivers
      rw [hdelivers.written] at htext
      exact ⟨outcome, rfl, hcount, Option.some.inj htext ▸ hdelivers⟩
  · have hconfig : (Config.load brokenProject ⟨"."⟩).toOption.map (·.config) =
        some ({} : Config) := by
      decide +kernel
    rcases hload : Config.load brokenProject ⟨"."⟩ with failure | loaded
    · rw [hload] at hconfig
      cases hconfig
    · rw [hload] at hconfig
      have hdefault : loaded.config = {} := Option.some.inj hconfig
      have hcheck : Config.check (brokenRequest.override loaded.config) = .ok () := by
        rw [hdefault]
        decide +kernel
      have hbroken : ∃ group ∈ sourceGroups brokenProject brokenRequest (brokenRequest.override {}),
          ∃ path ∈ group.files, ¬ Readable brokenProject (path, group.language) := by
        decide +kernel
      have hfailed :=
        (extract_atomic brokenProject brokenRequest (some "0") "" .inOrder).2.2.1 loaded _
        hload hcheck rfl (hdefault ▸ hbroken)
      obtain ⟨error, herror, -⟩ := hfailed
      exact ⟨error, herror⟩

end Command

end StringHarvest
