import StringHarvest.Command.Arguments
import StringHarvest.Config.Lookup
import StringHarvest.Date.Stamp
import StringHarvest.Extraction
import StringHarvest.Files.Discovery

/-!
# Commands

What the commands do to a file system, and what they tell about it. The extraction loads
the settings, lets the arguments take the place of parts of them, finds the source files
and writes the template of their messages. The other command writes a file with the
default settings where there is none.
-/

namespace StringHarvest.Command

/-- Why a command fails. -/
inductive Failure where
  | load (error : Config.LoadError)
  | settings (problem : Config.Problem)
  | extraction (error : ExtractionError)
  | settingsExist
  | unwritable (error : FileError)

/-- The wording of a failure. -/
def Failure.message : Failure → String
  | .load error => error.message
  | .settings problem => problem.message
  | .extraction error => error.message
  | .settingsExist => Config.fileName ++ " already exists"
  | .unwritable error => error.message

/-- What an extraction did. -/
structure ExtractOutcome where
  /-- What each group gave. -/
  groups : List GroupCount
  /-- How many messages the template has. -/
  messageCount : Nat
  /-- Where the template is. -/
  template : Path
  /-- How many sources could not be read. -/
  skipped : Nat
  /-- Whether the settings come from a file. -/
  fromFile : Bool
  deriving DecidableEq, Repr

/-- The settings with the arguments in place of parts of them. -/
def ExtractRequest.override (request : ExtractRequest) (config : Config) : Config where
  functionNames :=
    if request.functionNames.isEmpty then config.functionNames else .many request.functionNames
  template := request.template?.getD config.template
  groups :=
    if request.sources.isEmpty then config.groups
    else [{ language := request.language, sources := request.sources }]

/-- The settings of an extraction, and whether they come from a file. -/
def settings (fs : FileSystem) (request : ExtractRequest) : Except Failure Config.Loaded := do
  let loaded ← (Config.load fs ⟨request.root⟩).mapError .load
  let config := request.override loaded.config
  (Config.check config).mapError .settings
  return { loaded with config }

/-- The source files of a group. -/
def discoverGroup (fs : FileSystem) (root : Path) (group : SourceGroup) : Discovered :=
  discover fs root group.sources group.language

/-- The group of the files that were found. -/
def fileGroup (group : SourceGroup) (found : Discovered) : FileGroup :=
  { language := group.language, files := found.files }

/-- Extracts the messages of a project and writes their template. The file system is given in any
case; the schedule says which failure is met first. -/
def extract (fs : FileSystem) (request : ExtractRequest) (generatedAt : String)
    (schedule : Schedule := .inOrder) : FileSystem × Except Failure ExtractOutcome :=
  match settings fs request with
  | .error failure => (fs, .error failure)
  | .ok { config, fromFile } =>
    let root : Path := ⟨request.root⟩
    let found := config.groups.map (discoverGroup fs root)
    let groups := config.groups.zipWith fileGroup found
    let template := root.resolve ⟨config.template⟩
    match Extraction.write fs config.functionNames.toList id groups template generatedAt
        schedule with
    | (fs, .error error) => (fs, .error (.extraction error))
    | (fs, .ok extracted) =>
      (fs, .ok {
        groups := extracted.groups
        messageCount := extracted.catalog.size
        template
        skipped := found.foldl (fun n d => n + d.skipped) 0
        fromFile })

/-- Writes the default settings into the directory of the program and gives their path. -/
def init (fs : FileSystem) : FileSystem × Except Failure Path :=
  let path := Path.resolve ⟨"."⟩ ⟨Config.fileName⟩
  if fs.exists? path then (fs, .error .settingsExist)
  else
    match fs.write path ({} : Config).toText with
    | .ok fs => (fs, .ok path)
    | .error error => (fs, .error (.unwritable error))

/-! ## Reports -/

/-- The mark in front of a success. -/
def doneMark : String := "✓"

/-- The line about a group. -/
def groupLine (verbose : Bool) (group : GroupCount) : String :=
  "Extracted " ++ toString group.messageCount ++ " messages from " ++ group.language.name
    ++ " files."
    ++ (if verbose then " (" ++ toString group.fileCount ++ " files scanned)" else "")

/-- The report of an extraction. -/
def ExtractOutcome.report (outcome : ExtractOutcome) (verbose : Bool) : String :=
  lines (
    (if verbose && !outcome.fromFile then ["note: no config file found, using defaults"] else [])
    ++ outcome.groups.map (groupLine verbose)
    ++ (if outcome.skipped == 0 then []
      else ["warning: " ++ toString outcome.skipped ++ " source path(s) could not be read"])
    ++ [doneMark ++ " " ++ toString outcome.messageCount ++ " messages successfully extracted, "
      ++ outcome.template.text ++ " written."])

/-- The report of new settings. -/
def initReport (path : Path) : String := lines [doneMark ++ " Created " ++ path.text]

/-- How a run of the program ends. -/
inductive Reply where
  /-- A command did its work and reports. -/
  | done (report : String)
  /-- A command failed. -/
  | failed (failure : Failure)
  /-- The command line asks for a text or is wrong. -/
  | stopped (stop : Stop)

/-- What is printed in the end. -/
def Reply.output : Reply → String
  | .done report => report
  | .failed _ => ""
  | .stopped (.help page) => page.text
  | .stopped .version => version
  | .stopped (.usage _) => ""

/-- The exit code: 2 for a failure or a wrong command line. -/
def Reply.exitCode : Reply → Nat
  | .done _ => 0
  | .failed _ => 2
  | .stopped (.help _) => 0
  | .stopped .version => 0
  | .stopped (.usage _) => 2

/-- The reply to a command that reports its result. -/
def Reply.ofResult {α : Type} (report : α → String) : Except Failure α → Reply
  | .ok value => .done (report value)
  | .error failure => .failed failure

/-- Runs a command at a time that is given by its stamp. The files of a group are finished in
their order. -/
def Invocation.run (fs : FileSystem) (generatedAt : String) : Invocation → FileSystem × Reply
  | .overview => (fs, .done HelpPage.overview.text)
  | .extract request =>
    let (fs, result) := Command.extract fs request generatedAt
    (fs, Reply.ofResult (·.report request.verbose) result)
  | .init =>
    let (fs, result) := Command.init fs
    (fs, Reply.ofResult initReport result)

/-- The stamp of a run: the pinned time if there is one, and otherwise the time that it is. -/
def generationStamp (pinned? : Option String) (now : String) : String :=
  (pinned?.bind Date.pinned?).getD now

/-- Runs a command line. The files of a group are finished in their order. -/
def run (fs : FileSystem) (pinned? : Option String) (now : String) (words : List String) :
    FileSystem × Reply :=
  match Invocation.ofWords words with
  | .error stop => (fs, .stopped stop)
  | .ok invocation => invocation.run fs (generationStamp pinned? now)

end StringHarvest.Command
