import StringHarvest.Config.Json
import StringHarvest.Files.System

/-!
# Finding the settings

The settings of a project stand in a file of a fixed name, in the directory where the search starts
or in one above it. The search ends at the root of a repository, which is known by its `.git` entry.
-/

namespace StringHarvest.Config

/-- The name of the file with the settings. -/
def fileName : String := ".jsgettextrc.json"

/-- The entry that marks the root of a repository. -/
def repositoryMark : String := ".git"

/-- A path and the paths above it, the nearest first. The first argument
bounds how many those are. -/
def chain : (above : Nat) → Path → List Path
  | 0, p => [p]
  | above + 1, p =>
    match p.parent? with
    | some parent => p :: chain above parent
    | none => [p]

/-- The directories in which the settings are looked for, the first one first. -/
def searchPath (fs : FileSystem) (start : Path) : List Path :=
  let first := (fs.absolute? start).getD start
  chain (first.segments.length + 1) first

/-- Looks for the file through directories. -/
def findIn (fs : FileSystem) : List Path → Option Path
  | [] => none
  | directory :: rest =>
    if fs.exists? (directory.join ⟨fileName⟩) then some (directory.join ⟨fileName⟩)
    else if fs.exists? (directory.join ⟨repositoryMark⟩) then none
    else findIn fs rest

/-- The file with the settings for a directory. -/
def find? (fs : FileSystem) (start : Path) : Option Path := findIn fs (searchPath fs start)

/-- Why settings cannot be loaded. -/
inductive LoadError where
  | unreadable (error : FileError)
  | malformed (path : Path) (failure : Json.Failure)
  | invalid (problem : Problem)

/-- The wording of a load error. -/
def LoadError.message : LoadError → String
  | .unreadable error => error.message
  | .malformed path failure =>
    "Failed to parse config file: " ++ Text.quotedPath path.text ++ ": " ++ failure.message
  | .invalid problem => problem.message

/-- Settings, and whether they come from a file. -/
structure Loaded where
  /-- The settings. -/
  config : Config
  /-- Whether a file was found. -/
  fromFile : Bool

/-- Fails at the first problem of settings. -/
def check (config : Config) : Except Problem Unit :=
  match config.problem? with
  | some problem => .error problem
  | none => .ok ()

/-- Loads the settings for a directory; without a file they are the defaults. -/
def load (fs : FileSystem) (start : Path) : Except LoadError Loaded := do
  match find? fs start with
  | none => return { config := {}, fromFile := false }
  | some path =>
    let text ← (fs.readText path).mapError .unreadable
    let config ← (ofText text).mapError (.malformed path)
    (check config).mapError .invalid
    return { config, fromFile := true }

end StringHarvest.Config
