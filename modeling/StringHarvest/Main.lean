import Std.Time.Zoned
import StringHarvest.Command.Run
import StringHarvest.Files.Changes

/-!
# The program

Takes an image of those parts of the disk that the command looks at, runs the command on it, and
does to the disk what the command did to the image.
-/

namespace StringHarvest.Disk

/-- The names that lead to an existing path, without `.`, `..` and empty segments. -/
def location? (path : Path) : IO (Option (List String)) := do
  try
    let real ← IO.FS.realPath (if path.text == "" then "." else path.text)
    return some ((real.toString.splitOn "/").filter (· != ""))
  catch _ => return none

/-- The path of a list of names. -/
def pathOf (location : List String) : Path := ⟨"/" ++ "/".intercalate location⟩

/-- The file at a path with its text. -/
def fileAt (path : Path) : IO Tree := do
  return .file (String.fromUTF8? (← IO.FS.readBinFile path.text))

/-- The tree at a location; files have no text yet. -/
partial def treeAt (location : List String) : IO Tree := do
  let path ← IO.FS.realPath (pathOf location).text
  if ← path.isDir then
    let names := (← path.readDir).toList.map (·.fileName)
    return .directory (← names.mapM fun name => return (name, ← treeAt (location ++ [name])))
  else return .file none

/-- Adds what stands at a path to an image: a file with its text, or a directory
with what the image has of it. -/
def addEntry (fs : FileSystem) (path : Path) : IO FileSystem := do
  let some location ← location? path | return fs
  if ← (← IO.FS.realPath (pathOf location).text).isDir then
    return if (fs.root.find? location).isSome then fs else fs.put location (.directory [])
  else return fs.put location (← fileAt (pathOf location))

/-- Adds all that stands at a path and below it to an image. -/
def addTree (fs : FileSystem) (path : Path) : IO FileSystem := do
  let some location ← location? path | return fs
  return fs.put location (← treeAt location)

/-- The image of an empty disk. -/
def empty : IO FileSystem := do
  let current := (← location? ⟨"."⟩).getD []
  return { root := (Tree.directory []).put (.directory []) current, current }

/-- The directory that holds everything that a source can stand for. -/
def fixedPart (root : Path) (source : String) : Path :=
  if Glob.isPattern source then
    let segments := source.splitOn "/"
    let fixed := segments.takeWhile fun s => !s.toList.any (['*', '?', '['].contains ·)
    root.join ⟨if source.startsWith "/" && fixed == [""] then "/" else "/".intercalate fixed⟩
  else root.join ⟨source⟩

/-- Adds what the search for settings looks at. -/
def addSettings (fs : FileSystem) (root : Path) : IO FileSystem := do
  let fs ← addEntry fs root
  (Config.searchPath fs root).foldlM
    (fun fs directory => do
      addEntry (← addEntry fs (directory.join ⟨Config.fileName⟩))
        (directory.join ⟨Config.repositoryMark⟩)) fs

/-- Adds what an extraction with the given settings looks at. -/
def addSources (fs : FileSystem) (root : Path) (config : Config) : IO FileSystem := do
  let sources := config.groups.flatMap (·.sources)
  let fs ← sources.foldlM (fun fs source => addTree fs (fixedPart root source)) fs
  let files := config.groups.flatMap fun group =>
    (discover fs root group.sources group.language).files
  let fs ← files.foldlM addEntry fs
  let template := root.resolve ⟨config.template⟩
  (Config.chain (template.segments.length + 1) template).foldlM addEntry fs

/-- The image of what a command looks at. -/
def image (invocation : Command.Invocation) : IO FileSystem := do
  let fs ← empty
  match invocation with
  | .overview => return fs
  | .init => addEntry fs ⟨Config.fileName⟩
  | .extract request =>
    let root : Path := ⟨request.root⟩
    let fs ← addSettings fs root
    match Command.settings fs request with
    | .error _ => return fs
    | .ok loaded => addSettings (← addSources fs root loaded.config) root

/-- Does one change to the disk. -/
def apply : Change → IO Unit
  | .makeDirectory path => IO.FS.createDirAll path.text
  | .writeText path text => IO.FS.writeFile path.text text

/-- The stamp of the time that it is. -/
def currentStamp : IO String := do
  let now ← Std.Time.Timestamp.now
  let rules ← Std.Time.Database.defaultGetLocalZoneRules
  return Date.localStamp (rules.timezoneAt now).offset.second.val now.toSecondsSinceUnixEpoch.val

/-- Prints what a command leads to and gives the exit code. -/
def finish (reply : Command.Reply) : IO UInt32 := do
  IO.print reply.output
  match reply with
  | .failed failure => IO.eprintln ("Error: " ++ failure.message)
  | .stopped (.usage _) => IO.eprint Command.HelpPage.overview.text
  | _ => pure ()
  return reply.exitCode.toUInt32

/-- Runs a command line on the disk. -/
def run (words : List String) : IO UInt32 := do
  match Command.Invocation.ofWords words with
  | .error stop => finish (.stopped stop)
  | .ok invocation =>
    let before ← image invocation
    let pinned? ← IO.getEnv "SOURCE_DATE_EPOCH"
    let (after, reply) := invocation.run before (Command.generationStamp pinned? (← currentStamp))
    (after.changesFrom before).forM apply
    finish reply

end StringHarvest.Disk

/-- Runs the program. -/
def main (words : List String) : IO UInt32 := StringHarvest.Disk.run words
