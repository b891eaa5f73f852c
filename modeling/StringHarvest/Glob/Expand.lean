import StringHarvest.Files.System
import StringHarvest.Glob.Pattern

/-!
# What a pattern stands for

The paths in a file system that a pattern stands for. A pattern is cut at its slashes, and every
segment is matched against one name of a path: literal segments are followed as they are written,
`**` goes to everything below.
-/

namespace StringHarvest.Glob

/-- The segments between the slashes of a text, without an empty one at its end. -/
def segmentTexts (text : String) : List String :=
  let parts := (Text.splitAt '/' text.toList).map String.ofList
  if parts.getLast? == some "" then parts.dropLast else parts

/-- Segments with `**` not repeated. -/
def collapse : List Segment → List Segment
  | [] => []
  | s :: rest =>
    match collapse rest with
    | t :: more => if s.isRecursive && t.isRecursive then t :: more else s :: t :: more
    | [] => [s]

/-- A path below another one, where the current directory is not written. -/
def below (path : Path) (name : String) : Path :=
  if path.components == [.here] then ⟨name⟩ else path.join ⟨name⟩

/-- Whether a literal segment leads on from a path. -/
def leadsOn (fs : FileSystem) (path : Path) (text : String) : Bool :=
  if text == "." || text == ".." then fs.isDirectory path else fs.exists? (below path text)

/-- The special names that a segment stands for. -/
def specialNames (s : Segment) : List String :=
  if s.startsWithDot then [".", ".."].filter s.fits else []

/-- The paths at and below a path that segments stand for. Behind `**` the next
segment is matched against the name of everything below the path; a `**` at the end
stands for the directories there. -/
def expandFrom (fs : FileSystem) (directoryWanted : Bool) : List Segment → Path → List Path
  | [], path => if !directoryWanted || fs.isDirectory path then [path] else []
  | s :: rest, path =>
    if s.isLiteral then
      if leadsOn fs path s.text then expandFrom fs directoryWanted rest (below path s.text) else []
    else
      match fs.entry? path with
      | some (.directory entries) =>
        if s.isRecursive then
          (Tree.entryDescendants (if path.components == [.here] then ⟨""⟩ else path)
              entries).flatMap fun (p, tree) =>
            match rest with
            | [] => if tree.isDirectory then [p] else []
            | t :: more =>
              if (p.fileName?.map t.fits).getD false then expandFrom fs directoryWanted more p
              else []
        else
          let names := (entries.map (·.1)).filter s.fits
          names.flatMap (fun name => expandFrom fs directoryWanted rest (below path name))
            ++ (specialNames s).flatMap
              (fun name => expandFrom fs directoryWanted rest (path.join ⟨name⟩))
      | _ => []

/-- The paths that a pattern stands for; a bad pattern is an error. -/
def expand (fs : FileSystem) (pattern : Path) : Except PatternError (List Path) := do
  let text := pattern.text
  let _ ← pieces text
  let (start, text) : Path × String :=
    if pattern.isAbsolute then (⟨"/"⟩, (text.drop 1).toString) else (⟨"."⟩, text)
  let segments ← (segmentTexts text).mapM Segment.parse
  match segments with
  | [] => return []
  | segments => return expandFrom fs (text.endsWith "/") (collapse segments) start

end StringHarvest.Glob
