import StringHarvest.Catalog.OfSource
import StringHarvest.Catalog.Template
import StringHarvest.Files.System

/-!
# Extraction

The catalog of groups of files. The files of a group are read side by side, and their catalogs are
merged in the order of the files; the groups follow one after the other. One file that cannot be
read makes the whole extraction fail, before anything is written.

If several files of a group fail, the failure that is met first is reported. Which one that is
depends on the order in which the files are finished, and nothing else does: see `Schedule`.
-/

namespace StringHarvest

/-- Files in one language. -/
structure FileGroup where
  /-- The language. -/
  language : Language
  /-- The files. -/
  files : List Path

/-- What a group gave. -/
structure GroupCount where
  /-- The language of the group. -/
  language : Language
  /-- How many files it has. -/
  fileCount : Nat
  /-- How many messages its files hold. -/
  messageCount : Nat
  deriving DecidableEq, Repr

/-- The catalog of groups, and what each of them gave. -/
structure Extracted where
  /-- The catalog. -/
  catalog : Catalog
  /-- What each group gave. -/
  groups : List GroupCount

/-- Why an extraction fails. -/
inductive ExtractionError where
  | unreadable (path : Path) (error : FileError)
  | malformed (error : ParseError)
  | noDirectory (path : Path) (error : FileError)
  | unwritable (path : Path) (error : FileError)

/-- The wording of an extraction error. -/
def ExtractionError.message : ExtractionError → String
  | .unreadable path error => "Failed to read source file: " ++ path.text ++ ": " ++ error.message
  | .malformed error => error.message
  | .noDirectory path error => "Failed to create directory: " ++ path.text ++ ": " ++ error.message
  | .unwritable path error => "Failed to write template: " ++ path.text ++ ": " ++ error.message

/-- The order in which the files of a group are finished. They are read side by
side, so it can be any order. -/
structure Schedule where
  /-- The results of files, in the order in which the files are finished. -/
  finished : List (Except ExtractionError Catalog) → List (Except ExtractionError Catalog)
  /-- Every file is finished once. -/
  perm (results : List (Except ExtractionError Catalog)) : (finished results).Perm results

/-- The files are finished in their order. -/
def Schedule.inOrder : Schedule := ⟨id, fun _ => .rfl⟩

namespace Extraction

/-- The catalog of a file. -/
def ofFile (fs : FileSystem) (names : List String) (language : Language) (path : Path) :
    Except ExtractionError Catalog := do
  let text ← (fs.readText path).mapError (.unreadable path)
  let source ← (Source.parse text path.text language).mapError .malformed
  return Catalog.ofSource names source

/-- The failure that is met first, if any file fails. -/
def firstFailure? (results : List (Except ExtractionError Catalog)) : Option ExtractionError :=
  results.findSome? fun
    | .ok _ => none
    | .error e => some e

/-- The catalog of a group: the catalogs of its files, merged in their order. -/
def ofGroup (fs : FileSystem) (names : List String) (group : FileGroup)
    (schedule : Schedule := .inOrder) : Except ExtractionError Catalog :=
  let results := group.files.map (ofFile fs names group.language)
  match firstFailure? (schedule.finished results) with
  | some e => .error e
  | none => .ok ((results.filterMap (·.toOption)).foldl Catalog.merge .empty)

/-- The count of a group with the given catalog. -/
def count (group : FileGroup) (catalog : Catalog) : GroupCount :=
  { language := group.language, fileCount := group.files.length, messageCount := catalog.size }

/-- The catalogs of groups, merged in their order; `process` is applied to the whole. -/
def collect (fs : FileSystem) (names : List String) (process : Catalog → Catalog)
    (groups : List FileGroup) (schedule : Schedule := .inOrder) :
    Except ExtractionError Extracted := do
  let catalogs ← groups.mapM (ofGroup fs names · schedule)
  return {
    catalog := process (catalogs.foldl Catalog.merge .empty)
    groups := (groups.zip catalogs).map fun (group, catalog) => count group catalog }

/-- Makes the directories above a path. -/
def prepareParent (fs : FileSystem) (path : Path) : FileSystem × Option ExtractionError :=
  match path.parent? with
  | some parent =>
    if parent.text == "" then (fs, none)
    else
      match fs.createDirectories parent with
      | (fs, e) => (fs, e.map (.noDirectory parent))
  | none => (fs, none)

/-- Writes the template of a catalog and makes the directories above it. The file
system is given in any case. -/
def putTemplate (fs : FileSystem) (catalog : Catalog) (path : Path) (generatedAt : String) :
    FileSystem × Option ExtractionError :=
  match prepareParent fs path with
  | (fs, some e) => (fs, some e)
  | (fs, none) =>
    match fs.write path (Template.render catalog generatedAt) with
    | .ok fs => (fs, none)
    | .error e => (fs, some (.unwritable path e))

/-- Extracts the catalog of groups and writes its template. Nothing is written
when the extraction fails. -/
def write (fs : FileSystem) (names : List String) (process : Catalog → Catalog)
    (groups : List FileGroup) (path : Path) (generatedAt : String)
    (schedule : Schedule := .inOrder) : FileSystem × Except ExtractionError Extracted :=
  match collect fs names process groups schedule with
  | .error e => (fs, .error e)
  | .ok extracted =>
    match putTemplate fs extracted.catalog path generatedAt with
    | (fs, none) => (fs, .ok extracted)
    | (fs, some e) => (fs, .error e)

end Extraction

end StringHarvest
