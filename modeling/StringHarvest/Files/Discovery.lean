import StringHarvest.Glob.Expand
import StringHarvest.Source.Language

/-!
# Finding source files

A source is a pattern or a path. Files are taken whatever they are called, directories are walked
for files of the language. Every source gives its files in the order of paths, and a file that an
earlier source gave is not repeated.
-/

namespace StringHarvest

/-- The directories that a walk does not enter. -/
def skippedDirectories : List String := ["node_modules", ".git"]

namespace Tree

mutual

/-- The files of a language below a directory at `path`, in the order of their names. -/
def sourceFiles (language : Language) (path : Path) : Tree → List Path
  | .file _ => []
  | .directory entries => (sortByName (entryFiles language path entries)).flatMap (·.2)

/-- The files of a language that each entry of a directory stands for or holds. -/
def entryFiles (language : Language) (path : Path) :
    List (String × Tree) → List (String × List Path)
  | [] => []
  | (name, .file _) :: rest =>
    let here := path.join ⟨name⟩
    (name, if language.covers here then [here] else []) :: entryFiles language path rest
  | (name, tree@(.directory _)) :: rest =>
    let files :=
      if skippedDirectories.contains name then []
      else sourceFiles language (path.join ⟨name⟩) tree
    (name, files) :: entryFiles language path rest

end

end Tree

/-- The files of sources, and how many of the sources could not be read. -/
structure Discovered where
  /-- The files. -/
  files : List Path := []
  /-- The number of sources that could not be read. -/
  skipped : Nat := 0
  deriving DecidableEq, Repr

namespace Discovered

/-- The files that a path stands for: itself or those below it. -/
def filesAt (fs : FileSystem) (language : Language) (path : Path) : Option (List Path) :=
  match fs.entry? path with
  | some (.file _) => some [path]
  | some tree => some (tree.sourceFiles language path)
  | none => none

/-- The files of one source, and how many sources could not be read; not yet in order. -/
def ofSource (fs : FileSystem) (base : Path) (language : Language) (source : String) :
    List Path × Nat :=
  let path := base.join ⟨source⟩
  if Glob.isPattern source then
    match Glob.expand fs path with
    | .ok paths => (paths.flatMap fun p => (filesAt fs language p).getD [], 0)
    | .error _ => ([], 0)
  else
    match filesAt fs language path with
    | some files => (files, 0)
    | none => ([], 1)

/-- Paths in their order. -/
def sortPaths (paths : List Path) : List Path := paths.mergeSort fun p q => p.compare q != .gt

/-- Adds files that are not there yet. -/
def addNew (files : List Path) : List Path → List Path
  | [] => files
  | p :: rest => if files.any p.same then addNew files rest else addNew (files ++ [p]) rest

/-- Adds the files of a source. -/
def add (fs : FileSystem) (base : Path) (language : Language) (found : Discovered)
    (source : String) : Discovered :=
  let (paths, skipped) := ofSource fs base language source
  { files := addNew found.files (sortPaths paths), skipped := found.skipped + skipped }

end Discovered

/-- Finds the files of sources below a base directory. -/
def discover (fs : FileSystem) (base : Path) (sources : List String) (language : Language) :
    Discovered :=
  sources.foldl (Discovered.add fs base language) {}

end StringHarvest
