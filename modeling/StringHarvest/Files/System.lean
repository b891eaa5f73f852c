import StringHarvest.Files.Tree

/-!
# File systems

A tree together with the directory in which the program works, and the operations on paths that the
program needs. A path is followed name by name: everything before its last name must be a directory,
`.` and an empty segment stay where they are, `..` goes up. There are no links.
-/

namespace StringHarvest

/-- Why an operation on a path fails. -/
inductive FileError where
  | notFound
  | notADirectory
  | isADirectory
  | alreadyExists
  | notText
  deriving DecidableEq, Repr

/-- The wording of a file error. -/
def FileError.message : FileError → String
  | .notFound => "No such file or directory (os error 2)"
  | .notADirectory => "Not a directory (os error 20)"
  | .isADirectory => "Is a directory (os error 21)"
  | .alreadyExists => "File exists (os error 17)"
  | .notText => "stream did not contain valid UTF-8"

/-- A file system as the program sees it. -/
structure FileSystem where
  /-- The tree from the root on. -/
  root : Tree
  /-- The names that lead to the directory of the program. -/
  current : List String

namespace FileSystem

/-- Follows one segment of a path from a location, which must be a directory. -/
def step (fs : FileSystem) (location : List String) (segment : String) :
    Except FileError (List String) :=
  match fs.root.find? location with
  | none => .error .notFound
  | some (.file _) => .error .notADirectory
  | some (.directory _) =>
    if segment == "" || segment == "." then .ok location
    else if segment == ".." then .ok location.dropLast
    else .ok (location ++ [segment])

/-- Follows the segments of a path. Nothing needs to stand at the end of it. -/
def locate (fs : FileSystem) (p : Path) : Except FileError (List String) :=
  if p.text == "" then .error .notFound
  else p.segments.foldlM fs.step (if p.isAbsolute then [] else fs.current)

/-- What stands at a path. -/
def entry (fs : FileSystem) (p : Path) : Except FileError Tree := do
  match fs.root.find? (← fs.locate p) with
  | some tree => .ok tree
  | none => .error .notFound

/-- What stands at a path, if anything does. -/
def entry? (fs : FileSystem) (p : Path) : Option Tree := (fs.entry p).toOption

/-- Whether anything stands at a path. -/
def exists? (fs : FileSystem) (p : Path) : Bool := (fs.entry? p).isSome

/-- Whether a directory stands at a path. -/
def isDirectory (fs : FileSystem) (p : Path) : Bool :=
  match fs.entry? p with
  | some tree => tree.isDirectory
  | none => false

/-- The text of the file at a path. -/
def readText (fs : FileSystem) (p : Path) : Except FileError String := do
  match ← fs.entry p with
  | .directory _ => .error .isADirectory
  | .file (some text) => .ok text
  | .file none => .error .notText

/-- The path from the root to what stands at a path. -/
def absolute? (fs : FileSystem) (p : Path) : Option Path :=
  match fs.locate p with
  | .ok location =>
    if (fs.root.find? location).isSome then some ⟨"/" ++ "/".intercalate location⟩ else none
  | .error _ => none

/-- Puts something at a location. -/
def put (fs : FileSystem) (location : List String) (tree : Tree) : FileSystem :=
  { fs with root := fs.root.put tree location }

/-- Writes a file, in place of the one that stood there. A path that ends with a
slash can only be a directory. -/
def write (fs : FileSystem) (p : Path) (text : String) : Except FileError FileSystem := do
  let bare : Path := ⟨String.ofList (p.text.toList.reverse.dropWhile (· == '/')).reverse⟩
  let location ← fs.locate (if bare.text == "" then p else bare)
  if bare != p then .error .isADirectory
  else
    match fs.root.find? location with
    | some (.directory _) => .error .isADirectory
    | _ => .ok (fs.put location (.file (some text)))

/-- Makes one directory. -/
def makeDirectory (fs : FileSystem) (p : Path) : Except FileError FileSystem := do
  let location ← fs.locate p
  match fs.root.find? location with
  | some _ => .error .alreadyExists
  | none => .ok (fs.put location (.directory []))

/-- Makes a directory and the missing ones above it. What has been made stays when the rest fails.
The first argument bounds how many directories are missing. -/
def makeDirectories (fs : FileSystem) : (above : Nat) → Path → FileSystem × Option FileError
  | 0, _ => (fs, some .notFound)
  | above + 1, p =>
    if p.text == "" then (fs, none)
    else
      match fs.makeDirectory p, p.parent? with
      | .ok fs, _ => (fs, none)
      | .error .notFound, some parent =>
        match fs.makeDirectories above parent with
        | (fs, some e) => (fs, some e)
        | (fs, none) =>
          match fs.makeDirectory p with
          | .ok fs => (fs, none)
          | .error e => (fs, if fs.isDirectory p then none else some e)
      | .error e, _ => (fs, if fs.isDirectory p then none else some e)

/-- Makes all directories of a path. -/
def createDirectories (fs : FileSystem) (p : Path) : FileSystem × Option FileError :=
  fs.makeDirectories (p.segments.length + 1) p

end FileSystem

end StringHarvest
