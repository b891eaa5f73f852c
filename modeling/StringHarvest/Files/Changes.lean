import StringHarvest.Files.System

/-!
# Changes of a file system

What has to be done to a file tree so that it becomes another one that has more
directories and other texts: the directories to make and the files to write, each
directory before what stands in it.
-/

namespace StringHarvest

/-- Something to be done at a path. -/
inductive Change where
  | makeDirectory (path : Path)
  | writeText (path : Path) (text : String)
  deriving DecidableEq, Repr

namespace Tree

mutual

/-- What makes the tree at a path out of what stood there before. -/
def changes (path : Path) (before : Option Tree) : Tree → List Change
  | .file none => []
  | .file (some text) =>
    match before with
    | some (.file (some old)) => if old == text then [] else [.writeText path text]
    | _ => [.writeText path text]
  | .directory entries =>
    (if before.any Tree.isDirectory then [] else [.makeDirectory path])
      ++ entryChanges path before entries

/-- What makes the entries of a directory. -/
def entryChanges (path : Path) (before : Option Tree) : List (String × Tree) → List Change
  | [] => []
  | (name, tree) :: rest =>
    changes (path.join ⟨name⟩) (before.bind (·.child? name)) tree ++ entryChanges path before rest

end

end Tree

/-- What makes a file system out of an earlier one. -/
def FileSystem.changesFrom (fs before : FileSystem) : List Change :=
  fs.root.changes ⟨"/"⟩ (some before.root)

end StringHarvest
