import StringHarvest.Path.Basic

/-!
# File trees

Files and directories as a value. Of a file its text is kept, if its bytes are text at all.
-/

namespace StringHarvest

/-- A file or a directory. The names in a directory are different from each other. -/
inductive Tree where
  /-- A file; one whose bytes are not UTF-8 has no text. -/
  | file (text : Option String)
  | directory (entries : List (String × Tree))

namespace Tree

instance : Inhabited Tree := ⟨.directory []⟩

/-- Whether this is a directory. -/
def isDirectory : Tree → Bool
  | .directory _ => true
  | .file _ => false

/-- The entries of a directory. -/
def entries : Tree → List (String × Tree)
  | .directory entries => entries
  | .file _ => []

/-- What stands under a name. -/
def child? (tree : Tree) (name : String) : Option Tree := tree.entries.lookup name

/-- What stands at the end of a list of names. -/
def find? (tree : Tree) : List String → Option Tree
  | [] => some tree
  | name :: rest => (tree.child? name).bind (·.find? rest)

/-- The entries after something has been put under a name. -/
def putEntry (name : String) (new : Tree) : List (String × Tree) → List (String × Tree)
  | [] => [(name, new)]
  | entry :: rest =>
    if entry.1 == name then (name, new) :: rest else entry :: putEntry name new rest

/-- The tree after something has been put at the end of a list of names; missing
directories are made on the way. -/
def put (tree : Tree) (new : Tree) : List String → Tree
  | [] => new
  | name :: rest =>
    let inner := (tree.child? name).getD (.directory [])
    .directory (putEntry name (inner.put new rest) tree.entries)

/-- Names in ascending order with what belongs to them. -/
def sortByName {α : Type} (named : List (String × α)) : List (String × α) :=
  named.mergeSort fun a b => a.1 ≤ b.1

mutual

/-- Everything below a tree at any depth, with its path below `path`. -/
def descendants (path : Path) : Tree → List (Path × Tree)
  | .file _ => []
  | .directory entries => entryDescendants path entries

/-- `descendants` over entries. -/
def entryDescendants (path : Path) : List (String × Tree) → List (Path × Tree)
  | [] => []
  | (name, tree) :: rest =>
    let here := path.join ⟨name⟩
    (here, tree) :: (descendants here tree ++ entryDescendants path rest)

end

end Tree

end StringHarvest
