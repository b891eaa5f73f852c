import StringHarvest.Text.Blank

/-!
# Paths

A path is kept as it is written, because that is how it is shown again. What it means is given by
its components: repeated slashes, a slash at the end and inner `.` segments do not count, a
leading `.` does. Two paths are the same path when their components are equal, and paths are
ordered component by component.
-/

namespace StringHarvest

/-- A segment of a path. -/
inductive Component where
  /-- The slash in front. -/
  | root
  /-- A leading `.`. -/
  | here
  /-- A `..`. -/
  | up
  | name (text : String)
  deriving DecidableEq, Repr

namespace Component

/-- The class of a component in the order of components. -/
def rank : Component → Nat
  | .root => 0
  | .here => 1
  | .up => 2
  | .name _ => 3

/-- The text of a component in the order of components. -/
def text : Component → String
  | .name text => text
  | _ => ""

/-- The order of components: the root, `.`, `..`, and then names by their bytes. -/
def compare (a b : Component) : Ordering :=
  (Ord.compare a.rank b.rank).then (Ord.compare a.text b.text)

end Component

/-- A path as it is written. -/
structure Path where
  /-- Its text. -/
  text : String
  deriving DecidableEq, Repr, Inhabited

namespace Path

/-- The texts between the slashes. -/
def segments (p : Path) : List String :=
  (Text.splitAt '/' p.text.toList).map String.ofList

/-- Whether a path starts at the root. -/
def isAbsolute (p : Path) : Bool := p.text.startsWith "/"

/-- The component that a segment behind the first one stands for. -/
def component? (segment : String) : Option Component :=
  if segment == "" || segment == "." then none
  else if segment == ".." then some .up
  else some (.name segment)

/-- The components of a path. -/
def components (p : Path) : List Component :=
  match p.segments with
  | "" :: rest => (if p.isAbsolute then [.root] else []) ++ rest.filterMap component?
  | "." :: rest => .here :: rest.filterMap component?
  | segments => segments.filterMap component?

/-- Whether two paths are the same path. -/
def same (p q : Path) : Bool := p.components == q.components

/-- Lists of components in lexicographic order. -/
def compareComponents : List Component → List Component → Ordering
  | [], [] => .eq
  | [], _ :: _ => .lt
  | _ :: _, [] => .gt
  | a :: as, b :: bs => (a.compare b).then (compareComponents as bs)

/-- The order of paths. -/
def compare (p q : Path) : Ordering := compareComponents p.components q.components

/-- A path below another one; an absolute path stays itself. -/
def join (base p : Path) : Path :=
  if p.isAbsolute || base.text == "" then p
  else if base.text.endsWith "/" then ⟨base.text ++ p.text⟩
  else ⟨base.text ++ "/" ++ p.text⟩

/-- A path seen from a root directory; the current directory adds nothing. -/
def resolve (root p : Path) : Path :=
  if root.text == "" || root.components == [.here] then p else root.join p

/-- The name of what the path leads to, if it ends with one. -/
def fileName? (p : Path) : Option String :=
  match p.components.getLast? with
  | some (.name text) => some text
  | _ => none

/-- The part of a file name behind its last dot, unless that dot is the first character. -/
def extensionOf? (name : List Char) : Option String :=
  let after := name.reverse.takeWhile (· != '.')
  if name.length ≤ after.length + 1 then none else some (String.ofList after.reverse)

/-- The extension of a path. -/
def extension? (p : Path) : Option String :=
  p.fileName?.bind fun name => extensionOf? name.toList

/-- The segments without those at their end that stand for no component. -/
def dropIdle : List String → List String
  | [] => []
  | segment :: rest =>
    match dropIdle rest with
    | [] => if (component? segment).isNone then [] else [segment]
    | kept => segment :: kept

/-- The path without its last component; the root and the empty path have none to drop. -/
def parent? (p : Path) : Option Path :=
  let body := fun segments => dropIdle (dropIdle segments).dropLast
  match p.segments with
  | "" :: rest =>
    if (dropIdle rest).isEmpty then none
    else
      match body rest with
      | [] => some ⟨"/"⟩
      | kept => some ⟨"/" ++ "/".intercalate kept⟩
  | "." :: rest =>
    if (dropIdle rest).isEmpty then some ⟨""⟩
    else
      match body rest with
      | [] => some ⟨"."⟩
      | kept => some ⟨"./" ++ "/".intercalate kept⟩
  | segments =>
    if (dropIdle segments).isEmpty then none else some ⟨"/".intercalate (body segments)⟩

end Path

end StringHarvest
