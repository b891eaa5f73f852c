import StringHarvest.Source.Basic

/-!
# Comments for translators

The lines directly above a call that start with `///` are a comment on its message.
-/

namespace StringHarvest

/-- What stands behind the mark of a comment line. -/
def commentText? (line : String) : Option String :=
  match line.toList with
  | '/' :: '/' :: '/' :: rest => some (String.ofList (Text.trim rest))
  | _ => none

/-- The texts of the comment lines that end with the line of the given number,
from first to last. -/
def commentTexts (lines : List String) : (number : Nat) → List String
  | 0 => []
  | n + 1 =>
    match (Source.line? lines (n + 1)).bind commentText? with
    | some text => commentTexts lines n ++ [text]
    | none => []

/-- The comment directly above the line of the given number. -/
def commentAbove? (lines : List String) (number : Nat) : Option String :=
  match commentTexts lines (number - 1) with
  | [] => none
  | texts => some ("\n".intercalate texts)

end StringHarvest
