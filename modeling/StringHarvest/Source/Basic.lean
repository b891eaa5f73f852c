import StringHarvest.Node.OfProgram
import StringHarvest.Script.Parse.Grammar
import StringHarvest.Source.Language

/-!
# Sources

A source is a text that has been read: its tree and its lines. The lines serve the
search for comments; they are cut at line feeds only, while the locations in the
tree also count other line ends.
-/

namespace StringHarvest

/-- A source that has been read. -/
structure Source where
  /-- The tree of the whole text. -/
  program : Node
  /-- Its lines. -/
  lines : List String

/-- Why a text could not be read. -/
structure ParseError where
  /-- The name under which the text was read. -/
  path : String
  /-- Where the fault is. -/
  location : Location
  /-- What is wrong. -/
  fault : Script.Fault

/-- The wording of a parse error. -/
def ParseError.message (e : ParseError) : String :=
  "Failed to parse " ++ e.path ++ ":" ++ toString e.location.line ++ ":"
    ++ toString e.location.column ++ ": "
    ++ e.fault.message

namespace Source

/-- Reads a text; the path tells how and is named in errors. -/
def parse (text path : String) (language : Language) : Except ParseError Source :=
  let cs := text.toList
  match Script.Program.parse language.hasTypes (language.hasMarkup path) cs with
  | .ok program =>
    .ok { program := Node.ofProgram (Text.locate cs) program, lines := Text.trimmedLines text }
  | .error failure =>
    .error { path, location := Text.locate cs failure.offset, fault := failure.fault }

/-- The line with the given number, counted from one. -/
def line? (lines : List String) (number : Nat) : Option String :=
  match number with
  | 0 => none
  | n + 1 => lines[n]?

end Source

end StringHarvest
