import StringHarvest.Glob.Pattern
import StringHarvest.Source.Language

/-!
# Settings

What a project sets for its messages: the names of the message functions, the template to write, and
groups of sources by language. `Config.problem?` finds the first thing that is wrong with them.
-/

namespace StringHarvest

/-- The names of message functions, written as one name or as a list. -/
inductive MessageFunctions where
  | one (name : String)
  | many (names : List String)
  deriving DecidableEq, Repr

/-- The names as a list. -/
def MessageFunctions.toList : MessageFunctions → List String
  | .one name => [name]
  | .many names => names

/-- Sources in one language. -/
structure SourceGroup where
  /-- The language. -/
  language : Language := .javascript
  /-- Patterns, files and directories. -/
  sources : List String := []
  deriving DecidableEq, Repr

/-- The settings of a project. -/
structure Config where
  /-- The names of the message functions. -/
  functionNames : MessageFunctions := .one "tr"
  /-- The template to write. -/
  template : String := "messages.pot"
  /-- The sources. -/
  groups : List SourceGroup := [{ sources := ["src"] }]
  deriving DecidableEq, Repr

namespace Config

/-- What can be wrong with settings. -/
inductive Problem where
  | noFunction
  | emptyFunction
  | emptyTemplate
  | badPattern (pattern : String) (error : Glob.PatternError)
  deriving DecidableEq, Repr

/-- The wording of a problem. -/
def Problem.message : Problem → String
  | .noFunction => "'functionName' must name at least one function"
  | .emptyFunction => "'functionName' must not contain empty names"
  | .emptyTemplate => "'potFile' must not be empty"
  | .badPattern pattern error =>
    "Invalid glob pattern in 'groups.src': \"" ++ pattern ++ "\": " ++ error.message

/-- Whether a text is empty or white space only. -/
def isBlankText (text : String) : Bool := Text.trimString text == ""

/-- The problem of a source, if it is a bad pattern. -/
def sourceProblem? (source : String) : Option Problem :=
  if Glob.isPattern source then
    match Glob.pieces source with
    | .ok _ => none
    | .error e => some (.badPattern source e)
  else none

/-- The first problem of settings. -/
def problem? (config : Config) : Option Problem :=
  let names := config.functionNames.toList
  if names.isEmpty then some .noFunction
  else if names.any isBlankText then some .emptyFunction
  else if isBlankText config.template then some .emptyTemplate
  else (config.groups.flatMap (·.sources)).findSome? sourceProblem?

end Config

end StringHarvest
