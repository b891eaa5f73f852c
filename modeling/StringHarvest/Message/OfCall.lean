import StringHarvest.Message.Basic
import StringHarvest.Message.CommentAbove
import StringHarvest.Message.Options

/-!
# The message of a call

A message call is written in one of four shapes: with the singular alone, with a plural, and either
of them with options at the end.
-/

namespace StringHarvest

/-- A message call. -/
structure Call where
  /-- Its arguments. -/
  arguments : List Node
  /-- Where it starts. -/
  location : Option Location

namespace Call

/-- The plural and the options in what follows the first argument. -/
def pluralAndOptions : List Node → Traced (String × Options)
  | [] => pure ("", {})
  | second :: rest =>
    if second.isObject then do
      return ("", ← Options.ofNode second)
    else do
      let plural ← second.constantText
      match rest with
      | [] => return (plural, {})
      | third :: _ => return (plural, ← Options.ofNode third)

/-- The comment above a call and the one among its options, as one text. -/
def joinComments : (leading : Option String) → (own : String) → String
  | none, own => own
  | some leading, own => if own == "" then leading else leading ++ "\n" ++ own

/-- The message of a call among the given lines. A call without a text has none. -/
def message? (lines : List String) (call : Call) : Traced (Option Message) :=
  match call.arguments with
  | [] => .noting (.noArguments call.location) none
  | first :: rest => do
    let singular ← first.constantText
    let (plural, options) ← pluralAndOptions rest
    let leading := call.location.bind fun location => commentAbove? lines location.line
    if singular == "" then .noting (.emptySingular call.location) none
    else
      return some
        { singular
          plural
          context := options.context
          comment := joinComments leading options.comment }

end Call

end StringHarvest
