import StringHarvest.Node.Basic
import StringHarvest.Trace

/-!
# Constant names and texts

The two readings of a node as a constant: a dotted name such as `i18n.tr`, and a text put together
from string literals by `+`. A node that is neither reads as the empty text, which is noted.
-/

namespace StringHarvest.Node

/-- The dotted name that a node spells. A name whose owner cannot be read
keeps its dot and its last part. -/
def dottedName : Node → Traced String
  | .identifier name => pure name
  | node@(.member owner part computed) =>
    match owner, part, computed with
    | .identifier first, .identifier last, false => pure (first ++ "." ++ last)
    | .member .., .identifier last, false => do
      return (← dottedName owner) ++ "." ++ last
    | _, _, _ => .noting (.unhandledIdentifier node) ""
  | node => .noting (.unhandledIdentifier node) ""

/-- The text that a node spells: a string literal, or texts joined by `+`. -/
def constantText : Node → Traced String
  | .literal (.string value) => pure value
  | node@(.binary operator left right) =>
    if operator == "+" then do
      let first ← constantText left
      let second ← constantText right
      return first ++ second
    else .noting (.unhandledString node) ""
  | node => .noting (.unhandledString node) ""

end StringHarvest.Node
