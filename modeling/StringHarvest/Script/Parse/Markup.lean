import StringHarvest.Script.Parse.Expressions

/-!
# Markup elements

Elements and fragments inside expressions. Their tags are read token by token in a mode of their
own (`retag`), the text between the tags character by character. A reader of an element stops
**at** its last `>`, so that the caller can go on in the mode that it needs: as an expression, as
text between tags, or inside a tag.
-/

namespace StringHarvest.Script

open StringHarvest.Script.Parser

/-- The name of a tag, possibly with dots or a colon, as it is written. -/
def tagName : Parser String := do
  let first ← part
  if ← atPunct .colon then
    advanceTag
    return first ++ ":" ++ (← part)
  repeating first fun name => do
    if ← atPunct .dot then
      advanceTag
      pure (.inl (name ++ "." ++ (← part)))
    else pure (.inr name)
where
  /-- One word of the name. -/
  part : Parser String := do
    match ← token with
    | .word w =>
      advanceTag
      pure w
    | _ => unexpected "jsx identifier"

/-- What stands between braces: nothing, a value, or a spread value. The
closing brace is not passed. -/
def container (g : Grammar) : Parser (Option Element) := do
  advance
  if ← atPunct .braceR then return none
  let value ←
    within (fun c => { c with colonFollows := false, inConditional := false }) do
      if ← eat .dots then pure (Element.spread (← g.expressionIn))
      else pure (Element.item (← g.expressionIn))
  if !(← atPunct .braceR) then
    let t ← token
    fail (.tokenExpected "\x7d" t.describe)
  pure (some value)

/-- The value of an attribute after its equals sign. -/
def attributeValue (g : Grammar) : Parser JsxPart := do
  let start ← position
  match ← token with
  | .string _ => advanceTag; pure .text
  | .punct .braceL =>
    match ← container g with
    | some (.item value) => advanceTag; pure (.value value)
    | some (.spread value) => advanceTag; pure (.value value)
    | _ => failAt start .emptyAttribute
  | .punct .lt =>
    let (nested, misfit) ← g.element
    advanceTag
    failIf misfit
    pure (.value nested)
  | _ => fail .invalidAttribute

/-- An attribute. -/
def tagAttribute (g : Grammar) : Parser JsxPart := do
  if ← atPunct .braceL then
    advance
    expect .dots
    let value ←
      within (fun c => { c with colonFollows := false, inConditional := false }) g.assignIn
    if !(← atPunct .braceR) then
      let t ← token
      fail (.tokenExpected "\x7d" t.describe)
    advanceTag
    pure (.spreadAttribute value)
  else
    let _ ← tagName
    if ← atPunct .assign then
      advanceTag
      attributeValue g
    else pure .text

/-- The attributes of a tag. -/
def tagAttributes (g : Grammar) : Parser (List JsxPart) :=
  repeating [] fun done => do
    if ← atAny [.gt, .slash] then pure (.inr done.reverse)
    else
      let next ← tagAttribute g
      pure (.inl (next :: done))

/-- Passes the text between tags after the current token, up to a brace, a tag or the end,
which becomes the current token. -/
def skipText : Parser Unit := fun _ s =>
  let text := s.rest.takeWhile fun c => c != '{' && c != '<'
  let here := s.rest.drop text.length
  let start := s.stop + text.length
  let stand (token : Token) (length : Nat) : State :=
    { token, start, lineBreak := false, here, stop := start + length, rest := here.drop length }
  match here with
  | '{' :: _ => .done () (stand (.punct .braceL) 1)
  | '<' :: '/' :: _ => .done () (stand (.punct .closeTag) 2)
  | '<' :: _ => .done () (stand (.punct .lt) 1)
  | _ => .done () (stand .ended 0)

/-- The children of an element whose opening tag ends at the current token, up to
the start of its closing tag. -/
def children (g : Grammar) : Parser (List JsxPart) := do
  skipText
  repeating [] fun done => do
    match ← token with
    | .punct .braceL =>
      let part ← match ← container g with
        | some (.spread value) => pure (.spreadChild value)
        | some (.item value) => pure (.value value)
        | _ => pure .text
      skipText
      pure (.inl (part :: done))
    | .punct .lt =>
      let (nested, misfit) ← g.element
      skipText
      failIf misfit
      pure (.inl (.value nested :: done))
    | .punct .closeTag => pure (.inr done.reverse)
    | t => fail (.tokenExpected "</" t.describe)

/-- The last `>` of a tag, which is not passed. -/
def tagEnd : Parser Unit := do
  if !(← atPunct .gt) then
    let t ← token
    fail (.tokenExpected ">" t.describe)

/-- A markup element or a fragment, up to its last `>`, which is not passed. A closing tag that does
not fit is a failure only after that, so it is given beside the element. -/
def markup (g : Grammar) : Parser (Expr × Option Failure) := do
  advanceTag
  if ← atPunct .gt then
    let parts ← children g
    advanceTag
    tagEnd
    return (.jsxFragment parts, none)
  let name ← tagName
  if (← typescript) && (← atPunct .lt) then
    let _ ← optionally do
      typeArguments g
      pure (some ())
    retag
  let settings ← tagAttributes g
  if ← atPunct .slash then
    advanceTag
    tagEnd
    return (.jsxElement settings [], none)
  let parts ← children g
  advanceTag
  let closingStart ← position
  let closing ← tagName
  tagEnd
  return (.jsxElement settings parts,
    if closing == name then none else some ⟨.closingTagExpected name, closingStart⟩)

end StringHarvest.Script
