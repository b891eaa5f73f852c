import StringHarvest.Script.Parse.Basic

/-!
# Names, keys and patterns

The places that name something: keys of members (`key`), patterns that bind
(`bindingPattern`), parameters (`parameters`), and the modifiers that may stand before them.
Patterns are checked and leave nothing behind.
-/

namespace StringHarvest.Script

open StringHarvest.Script.Parser

/-! ## Modifiers -/

/-- Whether a token may follow a modifier on the same line: something that starts a member. -/
def Token.followsModifier : Token → Bool
  | .word _ | .string _ | .number _ | .bigint _ => true
  | .punct .bracketL | .punct .braceL | .punct .star | .punct .dots | .punct .hash => true
  | _ => false

/-- One of the given modifiers, if one stands here before something it can modify. A `static` before
a block is none when `keepStaticBlock` is set. -/
def modifier (allowed : List String) (keepStaticBlock : Bool) : Parser (Option String) := do
  if !(← typescript) then return none
  match ← token with
  | .ended => fail .unexpectedEnd
  | .word w =>
    if !allowed.contains w then return none
    let (next, lineBreak) ← peek
    if keepStaticBlock && w == "static" && next.isPunct .braceL then return none
    if !lineBreak && next.followsModifier then
      advance
      return some w
    return none
  | _ => return none

/-- The modifiers of a parameter. -/
def parameterModifiers : List String := ["public", "protected", "private", "readonly"]

/-- Passes a modifier of a parameter. -/
def eatParameterModifier : Parser Unit := do
  if ← typescript then
    match ← token with
    | .word w =>
      if parameterModifiers.contains w then
        let (next, _) ← peek
        if next.isAnyWord || next.isPunct .braceL || next.isPunct .bracketL then
          let _ ← modifier parameterModifiers false
    | _ => pure ()

/-! ## Keys -/

/-- The key of a member. Computed keys of several expressions are accepted where types are. -/
def key (g : Grammar) : Parser Key := do
  match ← token with
  | .string value => advance; pure (.string value)
  | .number value => advance; pure (.number value)
  | .bigint value => advance; pure (.bigint value)
  | .word w => advance; pure (.name w)
  | .punct .bracketL =>
    advance
    let first ← g.assignIn
    let value ←
      if (← typescript) && (← atPunct .comma) then
        repeating [first] fun parts => do
          if ← eat .comma then pure (.inl ((← g.assignIn) :: parts))
          else pure (.inr (.sequence parts.reverse))
      else pure first
    expect .bracketR
    pure (.computed value)
  | _ => unexpected "identifier, string literal, numeric literal or [ for the computed key"

/-- A private name after its `#`. -/
def privateName : Parser String := do
  advance
  anyWord

/-- The key of a class member, which may be private. -/
def classKey (g : Grammar) : Parser Key := do
  if ← atPunct .hash then pure (.privateName (← privateName)) else key g

/-- What follows the dot of a member access. -/
def memberName : Parser Access := do
  if ← atPunct .hash then pure (.privateName (← privateName)) else pure (.name (← anyWord))

/-! ## Type annotations -/

/-- A type after a colon, if one stands here. -/
def optionalAnnotation (g : Grammar) : Parser Unit := do
  if (← typescript) && (← eat .colon) then g.type

/-! ## Patterns -/

/-- An optional initial value. -/
def optionalDefault (g : Grammar) : Parser Bool := do
  if ← eat .assign then
    let _ ← g.assignIn
    pure true
  else pure false

/-- The items of an array pattern, up to its bracket. -/
def arrayPattern (g : Grammar) : Parser Unit := do
  advance
  repeating () fun _ => do
    if ← atPunct .bracketR then pure (.inr ())
    else if ← eat .comma then pure (.inl ())
    else
      if ← eat .dots then g.pattern
      else
        g.pattern
        let _ ← optionalDefault g
      if !(← atPunct .bracketR) then expect .comma
      pure (.inl ())
  expect .bracketR

/-- A member of an object pattern. -/
def patternMember (g : Grammar) : Parser Unit := do
  if ← eat .dots then g.pattern
  else
    let k ← key g
    if ← eat .colon then
      g.pattern
      let _ ← optionalDefault g
    else
      match k with
      | .name _ => let _ ← optionalDefault g
      | _ => unexpected "an identifier"

/-- The members of an object pattern, up to its brace. -/
def objectPattern (g : Grammar) : Parser Unit := do
  advance
  repeating () fun _ => do
    if ← eat .braceR then pure (.inr ())
    else
      patternMember g
      if !(← atPunct .braceR) then expect .comma
      pure (.inl ())

/-- A pattern that binds names. -/
def bindingPattern (g : Grammar) : Parser Unit := do
  match ← token with
  | .word _ => let _ ← bindingName
  | .punct .bracketL => arrayPattern g
  | .punct .braceL => objectPattern g
  | .invalid fault offset => failAt offset fault
  | _ => unexpected "yield, an identifier, [ or \x7b"

/-! ## Parameters -/

/-- One parameter that is not a rest parameter: modifiers, a pattern, and in any order that the
language knows an optional mark, a type and a default. -/
def parameter (g : Grammar) : Parser Unit := do
  eatParameterModifier
  g.pattern
  let _ ← optionalDefault g
  if ← typescript then
    let _ ← eat .question
    optionalAnnotation g
  let _ ← optionalDefault g

/-- A parameter list up to its closing parenthesis, each parameter read by `one`. -/
def parametersBy (g : Grammar) (one : Parser Unit) : Parser Unit :=
  repeating () fun _ => do
    if ← atPunct .parenR then pure (.inr ())
    else
      if ← eat .dots then
        g.pattern
        let _ ← optionalDefault g
        optionalAnnotation g
        if ← typescript then
          let _ ← eat .question
      else one
      if !(← atPunct .parenR) then expect .comma
      pure (.inl ())

/-- A parameter list up to its closing parenthesis. -/
def parameters (g : Grammar) : Parser Unit := parametersBy g (parameter g)

/-- A parameter list of the function that sets up an instance, whose
parameters may declare members. -/
def memberParameters (g : Grammar) : Parser Unit :=
  parametersBy g do
    let _ ← modifier ["public", "protected", "private", "in", "out"] false
    let _ ← modifier ["override"] false
    let _ ← modifier ["readonly"] false
    parameter g

end StringHarvest.Script
