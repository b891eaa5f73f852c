import StringHarvest.Script.Parse.Patterns

/-!
# Types

Types are read to know where they end; they leave nothing behind. A type is a conditional type over
function types, unions, intersections, operators, array suffixes and primary types (`typePhrase`).
Around types stand their lists (`typeArguments`, `typeParameters`) and the annotations with a
predicate (`predicateAnnotation`).
-/

namespace StringHarvest.Script

open StringHarvest.Script.Parser

/-- Items between commas up to a terminator that is not passed. -/
def delimited (atTerminator : Parser Bool) (one : Parser Unit) : Parser Unit :=
  repeating () fun _ => do
    if ← atTerminator then pure (.inr ())
    else
      one
      if ← eat .comma then pure (.inl ())
      else if ← atTerminator then pure (.inr ())
      else
        expect .comma
        pure (.inl ())

/-- Type arguments between angle brackets. -/
def typeArguments (g : Grammar) : Parser Unit := do
  splitLess
  expect .lt
  delimited atGreater g.type
  expectGreater

/-- A type after the given word, if the word stands here. -/
def typeAfterWord (g : Grammar) (word : String) : Parser Unit := do
  if ← eatWord word then g.type

/-- One type parameter: modifiers, a name, a constraint and a default. -/
def typeParameter (g : Grammar) : Parser Unit := do
  repeating () fun _ => do
    match ← modifier ["const", "in", "out"] false with
    | some _ => pure (.inl ())
    | none => pure (.inr ())
  let _ ← anyWord
  typeAfterWord g "extends"
  if ← eat .assign then g.type

/-- Type parameters between angle brackets. -/
def typeParameters (g : Grammar) : Parser Unit := do
  if !(← atPunct .lt) then unexpected "< (jsx tag start)"
  advance
  delimited atGreater (typeParameter g)
  expectGreater

/-- Type parameters, if some stand here. -/
def optionalTypeParameters (g : Grammar) : Parser Unit := do
  if (← typescript) && (← atPunct .lt) then typeParameters g

/-- An annotation after the given mark: a type, or a predicate `x is T`,
`asserts x`, `asserts x is T`. -/
def predicateAnnotation (g : Grammar) (mark : Punct) : Parser Unit := do
  expect mark
  let c ← context
  let (next, lineBreak) ← peek
  let asserts := (← atWord "asserts") && next.isName c && !lineBreak
  if asserts then advance
  let (next, lineBreak) ← peek
  let isPredicate := (← atName) && next.isWord "is" && !lineBreak
  if asserts || isPredicate then
    let _ ← anyWord
    if isPredicate then
      advance
      g.type
  else g.type

/-- A name with dots: `A.B.C`. -/
def entityName : Parser Unit := do
  let _ ← anyWord
  repeating () fun _ => do
    if ← eat .dot then
      let _ ← memberName
      pure (.inl ())
    else pure (.inr ())

/-- Type arguments that stand on the line of what they belong to. -/
def adjacentTypeArguments (g : Grammar) : Parser Unit := do
  if !(← onNewLine) && (← atAny [.lt, .shl]) then typeArguments g

/-! ## Members of object types -/

/-- The end of a member: a comma or the end of a statement. -/
def typeMemberEnd : Parser Unit := do
  if !(← eat .comma) then expectStatementEnd

/-- The parameters of a signature with their parentheses. -/
def signatureParameters (g : Grammar) : Parser Unit := do
  expect .parenL
  parameters g
  expect .parenR

/-- Type parameters, parameters and result of a signature. -/
def signature (g : Grammar) : Parser Unit := do
  optionalTypeParameters g
  signatureParameters g
  if ← atPunct .colon then predicateAnnotation g .colon

/-- The name of a member of an object type. -/
def typeMemberName (g : Grammar) : Parser Unit := do
  match ← token with
  | .punct .bracketL =>
    advance
    let _ ← g.assignIn
    expect .bracketR
  | .string _ | .number _ | .bigint _ => advance
  | _ => let _ ← memberName

/-- Whether an index signature stands here: a bracket, a name, and a colon or a comma. -/
def atIndexSignature : Parser Bool := lookAhead do
  expect .bracketL
  if !(← atName) then return false
  advance
  atAny [.colon, .comma]

/-- An index signature, if one stands here. -/
def indexSignature (g : Grammar) : Parser Bool := do
  if ← atIndexSignature then
    advance
    let _ ← anyWord
    if !(← eat .comma) then expect .colon
    g.type
    expect .bracketR
    optionalAnnotation g
    typeMemberEnd
    pure true
  else pure false

/-- An accessor of an object type, if one stands here. -/
def typeAccessor (g : Grammar) : Parser (Option Unit) := optionally do
  if ← eatWord "get" then
    typeMemberName g
    expect .parenL
    expect .parenR
    optionalAnnotation g
    typeMemberEnd
  else
    expectWord "set"
    typeMemberName g
    signatureParameters g
    typeMemberEnd
  pure (some ())

/-- A member of an object type. -/
def typeMember (g : Grammar) : Parser Unit := do
  if ← atAny [.parenL, .lt] then
    signature g
    typeMemberEnd
    return
  if ← atWord "new" then
    let (next, _) ← peek
    if next.isPunct .parenL || next.isPunct .lt then
      advance
      signature g
      typeMemberEnd
      return
  let readonly := (← modifier ["readonly"] false).isSome
  if ← indexSignature g then return
  if !readonly then
    if (← typeAccessor g).isSome then return
  typeMemberName g
  let _ ← eat .question
  if ← atAny [.parenL, .lt] then
    if readonly then fail .readonlyMethod
    signature g
  else optionalAnnotation g
  typeMemberEnd

/-- The members of an object type between braces. -/
def typeMembers (g : Grammar) : Parser Unit := do
  expect .braceL
  repeating () fun _ => do
    if ← atPunct .braceR then pure (.inr ())
    else
      typeMember g
      pure (.inl ())
  expect .braceR

/-- Whether a mapped type stands here. -/
def atMappedType : Parser Bool := lookAhead do
  expect .braceL
  if ← atAny [.plus, .minus] then
    advance
    return (← atWord "readonly")
  let _ ← eatWord "readonly"
  if !(← eat .bracketL) then return false
  if !(← atAnyWord) then return false
  advance
  atWord "in"

/-- A sign before a modifier of a mapped type. -/
def eatSign : Parser Bool := do
  if ← atAny [.plus, .minus] then
    advance
    pure true
  else pure false

/-- A mapped type. -/
def mappedType (g : Grammar) : Parser Unit := do
  expect .braceL
  if ← eatSign then expectWord "readonly" else let _ ← eatWord "readonly"
  expect .bracketL
  let _ ← anyWord
  expectWord "in"
  g.type
  typeAfterWord g "as"
  expect .bracketR
  if ← eatSign then expect .question else let _ ← eat .question
  if ← eat .colon then g.type
  expectStatementEnd
  expect .braceR

/-! ## Primary types -/

/-- A label of a tuple element with its colon, if one stands here. -/
def tupleLabel : Parser (Option Unit) := optionally do
  let _ ← anyWord
  let _ ← eat .question
  expect .colon
  pure (some ())

/-- An element of a tuple type. -/
def tupleElement (g : Grammar) : Parser Unit := do
  let _ ← eat .dots
  let _ ← tupleLabel
  g.type
  let _ ← eat .question

/-- A type taken from a module: `import("m").A<B>`. -/
def importType (g : Grammar) : Parser Unit := do
  expectWord "import"
  expect .parenL
  match ← token with
  | .string _ => advance
  | _ => unexpected "a string literal"
  if ← eat .comma then
    if !(← atPunct .parenR) then
      let _ ← g.assignIn
      let _ ← eat .comma
  expect .parenR
  if ← eat .dot then entityName
  adjacentTypeArguments g

/-- The pieces of a template literal type after its first piece. -/
def templateTypeTail (g : Grammar) : Parser Unit :=
  repeating () fun _ => do
    g.type
    if !(← atPunct .braceR) then unexpected "`\x7d`"
    rereadTemplate
    match ← token with
    | .template .closed _ => advance; pure (.inr ())
    | .template .hole _ => advance; pure (.inl ())
    | .invalid fault offset => failAt offset fault
    | _ => unexpected "`\x7d`"

/-- A type that no operator binds. -/
def primaryType (g : Grammar) : Parser Unit := do
  match ← token with
  | .ended => fail .unexpectedEnd
  | .invalid fault offset => failAt offset fault
  | .string _ | .number _ | .bigint _ => advance
  | .template .closed _ => advance
  | .template .hole _ => advance; templateTypeTail g
  | .punct .minus =>
    advance
    match ← token with
    | .number _ | .bigint _ => advance
    | _ => unexpected "numeric literal or bigint literal"
  | .punct .braceL => if ← atMappedType then mappedType g else typeMembers g
  | .punct .bracketL =>
    advance
    delimited (atPunct .bracketR) (tupleElement g)
    expect .bracketR
  | .punct .parenL =>
    advance
    g.type
    expect .parenR
  | .word "this" =>
    advance
    if !(← onNewLine) && (← atWord "is") then
      advance
      g.type
  | .word "asserts" =>
    advance
    if (← atWord "this") && !(← onNewLine) then
      advance
      if ← eatWord "is" then g.type
    else
      repeating () fun _ => do
        if ← eat .dot then
          let _ ← memberName
          pure (.inl ())
        else pure (.inr ())
      adjacentTypeArguments g
  | .word "typeof" =>
    advance
    if ← atWord "import" then importType g
    else
      entityName
      adjacentTypeArguments g
  | .word "import" => importType g
  | .word w =>
    if isReserved w && !(["void", "null", "true", "false"].contains w) then
      unexpected ("an identifier, void, yield, null, await, break, a string literal, a numeric literal, true, false, "
        ++ "`, -, import, this, typeof, \x7b, [, (")
    else
      eatParameterModifier
      entityName
      adjacentTypeArguments g
  | _ =>
    unexpected ("an identifier, void, yield, null, await, break, a string literal, a numeric literal, true, false, "
      ++ "`, -, import, this, typeof, \x7b, [, (")

/-- A primary type with its array suffixes and indices. -/
def arrayType (g : Grammar) : Parser Unit := do
  primaryType g
  repeating () fun _ => do
    if !(← onNewLine) && (← atPunct .bracketL) then
      advance
      if !(← eat .bracketR) then
        g.type
        expect .bracketR
      pure (.inl ())
    else pure (.inr ())

/-! ## Compound types -/

/-- The parts of a union or an intersection, with an optional operator before the first. -/
def operatorList (mark : Punct) (one : Parser Unit) : Parser Unit := do
  let _ ← eat mark
  one
  repeating () fun _ => do
    if ← eat mark then
      one
      pure (.inl ())
    else pure (.inr ())

/-- A function type without its conditional, for use before `extends`. -/
def functionType (g : Grammar) : Parser Unit := do
  optionalTypeParameters g
  signatureParameters g
  predicateAnnotation g .arrow

/-- Whether what follows a parenthesis can only be the parameters of a function type. -/
def atFunctionType (g : Grammar) : Parser Bool := do
  if ← atPunct .lt then return true
  if !(← atPunct .parenL) then return false
  lookAhead do
    advance
    if ← atAny [.parenR, .dots] then return true
    eatParameterModifier
    if ← atAnyWord then advance
    else if ← atAny [.braceL, .bracketL] then g.pattern
    else return false
    if ← atAny [.colon, .comma, .assign, .question] then return true
    if ← eat .parenR then atPunct .arrow else pure false

/-- A type that is neither conditional nor an operator's list: `infer`, operators
before a type, array types. -/
def operatorType (g : Grammar) (nonConditional : Parser Unit) : Parser Unit := do
  repeating () fun _ => do
    if (← atWord "keyof") || (← atWord "unique") || (← atWord "readonly") then
      advance
      pure (.inl ())
    else pure (.inr ())
  if ← eatWord "infer" then
    let _ ← anyWord
    let _ ← optionally do
      expectWord "extends"
      nonConditional
      if (← context).noConditionalType || !(← atPunct .question) then pure (some ()) else pure none
  else
    let _ ← modifier ["readonly"] false
    arrayType g

/-- A type that is not conditional. The depth bounds nested `infer` constraints. -/
def nonConditionalType (g : Grammar) : Nat → Parser Unit
  | 0 => fail .nestingLimit
  | depth + 1 => do
    if ← atFunctionType g then functionType g
    else
      let (next, _) ← peek
      if (← atWord "new") || ((← atWord "abstract") && next.isWord "new") then
        let _ ← eatWord "abstract"
        advance
        functionType g
      else operatorList .pipe (operatorList .amp (operatorType g (nonConditionalType g depth)))

/-- A type. -/
def typePhrase (g : Grammar) : Parser Unit :=
  within (fun c => { c with noConditionalType := false, noIn := false }) do
  let bound := (← context).bound
  nonConditionalType g bound
  if !(← onNewLine) && (← eatWord "extends") then
    within (fun c => { c with noConditionalType := true }) (nonConditionalType g bound)
    expect .question
    g.type
    expect .colon
    g.type

end StringHarvest.Script
