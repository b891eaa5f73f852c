import StringHarvest.Script.Parse.Types

/-!
# Blocks, functions and classes

Bodies of functions in all their forms, and classes with their members. Of a function its body is
kept, of a class its parent and its members.
-/

namespace StringHarvest.Script

open StringHarvest.Script.Parser

/-! ## Blocks -/

/-- Statements up to a closing brace, which is passed; a block that the end of
the text cuts off ends there. -/
def statements (g : Grammar) : Parser (List Stmt) :=
  repeating [] fun done => do
    if ← eat .braceR then pure (.inr done.reverse)
    else if ← atEnd then pure (.inr done.reverse)
    else
      let next ← g.statement true false
      pure (.inl (next :: done))

/-- Statements between braces. -/
def block (g : Grammar) : Parser (List Stmt) := do
  expect .braceL
  statements g

/-! ## Functions -/

/-- The context inside a function. -/
def Context.inFunction (isAsync isGenerator keepSuper : Bool) (c : Context) : Context :=
  { c with
    inAsync := isAsync
    inGenerator := isGenerator
    superAllowed := keepSuper && c.superAllowed
    noIn := false
    inConditional := false
    colonFollows := false
    arrowAt := none }

/-- The body of a function. Where types are, a signature may end like a statement instead. -/
def functionBody (g : Grammar) : Parser Body := do
  if (← typescript) && !(← atPunct .braceL) then
    if ← eatStatementEnd then return .absent
  return .block (← block g)

/-- Parameters, result type and body of a function, its parameters read by `params`. -/
def functionParts (g : Grammar) (params : Parser Unit) (isAsync isGenerator keepSuper : Bool) :
    Parser Body :=
  within (Context.inFunction isAsync isGenerator keepSuper) do
    optionalTypeParameters g
    expect .parenL
    params
    expect .parenR
    if (← typescript) && (← atPunct .colon) then predicateAnnotation g .colon
    functionBody g

/-- What follows the key of a method. -/
def method (g : Grammar) (isAsync isGenerator : Bool) : Parser Body :=
  within (fun c => { c with superAllowed := true })
    (functionParts g (parameters g) isAsync isGenerator true)

/-- What follows the word `function`: a star, a name where one is wanted or
allowed, and the rest. -/
def functionAfterWord (g : Grammar) (isAsync nameWanted : Bool) : Parser Body := do
  let isGenerator ← eat .star
  if nameWanted || (← atAnyWord) then
    let _ ← bindingName
  functionParts g (parameters g) isAsync isGenerator false

/-- The body of an arrow function: a block or an expression. -/
def arrowBody (g : Grammar) (isAsync : Bool) : Parser Body := do
  if ← atPunct .braceL then
    within (Context.inFunction isAsync false true) do return .block (← block g)
  else
    within (fun c => { c with inAsync := isAsync, inGenerator := false }) do
      return .value (← g.assign)

/-- Whether the word `function` follows on the same line. -/
def functionFollows : Parser Bool := do
  let (next, lineBreak) ← peek
  pure (next.isWord "function" && !lineBreak)

/-! ## Classes -/

/-- Whether a method follows its key here. -/
def atMethod : Parser Bool := do
  if ← atPunct .parenL then pure true else pure ((← typescript) && (← atPunct .lt))

/-- Whether a field follows its key here; with `lineEnds`, the end of a statement counts as well. -/
def atField (lineEnds : Bool) : Parser Bool := do
  if (← typescript) && (← atAny [.bang, .colon]) then pure true
  else if ← atAny [.assign, .braceR] then pure true
  else if lineEnds then atStatementEnd
  else atPunct .semi

/-- What follows the key of a field: marks, a type and an initial value. A
missing end is forgiven. -/
def field (g : Grammar) (key : Key) (keyStart : Nat) (isOptional isAccessor : Bool) :
    Parser ClassMember := do
  match key with
  | .name "constructor" | .string (some "constructor") => failAt keyStart .constructorField
  | _ => pure ()
  if (← typescript) && !isOptional then
    let _ ← eat .bang
  optionalAnnotation g
  let value ←
    within (fun c => { Context.inFunction false false true c with superAllowed := true }) do
      if ← eat .assign then pure (some (← g.assign)) else pure none
  let _ ← eatStatementEnd
  pure (if isAccessor then .accessor key value else .field key value)

/-- Whether a key names the function that sets up an instance. -/
def Key.isConstructor : Key → Bool
  | .name id => id == "constructor"
  | .string (some id) => id == "constructor"
  | _ => false

/-- A member that is named by a word which could also have been a modifier, if
that is what stands here. -/
def memberNamed (g : Grammar) (word : String) (start : Nat) : Parser (Option ClassMember) := do
  if ← atMethod then return some (.method (.name word) (← method g false false))
  if ← atField false then return some (← field g (.name word) start false false)
  return none

/-- What follows the key of the function that sets up an instance. -/
def initialiser (g : Grammar) : Parser ClassMember := do
  let body ← within (fun c => { c with superAllowed := true })
    (functionParts g (memberParameters g) false false true)
  pure (.initialiser body)

/-- A getter, a setter, an asynchronous method or a plain member, from its key on. -/
def keyedMember (g : Grammar) (start : Nat) (isStatic readonly isAccessor : Bool) :
    Parser ClassMember := do
  if ← eat .star then
    let k ← classKey g
    return .method k (← method g false true)
  let keyStart ← position
  let k ← if readonly && (← atAny [.bang, .colon]) then pure (.name "readonly") else classKey g
  let isOptional ← if ← typescript then eat .question else pure false
  if ← atMethod then
    if readonly then failAt start .readonlyMethod
    if k.isConstructor && !isStatic then return (← initialiser g)
    return .method k (← method g false false)
  let generatorOnNextLine := (← onNewLine) && (← atPunct .star)
  let accessorWord ← match k with
    | .name "get" | .name "set" => pure (!(← atField false) && !generatorOnNextLine)
    | _ => pure false
  if !accessorWord && (← atField true) then return (← field g k keyStart isOptional isAccessor)
  match k with
  | .name "async" =>
    if !(← onNewLine) then
      let _ ← modifier ["override"] false
      let isGenerator ← eat .star
      let asyncStart ← position
      let k ← classKey g
      if k.isConstructor then failAt asyncStart .asyncConstructor
      if readonly then failAt start .readonlyMethod
      if ← typescript then
        let _ ← eat .question
      return .method k (← method g true isGenerator)
  | _ => pure ()
  if accessorWord then
    let k ← classKey g
    return .method k (← method g false false)
  unexpected "* for generator, private key, identifier or async"

/-- The modifiers `abstract`, `readonly`, `override` and `static` in any order: whether `readonly`
and whether `static` were among them. -/
def memberModifiers : Parser (Bool × Bool × Bool) :=
  repeating (false, false, false) fun (readonly, isStatic, other) => do
    match ← modifier ["abstract", "readonly", "override", "static"] true with
    | some "readonly" => pure (.inl (true, isStatic, other))
    | some "static" => pure (.inl (readonly, true, other))
    | some _ => pure (.inl (readonly, isStatic, true))
    | none => pure (.inr (readonly, isStatic, other))

/-- A member of a class. -/
def classMember (g : Grammar) : Parser ClassMember := do
  let start ← position
  let ts ← typescript
  if ts then
    if ← eatWord "declare" then
      if let some m ← memberNamed g "declare" start then return m
  let accessibility ← modifier ["public", "protected", "private", "in", "out"] false
  if ts then
    if ← eatWord "declare" then
      if let some m ← memberNamed g "declare" start then return m
  let isStatic ← eatWord "static"
  let isAccessor ← if ts then eatWord "accessor" else pure false
  if isStatic && !isAccessor then
    if let some m ← memberNamed g "static" start then return m
  if isAccessor then
    if let some m ← memberNamed g "accessor" start then return m
  let (readonly, moreStatic, other) ← memberModifiers
  let isAccessor ←
    if ts && !isAccessor then
      let (next, lineBreak) ← peek
      if (← atWord "accessor") && !lineBreak && next.followsModifier then eatWord "accessor"
      else pure false
    else pure isAccessor
  let isStatic := isStatic || moreStatic
  if isStatic && (← atPunct .braceL) then
    return .staticBlock (← within
      (fun c => { Context.inFunction false false true c with superAllowed := true })
      (block g))
  let (next, _) ← peek
  if (← atWord "static") && next.isPunct .braceL then
    advance
    return .staticBlock (← within
      (fun c => { Context.inFunction false false true c with superAllowed := true })
      (block g))
  if ts && !other && accessibility.isNone then
    if ← indexSignature g then return .other
  keyedMember g start isStatic readonly isAccessor

/-- The members of a class up to its closing brace, which is not passed. -/
def classMembers (g : Grammar) : Parser (List ClassMember) :=
  repeating [] fun done => do
    if ← atPunct .braceR then pure (.inr done.reverse)
    else if ← eat .semi then pure (.inl (.other :: done))
    else
      let next ← within (fun c => { c with superAllowed := true }) (classMember g)
      pure (.inl (next :: done))

/-- One of the types that a class or an interface is said to extend: a dotted
name with type arguments. -/
def heritage (g : Grammar) : Parser Unit := do
  entityName
  if ← atAny [.lt, .shl] then typeArguments g

/-- A list of such types. -/
def heritageList (g : Grammar) : Parser Unit :=
  delimited (do pure ((← atPunct .braceL) || (← atWord "implements") || (← atWord "extends")))
    (heritage g)

/-- The parent of a class with its type arguments. -/
def parentClass (g : Grammar) : Parser Expr := do
  let parent ← g.leftSide
  if (← typescript) && (← atAny [.lt, .shl]) then typeArguments g
  pure parent

/-- What follows the word `class`. -/
def classAfterWord (g : Grammar) (nameWanted : Bool) : Parser Class := do
  let ts ← typescript
  let named := (← atAnyWord) && !(← atWord "extends")
    && !(ts && (← atWord "implements") && !nameWanted)
  if nameWanted || named then
    let _ ← bindingName
  optionalTypeParameters g
  let parent ←
    if ← eatWord "extends" then
      let parent ← parentClass g
      if ts then
        if ← eat .comma then heritageList g
      pure (some parent)
    else pure none
  if ← eatWord "extends" then
    let _ ← parentClass g
  if ts then
    if ← eatWord "implements" then heritageList g
    if ← eatWord "implements" then heritageList g
  let parent ←
    if ← eatWord "extends" then
      let late ← parentClass g
      pure (parent.or (some late))
    else pure parent
  expect .braceL
  let members ← within
    (fun c => { c with inConditional := false, colonFollows := false, noIn := false })
    (classMembers g)
  if !(← atEnd) then expect .braceR
  pure (.mk parent members)

end StringHarvest.Script
