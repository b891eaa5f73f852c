import StringHarvest.Script.Parse.Expressions

/-!
# Statements and declarations

Statements, and the declarations that a statement may be. A statement ends at a semicolon, before
a closing brace, at the end of the text or at a line break. Some statements forgive a missing
end, as `variableStatement` does.
-/

namespace StringHarvest.Script

open StringHarvest.Script.Parser

/-! ## Variables -/

/-- Whether a token after `let` makes it a declaration. -/
def Token.followsLet : Token → Bool
  | .word w => !isReserved w
  | .punct .bracketL | .punct .braceL => true
  | _ => false

/-- One variable: a pattern, a type and an initial value. Outside of loop
heads a pattern needs a value. -/
def declarator (g : Grammar) (isConst inHead : Bool) : Parser (Option Expr) := do
  let start ← position
  let isName := (← token).isAnyWord
  g.pattern
  if ← typescript then
    if isName then
      let _ ← eat .bang
    optionalAnnotation g
  if inHead && ((← atWord "in") || (← atWord "of")) then return none
  if ← eat .assign then return some (← g.assign)
  let c ← context
  if !isName && !inHead && !isConst && !c.ambient then failAt start .patternWithoutValue
  return none

/-- Variables between commas. A semicolon may follow a comma. -/
def declarators (g : Grammar) (isConst inHead : Bool) : Parser (List (Option Expr)) :=
  repeating [] fun done => do
    if ← atPunct .semi then pure (.inr done.reverse)
    else
      let next ← declarator g isConst inHead
      if ← eat .comma then pure (.inl (next :: done)) else pure (.inr (next :: done).reverse)

/-- Passes tokens up to the end of a statement. -/
def skipStatement : Parser Unit :=
  repeating () fun _ => do
    if ← eatStatementEnd then pure (.inr ())
    else
      advance
      match ← token with
      | .invalid fault offset => failAt offset fault
      | _ => pure (.inl ())

/-- A variable statement from its keyword on. When it does not end as a statement does, what follows
is passed up to the place where it does. -/
def variableStatement (g : Grammar) : Parser Decl := do
  let isConst ← atWord "const"
  advance
  let initials ← within (fun c => { c with noIn := false }) (declarators g isConst false)
  if !(← eatStatementEnd) then
    let _ ← attempt g.expression
    skipStatement
  return .variables initials

/-- Whether `using` declares variables here: a name must follow on the same line. -/
def atUsing : Parser Bool := do
  let c ← context
  let (next, lineBreak) ← peek
  pure ((← atWord "using") && next.isName c && !lineBreak)

/-- Whether `await using` declares variables here. -/
def atAwaitUsing : Parser Bool := lookAhead do
  expectWord "await"
  if ← onNewLine then return false
  atUsing

/-- A `using` declaration. -/
def usingStatement (g : Grammar) : Parser Decl := do
  let _ ← eatWord "await"
  advance
  let initials ← declarators g false false
  expectStatementEnd
  return .variables initials

/-! ## Declarations of types and namespaces -/

/-- An interface from its name on. -/
def interfaceDeclaration (g : Grammar) : Parser Unit := do
  let _ ← anyWord
  optionalTypeParameters g
  if ← eatWord "extends" then heritageList g
  if ← atWord "extends" then
    repeating () fun _ => do
      if (← atEnd) || (← atPunct .braceL) then pure (.inr ())
      else
        advance
        pure (.inl ())
  typeMembers g

/-- A type alias from its name on. -/
def aliasDeclaration (g : Grammar) : Parser Unit := do
  let _ ← anyWord
  optionalTypeParameters g
  if !(← eat .assign) then unexpected "="
  g.type
  expectStatementEnd

/-- A member of an enumeration. What can neither continue nor end it is passed like a comma. -/
def enumMember (g : Grammar) : Parser Unit := do
  match ← token with
  | .string _ | .number _ => advance
  | .punct .bracketL =>
    advance
    let _ ← g.expressionIn
    expect .bracketR
  | _ => let _ ← anyWord
  if ← eat .assign then
    let _ ← g.assignIn
  if !(← eat .comma) && !(← atPunct .braceR) then advance

/-- An enumeration from its name on. -/
def enumDeclaration (g : Grammar) : Parser Unit := do
  let _ ← anyWord
  expect .braceL
  repeating () fun _ => do
    if ← atPunct .braceR then pure (.inr ())
    else
      enumMember g
      pure (.inl ())
  expect .braceR

/-- The items of a namespace between braces; the end of the text may cut them off. -/
def namespaceItems (g : Grammar) : Parser (List Item) := do
  expect .braceL
  repeating [] fun done => do
    if ← eat .braceR then pure (.inr done.reverse)
    else if ← atEnd then pure (.inr done.reverse)
    else
      let next ← g.item
      pure (.inl (next :: done))

/-- A namespace from its first name on. -/
def dottedNamespace (g : Grammar) : Parser NamespaceBody := do
  let _ ← anyWord
  if ← eat .dot then return .nested (← g.namespaceBody)
  return .items (← namespaceItems g)

/-- A module that is named by a string, or the global one, from its name on. -/
def ambientModule (g : Grammar) : Parser Decl := do
  match ← token with
  | .string _ | .word "global" => advance
  | _ => unexpected "global or a string literal"
  if ← atPunct .braceL then return .namespaceDecl (.items (← namespaceItems g))
  expectStatementEnd
  return .namespaceDecl .absent

/-- The declaration that the given word introduces. With `pass` the word itself is the
current token; otherwise it has been read as an expression, and the word must be
followed by what it declares. -/
def wordDeclaration (g : Grammar) (word : String) (pass : Bool) : Parser (Option Decl) := do
  let step : Parser Unit := if pass then advance else Parser.pure ()
  match word with
  | "abstract" =>
    if pass || ((← atWord "class") && !(← onNewLine)) then
      step
      expectWord "class"
      return some (.classDecl (← classAfterWord g true))
    return none
  | "enum" =>
    if pass || (← atName) then
      step
      enumDeclaration g
      return some .typeOnly
    return none
  | "interface" =>
    if pass || (← atName) then
      step
      interfaceDeclaration g
      return some .typeOnly
    return none
  | "module" =>
    if ← onNewLine then return none
    step
    match ← token with
    | .string _ => return some (← ambientModule g)
    | _ =>
      if pass || (← atName) then return some (.namespaceDecl (← g.namespaceBody))
      return none
  | "namespace" =>
    if pass || (← atName) then
      step
      return some (.namespaceDecl (← g.namespaceBody))
    return none
  | "type" =>
    if pass || (!(← onNewLine) && (← atName)) then
      step
      aliasDeclaration g
      return some .typeOnly
    return none
  | _ => return none

/-- Whether a constant enumeration stands here. -/
def atConstEnum : Parser Bool := do
  let (next, _) ← peek
  pure ((← typescript) && (← atWord "const") && next.isWord "enum")

/-- A constant enumeration. -/
def constEnum (g : Grammar) : Parser Decl := do
  advance
  advance
  enumDeclaration g
  return .typeOnly

/-- What follows the word `declare`, if it is a declaration. -/
def ambientDeclaration (g : Grammar) : Parser (Option Decl) :=
  within (fun c => { c with ambient := true }) do
  match ← token with
  | .word "function" =>
    advance
    return some (.functionDecl (← functionAfterWord g false true))
  | .word "class" =>
    advance
    return some (.classDecl (← classAfterWord g true))
  | .word "const" =>
    if ← atConstEnum then return some (← constEnum g)
    return some (← variableStatement g)
  | .word "var" | .word "let" => return some (← variableStatement g)
  | .word "global" => return some (← ambientModule g)
  | .word w => wordDeclaration g w true
  | _ => return none

/-! ## Loops -/

/-- An expression between parentheses. -/
def parenthesized (g : Grammar) : Parser Expr := do
  expect .parenL
  let value ← g.expressionIn
  expect .parenR
  pure value

/-- The rest of the head of a counting loop after its first semicolon. -/
def countingHead (g : Grammar) : Parser LoopKind := do
  if !(← eat .semi) then
    let _ ← g.expressionIn
    expect .semi
  if !(← atPunct .parenR) then
    let _ ← g.expressionIn
  pure .forLoop

/-- What follows `in` or `of` in the head of a loop. -/
def eachHead (g : Grammar) : Parser LoopKind := do
  if ← eatWord "of" then
    let _ ← g.assignIn
    pure .forOfLoop
  else
    advance
    let _ ← g.expressionIn
    pure .forInLoop

/-- Whether `in` or `of` stands here. -/
def atEach : Parser Bool := do
  pure ((← atWord "in") || (← atWord "of"))

/-- The head of a `for` loop between its parentheses. -/
def forHead (g : Grammar) : Parser LoopKind := do
  let (next, _) ← peek
  if (← atWord "const") || (← atWord "var") || ((← atWord "let") && next.followsLet) then
    let isVar ← atWord "var"
    let isConst ← atWord "const"
    advance
    let _ ← within (fun c => { c with noIn := isVar || c.noIn }) (forVariables isConst)
    if ← atEach then return (← eachHead g)
    expect .semi
    return (← countingHead g)
  if ← eat .semi then return (← countingHead g)
  if (← atUsing) || (← atAwaitUsing) then
    if ← usingHead then return (← eachHead g)
  let first ← within (fun c => { c with noIn := true }) g.expression
  if ← atEach then
    if first.isLiteralPattern then
      if let some offset := first.patternFault then failAt offset .notAPattern
    return (← eachHead g)
  expect .semi
  countingHead g
where
  /-- The variables of a loop. -/
  forVariables (isConst : Bool) : Parser (List (Option Expr)) :=
    within (fun c => { c with noIn := true }) (declarators g isConst true)
  /-- The variable of a `using` loop, if this is one. -/
  usingHead : Parser Bool := do
    let found ← optionally do
      let _ ← eatWord "await"
      advance
      if ← atWord "of" then return none
      let _ ← bindingName
      if ← atEach then pure (some ()) else pure none
    pure found.isSome

/-! ## Statements -/

/-- The block of a `catch` or `finally` clause, if the clause stands here. -/
def clause (g : Grammar) (word : String) (head : Parser Unit) : Parser (Option (List Stmt)) := do
  if ← eatWord word then
    head
    return some (← block g)
  return none

/-- The variable of a `catch` clause. -/
def catchHead (g : Grammar) : Parser Unit := do
  if ← eat .parenL then
    g.pattern
    optionalAnnotation g
    expect .parenR

/-- The cases of a `switch` statement. -/
def switchCases (g : Grammar) : Parser (List Case) :=
  repeating [] fun done => do
    let isCase ← atWord "case"
    if isCase || (← atWord "default") then
      advance
      let test ← if isCase then pure (some (← g.expressionIn)) else pure none
      expect .colon
      let consequent ← repeating [] fun before => do
        if (← atEnd) || (← atWord "case") || (← atWord "default") || (← atPunct .braceR) then
          pure (.inr before.reverse)
        else
          let next ← g.statement true false
          pure (.inl (next :: before))
      pure (.inl (.mk test consequent :: done))
    else pure (.inr done.reverse)

/-- What follows the word `if`. -/
def ifStatement (g : Grammar) : Parser Stmt := do
  let test ← parenthesized g
  let consequent ← g.statement false false
  let alternate ← if ← eatWord "else" then pure (some (← g.statement false false)) else pure none
  pure (.ifElse test consequent alternate)

/-- The target of a `break` or `continue` statement and its end. -/
def jumpEnd : Parser Unit := do
  if !(← eatStatementEnd) then
    let _ ← bindingName
    expectStatementEnd

/-- The words that start a statement of their own, and the statement that follows them. -/
def keywordStatement (g : Grammar) (word : String) : Parser (Option Stmt) := do
  match word with
  | "break" => advance; jumpEnd; return some .breaks
  | "continue" => advance; jumpEnd; return some .continues
  | "debugger" => advance; expectStatementEnd; return some .debugger
  | "do" =>
    advance
    let body ← g.statement false false
    expectWord "while"
    let _ ← parenthesized g
    let _ ← eatStatementEnd
    return some (.loop .doWhileLoop body)
  | "for" =>
    advance
    let _ ← eatWord "await"
    expect .parenL
    let kind ← forHead g
    expect .parenR
    return some (.loop kind (← g.statement false false))
  | "if" => advance; return some (← ifStatement g)
  | "return" =>
    advance
    if ← atStatementEnd then
      let _ ← eatStatementEnd
      return some (.returns none)
    let value ← g.expressionIn
    expectStatementEnd
    return some (.returns (some value))
  | "switch" =>
    advance
    let subject ← parenthesized g
    expect .braceL
    let cases ← switchCases g
    expect .braceR
    return some (.switch subject cases)
  | "throw" =>
    advance
    if ← onNewLine then fail .lineBreakAfterThrow
    let value ← g.expressionIn
    expectStatementEnd
    return some (.throws value)
  | "try" =>
    advance
    let body ← block g
    let handler ← clause g "catch" (catchHead g)
    let finalizer ← clause g "finally" (pure ())
    return some (.tryCatch body handler finalizer)
  | "catch" =>
    let _ ← attempt (clause g "catch" (catchHead g))
    let _ ← attempt (clause g "finally" (pure ()))
    return some (.expression .missing)
  | "finally" =>
    let _ ← attempt (clause g "finally" (pure ()))
    return some (.expression .missing)
  | "with" =>
    advance
    let _ ← parenthesized g
    return some (.loop .withScope (← g.statement false false))
  | "while" =>
    advance
    let _ ← parenthesized g
    return some (.loop .whileLoop (← g.statement false false))
  | _ => return none

/-- The declaration that starts at the current word, if one does. -/
def declarationStatement (g : Grammar) (word : String) (declarations : Bool) :
    Parser (Option Decl) := do
  let ts ← typescript
  let (next, lineBreak) ← peek
  match word with
  | "function" =>
    advance
    return some (.functionDecl (← functionAfterWord g false true))
  | "class" =>
    advance
    return some (.classDecl (← classAfterWord g true))
  | "const" =>
    if ← atConstEnum then return some (← constEnum g)
    if declarations then return some (← variableStatement g)
    return none
  | "var" => return some (← variableStatement g)
  | "let" =>
    if declarations && next.followsLet then return some (← variableStatement g)
    return none
  | "using" =>
    if declarations && (← atUsing) then return some (← usingStatement g)
    return none
  | "await" =>
    if declarations && (← atAwaitUsing) then return some (← usingStatement g)
    return none
  | "interface" =>
    if ts && next.isAnyWord && !lineBreak then
      advance
      interfaceDeclaration g
      return some .typeOnly
    return none
  | "type" =>
    if ts && next.isAnyWord && !lineBreak then
      advance
      aliasDeclaration g
      return some .typeOnly
    return none
  | "enum" =>
    if ts then
      advance
      enumDeclaration g
      return some .typeOnly
    return none
  | "async" =>
    if ← functionFollows then
      advance
      advance
      return some (.functionDecl (← functionAfterWord g true true))
    return none
  | _ => return none

/-- A statement that starts with an expression: a label, a declaration whose first word was read as
a name, or the expression itself. -/
def expressionStatement (g : Grammar) : Parser Stmt := do
  let value ← g.expressionIn
  let ts ← typescript
  match value with
  | .name id =>
    if ← eat .colon then
      if ← eatWord "function" then
        return .labeled id (.declaration (.functionDecl (← functionAfterWord g false true)))
      return .labeled id (← g.statement false false)
    if id == "interface" && (← onNewLine) then
      let _ ← eatStatementEnd
      return .expression value
    if ts then
      if id == "declare" then
        if let some d ← ambientDeclaration g then return .declaration d
      else if id == "global" && (← atPunct .braceL) then
        return .declaration (.namespaceDecl (.items (← namespaceItems g)))
      else if let some d ← wordDeclaration g id false then return .declaration d
  | _ => pure ()
  if ← eatStatementEnd then return .expression value
  if (← token).isOperator then return .expression (← g.binaryTail value 0)
  fail .statementEndExpected

/-- A statement at the top level that awaits. -/
def awaitStatement (g : Grammar) : Parser Stmt := do
  let value ← within (fun c => { c with noIn := false }) do
    let awaited ← awaitExpression g
    g.binaryTail awaited 0
  let _ ← eatStatementEnd
  return .expression value

/-- An import that stands where a statement is wanted can only be an expression. -/
def importStatement (g : Grammar) : Parser Stmt := do
  let (next, _) ← peek
  if next.isPunct .parenL || next.isPunct .dot then
    let value ← g.expression
    let _ ← eatStatementEnd
    return .expression value
  fail .importOutsideModule

/-- A statement; with `declarations` also the declarations that a single statement may not be, and
with `topLevel` as at the top level of a script. -/
def statement (g : Grammar) (declarations topLevel : Bool) : Parser Stmt :=
  within (fun c =>
      { c with noIn := false, inConditional := false, colonFollows := false, arrowAt := none }) do
    match ← token with
    | .punct .braceL => return .block (← block g)
    | .punct .semi => advance; return .empty
    | .word w =>
      if w == "import" then return (← importStatement g)
      if w == "export" then fail .importOutsideModule
      if let some s ← keywordStatement g w then return s
      if let some d ← declarationStatement g w declarations then return .declaration d
      if topLevel && w == "await" then return (← awaitStatement g)
      expressionStatement g
    | _ => expressionStatement g

end StringHarvest.Script
