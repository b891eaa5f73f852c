import StringHarvest.Script.Parse.Statements

/-!
# Imports and exports

The items that only a module has. They are read for their form and their declarations; the names
that pass between modules leave nothing in the tree.
-/

namespace StringHarvest.Script

open StringHarvest.Script.Parser

/-! ## Shared pieces -/

/-- The attributes after the name of a module, if there are any. -/
def moduleAttributes (g : Grammar) : Parser Unit := do
  if (← atWord "with") || ((← atWord "assert") && !(← onNewLine)) then
    advance
    if !(← atPunct .braceL) then unexpected "\x7b"
    let _ ← objectLiteral g
  pure ()

/-- The name of a module, its attributes and the end of the statement. -/
def moduleName (g : Grammar) : Parser Unit := do
  match ← token with
  | .string _ => advance
  | _ => unexpected "a string literal"
  moduleAttributes g
  expectStatementEnd

/-- The clause that names the module after `from`. -/
def fromClause (g : Grammar) : Parser Unit := do
  expectWord "from"
  moduleName g

/-- Specifiers between braces, the opening one passed before. -/
def specifiers (one : Parser Unit) : Parser Unit := do
  repeating () fun _ => do
    if ← atPunct .braceR then pure (.inr ())
    else
      one
      if !(← atPunct .braceR) then expect .comma
      pure (.inl ())
  expect .braceR

/-- What an import alias stands for after its equals sign: a required module or a dotted name. -/
def aliasedModule : Parser Unit := do
  let (next, _) ← peek
  if (← atWord "require") && next.isPunct .parenL then
    advance
    advance
    match ← token with
    | .string _ => advance
    | _ => unexpected "a string literal"
    expect .parenR
  else
    if !(← atAnyWord) then fail .nameExpected
    entityName
  expectStatementEnd

/-! ## Imports -/

/-- The binding of an imported name, when it is not bound under its own name. -/
def renamed : Parser Bool := do
  if ← eatWord "as" then
    let _ ← bindingName
    pure true
  else pure false

/-- The end of an import specifier whose imported name is a word. A reserved word must
be bound under another name. -/
def importBinding (word : String) (start : Nat) : Parser Unit := do
  if !(← renamed) && isReserved word then failAt start .reservedImport

/-- A specifier of an import. With types, the word `type` may mark a specifier or be
its name: it is the name in `type as x` and in `type as as`, and the mark in `type x`,
`type as` and `type as as x`. -/
def importSpecifier : Parser Unit := do
  let ts ← typescript
  let start ← position
  match ← token with
  | .string value =>
    advance
    if !(← renamed) then failAt start (.stringImport (value.getD ""))
  | .word w =>
    advance
    if !(w == "type" && ts && (← atAnyWord)) then importBinding w start
    else if !(← eatWord "as") then
      let start ← position
      importBinding (← anyWord) start
    else if ← atAnyWord then
      let name ← bindingName
      if name == "as" && (← atAnyWord) then let _ ← bindingName
  | _ => fail .nameExpected

/-- Whether the words here start a list of imported types: `type` is followed
by a brace, a star or a name. -/
def atTypeImport : Parser Bool := do
  let (next, _) ← peek
  if !((← typescript) && (← atWord "type")) then return false
  match next with
  | .punct .braceL | .punct .star => return true
  | .word "from" => lookAhead do
    advance
    advance
    pure ((← atWord "from") || (← atPunct .assign))
  | .word w => return !isReserved w
  | _ => return false

/-- Whether `source` or `defer` here is a phase of the import and not its default binding. -/
def atPhase (word : String) : Parser Bool := do
  let (next, _) ← peek
  if !(← atWord word) then return false
  match next with
  | .punct .star => return word == "defer"
  | .word "from" => lookAhead do
    advance
    advance
    atWord "from"
  | .word w => return word == "source" && !isReserved w
  | _ => return false

/-- What an import declaration binds, from the first token after its default binding on. -/
def importedNames : Parser Unit := do
  if ← eat .star then
    expectWord "as"
    let _ ← bindingName
  else if ← eat .braceL then specifiers importSpecifier

/-- An import declaration after the word `import`. -/
def importDeclaration (g : Grammar) : Parser Item := do
  match ← token with
  | .string _ =>
    moduleName g
    return .imports
  | _ => pure ()
  if (← atTypeImport) || (← atPhase "source") || (← atPhase "defer") then advance
  if ← atName then
    let _ ← bindingName
    if (← typescript) && (← eat .assign) then
      aliasedModule
      return .link
    if !(← atWord "from") then
      expect .comma
      importedNames
  else importedNames
  fromClause g
  return .imports

/-! ## Exports -/

/-- One side of an export specifier. -/
def exportedName : Parser Unit := do
  match ← token with
  | .string _ => advance
  | _ => let _ ← anyWord

/-- A specifier of an export. With types, the word `type` may mark a specifier or
be its name, as in an import. -/
def exportSpecifier : Parser Unit := do
  let isType := (← typescript) && (← atWord "type")
  exportedName
  if !(isType && (← atAnyWord)) then exportedAs
  else if !(← eatWord "as") then
    let _ ← anyWord
    exportedAs
  else if ← atAnyWord then
    let name ← anyWord
    if name == "as" && (← atAnyWord) then let _ ← anyWord
where
  /-- The name under which something is exported, when it is not its own. -/
  exportedAs : Parser Unit := do
    if ← eatWord "as" then exportedName

/-- The first specifier of an export that is named by a string, from the token
after the brace on. -/
def stringSpecifier (s : State) : Parser (Option Nat) := do
  goto s
  repeating (none : Option Nat) fun found => do
    match ← token with
    | .string _ => pure (.inr (found.or (some (← position))))
    | .word "as" =>
      advance
      advance
      pure (.inl found)
    | .punct .braceR | .ended => pure (.inr found)
    | _ =>
      advance
      pure (.inl found)

/-- An export list after its opening brace. -/
def exportList (g : Grammar) : Parser Item := do
  let first ← state
  specifiers exportSpecifier
  if ← atWord "from" then
    fromClause g
    return .link
  let last ← state
  if let some offset ← stringSpecifier first then failAt offset .stringExport
  goto last
  let _ ← eatStatementEnd
  return .link

/-- What follows `export default`. -/
def exportDefault (g : Grammar) : Parser Item := do
  let ts ← typescript
  let (next, lineBreak) ← peek
  match ← token with
  | .word "abstract" =>
    if ts && next.isWord "class" && !lineBreak then
      advance
      advance
      return .exportDefaultClass (← classAfterWord g false)
  | .word "interface" =>
    if ts && next.isAnyWord && !lineBreak then
      advance
      interfaceDeclaration g
      return .exportDefaultInterface
  | .word "class" =>
    advance
    return .exportDefaultClass (← classAfterWord g false)
  | .word "async" =>
    if next.isWord "function" && !lineBreak then
      advance
      advance
      return .exportDefaultFunction (← functionAfterWord g true false)
  | .word "function" =>
    advance
    return .exportDefaultFunction (← functionAfterWord g false false)
  | _ => pure ()
  let value ← g.assignIn
  expectStatementEnd
  return .exportDefaultValue value

/-- The declaration after `export`, if one stands here. -/
def exportedDeclaration (g : Grammar) : Parser (Option Decl) := do
  let (next, lineBreak) ← peek
  match ← token with
  | .word "class" =>
    advance
    return some (.classDecl (← classAfterWord g true))
  | .word "async" =>
    if next.isWord "function" && !lineBreak then
      advance
      advance
      return some (.functionDecl (← functionAfterWord g true true))
    return none
  | .word "function" =>
    advance
    return some (.functionDecl (← functionAfterWord g false true))
  | .word "const" =>
    if ← atConstEnum then return some (← constEnum g)
    return some (← variableStatement g)
  | .word "var" => return some (← variableStatement g)
  | .word "let" =>
    if next.followsLet then return some (← variableStatement g)
    return none
  | _ => return none

/-- The exports that only a language with types has. -/
def typedExport (g : Grammar) : Parser (Option Item) := do
  if !(← typescript) then return none
  let (next, _) ← peek
  match ← token with
  | .punct .assign =>
    advance
    let value ← g.expressionIn
    expectStatementEnd
    return some (.exportAssign value)
  | .word "as" =>
    advance
    expectWord "namespace"
    let _ ← anyWord
    expectStatementEnd
    return some .link
  | .word "import" =>
    advance
    if (← atWord "type") && (← atTypeImport) then advance
    let _ ← bindingName
    expect .assign
    aliasedModule
    return some .link
  | .word "declare" =>
    if next.isAnyWord then
      advance
      if let some d ← ambientDeclaration g then return some (.exportDecl d)
    return none
  | .word "type" =>
    match next with
    | .punct .braceL | .punct .star => return none
    | _ => return (← optionally (wordDeclaration g "type" true)).map .exportDecl
  | .word w => return (← optionally (wordDeclaration g w true)).map .exportDecl
  | _ => return none

/-- An export declaration after the word `export`. -/
def exportDeclaration (g : Grammar) : Parser Item := do
  if ← atEnd then fail .unexpectedEnd
  if let some item ← typedExport g then return item
  if ← typescript then
    let _ ← eatWord "type"
  if ← eatWord "default" then return (← exportDefault g)
  if let some d ← exportedDeclaration g then return .exportDecl d
  if ← eat .star then
    if ← eatWord "as" then exportedName
    fromClause g
    return .link
  expect .braceL
  exportList g

/-! ## Items -/

/-- An item of a module or of a namespace. -/
def moduleItem (g : Grammar) : Parser Item := do
  match ← token with
  | .word "import" =>
    let (next, _) ← peek
    if next.isPunct .parenL || next.isPunct .dot then
      let value ← within (fun c => { c with noIn := false, arrowAt := none }) g.expression
      let _ ← eatStatementEnd
      return .statement (.expression value)
    advance
    importDeclaration g
  | .word "export" =>
    advance
    exportDeclaration g
  | _ => return .statement (← g.statement true true)

end StringHarvest.Script
