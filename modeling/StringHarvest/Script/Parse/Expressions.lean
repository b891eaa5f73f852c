import StringHarvest.Script.Parse.Functions
import StringHarvest.Script.Target

/-!
# Expressions

From literals up to assignments. The phrases follow the binding strength: `primary`,
its `subscripts`, `newCallee` and `leftSide`, then `unary`, `binaryTail`,
`conditional` and `assignment`.

Three places need more than one token of foresight, and each of them simply tries a reading and
drops it when it does not work out: parentheses that may turn out to be parameters of an arrow
function, angle brackets that may turn out to be type arguments, and a colon that may turn out to be
the result type of an arrow function.

An operand that cannot be read does not always stop the reader: a unary operator accepts a missing
operand, and so does the left side of a binary operator.
-/

namespace StringHarvest.Script

open StringHarvest.Script.Parser

/-- Fails as another phrase failed. -/
def failLike {α : Type} (failure : Failure) : Parser α := fun _ s => .failed failure s

/-- Passes the current token and gives a value. -/
def passing {α : Type} (value : α) : Parser α := do
  advance
  pure value

/-! ## Arguments and arrays -/

/-- An expression with or without a spread before it. -/
def element (g : Grammar) : Parser Element := do
  if ← eat .dots then pure (.spread (← g.assignIn)) else pure (.item (← g.assignIn))

/-- An argument list with its parentheses. -/
def arguments (g : Grammar) : Parser (List Element) :=
  within (fun c => { c with colonFollows := false }) do
  expect .parenL
  let items ← repeating [] fun done => do
    if ← atPunct .parenR then pure (.inr done.reverse)
    else if done.isEmpty then pure (.inl [← element g])
    else
      expect .comma
      if ← atPunct .parenR then pure (.inr done.reverse)
      else pure (.inl ((← element g) :: done))
  expect .parenR
  pure items

/-- An array literal. -/
def arrayLiteral (g : Grammar) : Parser Expr :=
  within (fun c => { c with colonFollows := false }) do
  advance
  let items ← repeating [] fun done => do
    if ← atPunct .bracketR then pure (.inr done.reverse)
    else if ← eat .comma then pure (.inl (.hole :: done))
    else
      let next ← element g
      if !(← atPunct .bracketR) then expect .comma
      pure (.inl (next :: done))
  expect .bracketR
  pure (.array items)

/-! ## Objects -/

/-- A member of an object literal. -/
def objectMember (g : Grammar) : Parser Member := do
  let start ← position
  if ← eat .dots then return .spread (← g.assignIn)
  if ← eat .star then
    let k ← key g
    return .method start k (← method g false true)
  eatParameterModifier
  let k ← key g
  if ← eat .colon then return .keyed k (← g.assignIn)
  if ← atMethod then return .method start k (← method g false false)
  match k with
  | .name id =>
    let _ ← eat .question
    if ← eat .assign then return .initialised id (← g.assignIn)
    if ← atAny [.comma, .braceR] then return .shorthand id
    match id with
    | "get" | "set" =>
      let k ← key g
      return .accessor start k (← within (fun c => { c with superAllowed := true })
        (functionParts g (parameters g) false false true))
    | "async" =>
      let isGenerator ← eat .star
      let k ← key g
      return .method start k (← method g true isGenerator)
    | _ =>
      if ← typescript then
        unexpected "... , *,  (, [, :, , ?, =, an identifier, public, protected, private, readonly, <."
      else unexpected "... , *,  (, [, :, , ?, = or an identifier"
  | _ => unexpected "identifier"

/-- An object literal. -/
def objectLiteral (g : Grammar) : Parser Expr :=
  within (fun c => { c with colonFollows := false }) do
  expect .braceL
  let members ← repeating [] fun done => do
    if ← eat .braceR then pure (.inr done.reverse)
    else
      let next ← objectMember g
      if !(← atPunct .braceR) then expect .comma
      pure (.inl (next :: done))
  pure (.object members)

/-! ## Templates -/

/-- The substitutions of a template literal whose first piece is the current token. A bad escape is
a fault unless the template has a tag. -/
def templateHoles (g : Grammar) (hasTag : Bool) : Parser (List Expr) :=
  within (fun c => { c with colonFollows := false, inConditional := false }) do
    repeating [] fun done => do
      match ← token with
      | .template ending badEscape =>
        match hasTag, badEscape with
        | false, some (fault, offset) => failAt offset fault
        | _, _ =>
          advance
          match ending with
          | .closed => pure (.inr done.reverse)
          | .hole =>
            let value ← g.expressionIn
            if !(← atPunct .braceR) then unexpected "`\x7d`"
            rereadTemplate
            pure (.inl (value :: done))
      | .invalid fault offset => failAt offset fault
      | _ => fail .unterminatedTemplate

/-- Whether a template literal starts here. -/
def atTemplate : Parser Bool := do
  match ← token with
  | .template .. => pure true
  | _ => pure false

/-! ## Operators, as far as the parentheses below need them -/

/-- Whether a token is a binary operator that is written as a mark. -/
def Token.isOperator : Token → Bool
  | .punct mark => mark.precedence?.isSome
  | _ => false

/-- A unary expression and the binary operators behind it. When the first operand cannot be read but
an operator stands where reading stopped, the operand counts as missing. -/
def binary (g : Grammar) : Parser Expr := do
  match ← attempt g.unary with
  | .ok left => if left.isArrow then pure left else g.binaryTail left 0
  | .error failure =>
    let c ← context
    match ← token with
    | .invalid fault offset => failAt offset fault
    | .word "in" => if c.noIn then failLike failure else g.binaryTail .missing 0
    | .word "instanceof" => g.binaryTail .missing 0
    | t => if t.isOperator then g.binaryTail .missing 0 else failLike failure

/-- The assignment that continues an expression starting at `start`, if one does. -/
def finishAssignment (g : Grammar) (start : Nat) (left : Expr) : Parser Expr := do
  match ← token with
  | .punct mark =>
    if mark.assigns then
      if mark == .assign && left.isLiteralPattern then
        if let some offset := left.patternFault then failAt offset .notAPattern
      else if !left.isSimpleTarget then failAt start .invalidAssignmentTarget
      advance
      pure (.assign mark.text (← g.assign))
    else pure left
  | _ => pure left

/-- The two branches of a conditional expression after its question mark. -/
def branches (g : Grammar) (test : Expr) : Parser Expr := do
  let consequent ←
    within (fun c => { c with inConditional := true, colonFollows := true, noIn := false }) g.assign
  expect .colon
  let alternate ← within (fun c => { c with inConditional := true, colonFollows := false }) g.assign
  pure (.conditional test consequent alternate)

/-! ## Parentheses and arrow functions -/

/-- An item between parentheses that may be an expression or a parameter: the expression with its
offset, or nothing when it can only be a parameter. -/
structure ParenItem where
  /-- The offset of the item. -/
  start : Nat
  /-- The expression, if the item is one. -/
  value : Option Element

/-- The type and the default of a parameter that was first read as an expression. -/
def parameterTail (g : Grammar) (start : Nat) (value : Element) : Parser ParenItem := do
  match value with
  | .item e | .spread e =>
    if let some offset := e.patternFault then failAt offset .notAPattern
  | .hole => pure ()
  optionalAnnotation g
  let _ ← optionalDefault g
  pure ⟨start, none⟩

/-- An item between parentheses. -/
def parenItem (g : Grammar) : Parser ParenItem := do
  let start ← position
  within (fun c => { c with arrowAt := some start, noIn := false }) do
    eatParameterModifier
    if ← typescript then
      let c ← context
      let (next, _) ← peek
      let value ←
        if (← atName) || ((← atPunct .dots) && next.isName c) then
          if ← eat .dots then pure (Element.spread (← binary g))
          else
            let left ← binary g
            pure (Element.item (← finishAssignment g start left))
        else element g
      if ← atPunct .question then
        let (next, _) ← peek
        if [Punct.comma, .assign, .parenR, .colon].any next.isPunct then
          advance
          match value with
          | .item (.name _) | .spread (.name _) => return (← parameterTail g start value)
          | _ => failAt start .optionalPattern
        match value with
        | .item test =>
          advance
          let whole ← branches g test
          if ← atPunct .colon then return (← parameterTail g start (.item whole))
          return ⟨start, some (.item whole)⟩
        | _ => pure ()
      if ← atPunct .colon then return (← parameterTail g start value)
      return ⟨start, some value⟩
    else return ⟨start, some (← element g)⟩

/-- The items between parentheses, with both of them. -/
def parenItems (g : Grammar) : Parser (List ParenItem) :=
  within (fun c => { c with colonFollows := false }) do
    expect .parenL
    let items ← repeating [] fun done => do
      if ← atPunct .parenR then pure (.inr done.reverse)
      else
        let next ← parenItem g
        if !(← atPunct .parenR) then expect .comma
        pure (.inl (next :: done))
    expect .parenR
    pure items

/-- Fails if an item cannot be a parameter. -/
def checkParameters : List ParenItem → Parser Unit
  | [] => pure ()
  | item :: rest =>
    match item.value with
    | some (.item e) | some (.spread e) =>
      match e.patternFault with
      | some offset => failAt offset .notAPattern
      | none => checkParameters rest
    | _ => checkParameters rest

/-- The result type, arrow and body of an arrow function inside a branch of a conditional
expression, if they follow and leave the colon that the conditional still needs. -/
def arrowInBranch (g : Grammar) (items : List ParenItem) (isAsync : Bool) : Parser (Option Expr) :=
  optionally do
  predicateAnnotation g .colon
  expect .arrow
  checkParameters items
  let body ← arrowBody g isAsync
  if (← context).colonFollows && !(← atPunct .colon) then pure none
  else pure (some (.arrow body))

/-- The items between parentheses as expressions. -/
def parenValues : List ParenItem → Parser (List Element)
  | [] => pure []
  | item :: rest => do
    match item.value with
    | some value => pure (value :: (← parenValues rest))
    | none => failAt item.start .notAnExpression

/-- The items between parentheses as the parts of a sequence. -/
def plainValues : List ParenItem → Parser (List Expr)
  | [] => pure []
  | item :: rest => do
    match item.value with
    | some (.item value) => pure (value :: (← plainValues rest))
    | _ => failAt item.start .spreadInParentheses

/-- An arrow function whose body has been read; a block as its body may be
followed by an operator. -/
def arrowResult (g : Grammar) (body : Body) : Parser Expr := do
  match body with
  | .block _ => if (← token).isOperator then g.binaryTail (.arrow body) 0 else pure (.arrow body)
  | _ => pure (.arrow body)

/-- A parenthesized expression, an arrow function with its parameters in parentheses, or, after the
word `async` at `asyncStart`, a call of the function of that name. -/
def parenOrArrow (g : Grammar) (canBeArrow : Bool) (asyncStart : Option Nat) : Parser Expr := do
  let start := asyncStart.getD (← position)
  let isAsync := asyncStart.isSome
  let items ← parenItems g
  let c ← context
  if c.typescript && c.inConditional && (← atPunct .colon) then
    if let some arrow ← arrowInBranch g items isAsync then return arrow
  let hasResultType ←
    if c.typescript && !c.colonFollows && (← atPunct .colon) then
      let found ← optionally do
        predicateAnnotation g .colon
        if ← atPunct .arrow then pure (some ()) else pure none
      pure found.isSome
    else pure false
  let hasPattern := items.any fun item => item.value.isNone
  if hasPattern || hasResultType || (← atPunct .arrow) then
    if ← onNewLine then failAt start .lineBreakBeforeArrow
    if !canBeArrow then failAt start .arrowNotAllowed
    expect .arrow
    checkParameters items
    arrowResult g (← arrowBody g isAsync)
  else if isAsync then return .call start (.name "async") (← parenValues items) false
  else
    match ← plainValues items with
    | [] => failAt start .emptyParentheses
    | [value] => return .paren value
    | values => return .paren (.sequence values)

/-- What follows `async` before type parameters: an asynchronous arrow function, if it is one. -/
def genericAsyncArrow (g : Grammar) : Parser (Option Expr) := optionally do
  advance
  typeParameters g
  expect .parenL
  parameters g
  expect .parenR
  if ← atPunct .colon then predicateAnnotation g .colon
  expect .arrow
  pure (some (.arrow (← arrowBody g true)))

/-- What may follow a name that is an expression: the arrow that makes it a parameter. -/
def afterName (g : Grammar) (word : String) (canBeArrow : Bool) : Parser Expr := do
  if !canBeArrow || (← onNewLine) then return .name word
  let c ← context
  let (next, _) ← peek
  if word == "async" && (← atName) && !(c.noIn && (← atWord "of") && !next.isPunct .arrow) then
    let param ← bindingName
    if c.typescript && param == "as" && !(← atPunct .arrow) then
      g.type
      return .typed .ascription (.name word)
    expect .arrow
    return .arrow (← arrowBody g true)
  if ← eat .arrow then return (.arrow (← arrowBody g false))
  return .name word

/-- An expression that starts with a word. -/
def wordExpression (g : Grammar) (word : String) (canBeArrow : Bool) : Parser Expr := do
  let c ← context
  match word with
  | "this" => passing .this
  | "null" => passing (.literal .null)
  | "true" => passing (.literal (.boolean true))
  | "false" => passing (.literal (.boolean false))
  | "function" =>
    advance
    return .function (← functionAfterWord g false false)
  | "class" =>
    advance
    return .classValue (← classAfterWord g false)
  | "async" =>
    let start ← position
    if ← functionFollows then
      advance
      advance
      return .function (← functionAfterWord g true false)
    let (next, lineBreak) ← peek
    if canBeArrow && c.typescript && next.isPunct .lt then
      if let some arrow ← genericAsyncArrow g then return arrow
    if canBeArrow && next.isPunct .parenL && !lineBreak then
      advance
      return (← parenOrArrow g canBeArrow (some start))
    advance
    afterName g word canBeArrow
  | _ =>
    if isName c word then
      advance
      afterName g word canBeArrow
    else fail .expressionExpected

/-- An expression that no operator binds and no member is taken of. -/
def primary (g : Grammar) : Parser Expr := do
  let c ← context
  let s ← state
  let canBeArrow := c.arrowAt == some s.start
  match s.token with
  | .word word => wordExpression g word canBeArrow
  | .string value => passing (.literal (.string value))
  | .number value => passing (.literal (.number value))
  | .bigint value => passing (.literal (.bigint value))
  | .template .. => return .template (← templateHoles g false)
  | .punct .parenL => parenOrArrow g canBeArrow none
  | .punct .bracketL => arrayLiteral g
  | .punct .braceL => objectLiteral g
  | .punct .slash | .punct .slashEq =>
    rereadRegex
    match ← token with
    | .regex body flags => passing (.literal (.regex body flags))
    | _ => fail .expressionExpected
  | .punct .hash =>
    advance
    return .privateName (← anyWord)
  | _ => fail .expressionExpected

/-! ## Members and calls -/

/-- Whether a token can start an expression. -/
def Token.startsExpression : Token → Bool
  | .word w =>
    !isReserved w || ["class", "delete", "false", "function", "import", "new", "null", "super",
      "this", "true", "typeof", "void"].contains w
  | .string _ | .number _ | .bigint _ | .template .. | .regex .. => true
  | .punct mark =>
    [Punct.bang, .tilde, .plus, .minus, .plus2, .minus2, .parenL, .bracketL, .braceL, .hash,
      .slash, .slashEq, .lt].contains mark
  | _ => false

/-- Type arguments behind an expression that nothing calls: they stand unless what
follows makes them comparisons. -/
def freeTypeArguments (g : Grammar) : Parser (Option Unit) := optionally do
  typeArguments g
  let t ← token
  if [Punct.lt, .gt, .plus, .minus].any t.isPunct then pure none
  else if (← onNewLine) || t.isOperator || t.isWord "in" || t.isWord "instanceof"
      || !t.startsExpression then
    pure (some ())
  else pure none

/-- Type arguments that an argument list follows. -/
def callTypeArguments (g : Grammar) : Parser (Option Unit) := optionally do
  typeArguments g
  if ← atPunct .parenL then pure (some ()) else pure none

/-- A call, a tagged template or an instantiation with type arguments, if one follows. -/
def typedSubscript (g : Grammar) (start : Nat) (object : Expr) (noCall : Bool) :
    Parser (Option Expr) := do
  let called ← optionally do
    typeArguments g
    if !noCall && (← atPunct .parenL) then pure (some (.call start object (← arguments g) false))
    else if ← atTemplate then pure (some (.tagged object (← templateHoles g true)))
    else pure none
  match called with
  | some value => pure (some value)
  | none =>
    match ← freeTypeArguments g with
    | some () => pure (some (.typed .instantiation object))
    | none => pure none

/-- The optional member access or call after `?.`. -/
def optionalSubscript (g : Grammar) (start : Nat) (object : Expr) : Parser Expr := do
  if ← eat .bracketL then
    let value ← g.expressionIn
    expect .bracketR
    pure (.member object (.computed value) true)
  else
    if (← typescript) && (← atAny [.lt, .shl]) then typeArguments g
    if ← atPunct .parenL then pure (.call start object (← arguments g) true)
    else pure (.member object (← memberName) true)

/-- Members, calls and templates behind an expression that starts at `start`;
without calls if `noCall` is set. -/
def subscripts (g : Grammar) (noCall : Bool) (start : Nat) (first : Expr) : Parser Expr :=
  repeating first fun object => do
    let c ← context
    let s ← state
    match s.token with
    | .punct .bang =>
      if c.typescript && !s.lineBreak then
        advance
        pure (.inl (.typed .nonNull object))
      else pure (.inr object)
    | .punct .lt | .punct .shl =>
      if c.typescript then
        match ← typedSubscript g start object noCall with
        | some value => pure (.inl value)
        | none => pure (.inr object)
      else pure (.inr object)
    | .punct .bracketL =>
      advance
      let value ← g.expressionIn
      expect .bracketR
      pure (.inl (.member object (.computed value) false))
    | .punct .questionDot =>
      advance
      pure (.inl (← optionalSubscript g start object))
    | .punct .dot =>
      advance
      pure (.inl (.member object (← memberName) false))
    | .punct .parenL =>
      if noCall then pure (.inr object) else pure (.inl (.call start object (← arguments g) false))
    | .template .. => pure (.inl (.tagged object (← templateHoles g true)))
    | _ => pure (.inr object)

/-- A member or a call of the parent class. Members may be named inside methods only. -/
def superExpression (g : Grammar) (noCall : Bool) : Parser Expr := do
  let start ← position
  advance
  let c ← context
  if !noCall && (← atPunct .parenL) then
    subscripts g noCall start (.superCall start (← arguments g))
  else if ← eat .dot then
    let name ← memberName
    if !c.superAllowed then failAt start .invalidSuper
    subscripts g noCall start (.superMember name)
  else if ← eat .bracketL then
    let value ← g.expressionIn
    expect .bracketR
    if !c.superAllowed then failAt start .invalidSuper
    subscripts g noCall start (.superMember (.computed value))
  else failAt start .invalidSuper

/-- An import that is an expression: a call, or the properties of the module. -/
def importExpression (g : Grammar) (noCall : Bool) : Parser Expr := do
  let start ← position
  advance
  if ← eat .dot then
    match ← anyWord with
    | "meta" => subscripts g noCall start (.metaProperty "import.meta")
    | "defer" | "source" => subscripts g noCall start (.importCall start (← arguments g))
    | _ => unexpected "meta"
  else subscripts g noCall start (.importCall start (← arguments g))

/-- A `new` expression, or a primary expression with its members: what can be
called or constructed. -/
def newCallee (g : Grammar) : Parser Expr := do
  let start ← position
  match ← token with
  | .word "new" =>
    advance
    if ← eat .dot then
      if ← eatWord "target" then subscripts g true start (.metaProperty "new.target")
      else unexpected "target"
    else
      let callee ← g.newCallee
      match callee with
      | .member _ _ true => failAt start .optionalNew
      | _ => pure ()
      if (← typescript) && (← atAny [.lt, .shl]) then
        let _ ← callTypeArguments g
      if ← atPunct .parenL then subscripts g true start (.new callee (← arguments g))
      else pure (.new callee [])
  | .word "super" => superExpression g true
  | .word "import" => importExpression g true
  | _ =>
    let object ← primary g
    if object.isArrow then return object
    subscripts g true start object

/-- An expression that may be called or assigned to. -/
def leftSide (g : Grammar) : Parser Expr := do
  let c ← context
  let s ← state
  match s.token with
  | .punct .lt =>
    if c.jsx then
      let (element, misfit) ← g.element
      advance
      failIf misfit
      return element
    else fail .expressionExpected
  | .word "super" => superExpression g false
  | .word "import" => importExpression g false
  | _ =>
    let callee ← g.newCallee
    if callee.isArrow then return callee
    if c.typescript && (← atAny [.lt, .shl]) then
      let _ ← callTypeArguments g
    if ← atPunct .parenL then
      subscripts g false s.start (.call s.start callee (← arguments g) false)
    else pure callee

/-! ## Operators -/

/-- An awaited expression. Outside of asynchronous functions the word may stand alone, as a name. -/
def awaitExpression (g : Grammar) : Parser Expr := do
  advance
  if ← atPunct .star then fail .awaitStar
  let c ← context
  if !c.inAsync && ((← atStatementEnd) || (← atAny [.parenR, .bracketR, .comma])) then
    return .name "await"
  return .await (← g.unary)

/-- The operand of a unary operator; one that cannot be read counts as missing. -/
def operand (g : Grammar) : Parser Expr := do
  match ← attempt g.unary with
  | .ok value => pure value
  | .error _ => pure .missing

/-- The words that are unary operators. -/
def unaryWords : List String := ["delete", "void", "typeof"]

/-- An operand of a binary operator: operators before it, an update behind it. -/
def unary (g : Grammar) : Parser Expr := do
  let c ← context
  match ← token with
  | .punct .lt =>
    if c.typescript && !c.jsx then
      advance
      if ← eatWord "const" then
        expectGreater
        return .typed .constAssertion (← g.unary)
      g.type
      expectGreater
      return .typed .assertion (← g.unary)
    leftSide g
  | .punct .plus2 | .punct .minus2 =>
    advance
    return .update (← g.unary)
  | .punct .plus =>
    advance
    return .unary "+" (← operand g)
  | .punct .minus =>
    advance
    return .unary "-" (← operand g)
  | .punct .tilde =>
    advance
    return .unary "~" (← operand g)
  | .punct .bang =>
    advance
    return .unary "!" (← operand g)
  | .word "await" => awaitExpression g
  | .word w =>
    if unaryWords.contains w then
      advance
      return .unary w (← operand g)
    postfixed g
  | _ => postfixed g
where
  /-- An expression with an optional update behind it on the same line. -/
  postfixed (g : Grammar) : Parser Expr := do
    let value ← leftSide g
    if value.isArrow then return value
    if !(← onNewLine) && (← atAny [.plus2, .minus2]) then
      advance
      return .update value
    return value

/-- The binary operator that a token is here, with its binding strength. -/
def Token.operator? (noIn : Bool) : Token → Option (String × Nat)
  | .punct mark => mark.precedence?.map fun strength => (mark.text, strength)
  | .word "in" => if noIn then none else some ("in", 7)
  | .word "instanceof" => some ("instanceof", 7)
  | _ => none

/-- Whether an expression may not be raised to a power without parentheses. -/
def Expr.isUnary : Expr → Bool
  | .unary .. => true
  | .await _ => true
  | _ => false

/-- The binary operators behind a first operand, as far as they bind more tightly than `least`. Type
notes on the operand count as operators. -/
def binaryTail (g : Grammar) (first : Expr) (least : Nat) : Parser Expr :=
  repeating first fun left => do
    let c ← context
    let s ← state
    if c.typescript && !s.lineBreak && least < 7 && s.token.isWord "as" then
      advance
      if ← eatWord "const" then return .inl (.typed .constAssertion left)
      g.type
      return .inl (.typed .ascription left)
    if c.typescript && !s.lineBreak && s.token.isWord "satisfies" then
      advance
      g.type
      return .inl (.typed .satisfaction left)
    match s.token.operator? c.noIn with
    | none => return .inr left
    | some (operator, strength) =>
      if strength ≤ least then return .inr left
      advance
      if operator == "**" && left.isUnary then fail .unaryBeforePower
      let operand ← g.unary
      let right ← g.binaryTail operand (if operator == "**" then strength - 1 else strength)
      return .inl (.binary operator left right)

/-- A conditional expression, or less. -/
def conditional (g : Grammar) : Parser Expr := do
  let test ← binary g
  if test.isArrow then return test
  if ← eat .question then branches g test else pure test

/-- A `yield` expression. -/
def yieldExpression (g : Grammar) : Parser Expr := do
  advance
  if (← atStatementEnd) || !((← token).startsExpression || (← atPunct .star)) then
    return .yield none
  let _ ← eat .star
  return .yield (some (← g.assign))

/-- An arrow function after type parameters, if that is what stands here. -/
def genericArrow (g : Grammar) : Parser (Option Expr) :=
  within (fun c => { c with colonFollows := false }) <| optionally do
    typeParameters g
    let value ← g.assign
    if value.isArrow then pure (some value) else pure none

/-- Whether an expression may be followed by an assignment operator. -/
def Expr.canBeAssigned : Expr → Bool
  | .conditional .. => false
  | .binary .. => false
  | .unary .. => false
  | .update _ => false
  | _ => true

/-- Whether an arrow function may start with a token: a name or a parenthesis. -/
def Token.startsArrow (t : Token) : Bool :=
  match t with
  | .word w => !isReserved w
  | .punct .parenL => true
  | _ => false

/-- An expression without a comma at its top. -/
def assignment (g : Grammar) : Parser Expr := do
  let c ← context
  let s ← state
  match s.token with
  | .invalid fault offset => failAt offset fault
  | _ => pure ()
  let (next, _) ← peek
  if c.typescript && s.token.isPunct .lt && next.isAnyWord then
    if let some arrow ← genericArrow g then return arrow
  if c.inGenerator && s.token.isWord "yield" then return (← yieldExpression g)
  within (fun c => { c with arrowAt := if s.token.startsArrow then some s.start else none }) do
    let value ← conditional g
    if value.isArrow || !value.canBeAssigned then return value
    finishAssignment g s.start value

end StringHarvest.Script
