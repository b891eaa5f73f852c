import StringHarvest.Script.Lexer
import StringHarvest.Script.Tree

/-!
# Reading a script: state, outcome and the basic steps

A reader of scripts is a function from a context and a state to an outcome.

* **`State`** holds the current token together with the text from its first character on (so that it
  can be read again in another mode) and the text behind it. It is a plain value: to look ahead is
  to run a reader and forget its state, to go back is to use the old one.
* **`Outcome`** keeps the state in both cases, because some operands are allowed to fail: reading
  then goes on behind the fault with `Expr.missing` in their place.
* **`Grammar`** is the record of the recursive phrases. Every phrase of the grammar is a
  plain function of such a record; the knot is tied once, in `Grammar.ofDepth`, by
  recursion on the nesting depth.
-/

namespace StringHarvest.Script

/-! ## Context, state, outcome -/

/-- Where in a script reading takes place. -/
structure Context where
  /-- Whether types are part of the language. -/
  typescript : Bool
  /-- Whether markup elements are expressions. -/
  jsx : Bool
  /-- A bound for the length of lists, never less than the length of the text. -/
  bound : Nat
  /-- Inside an asynchronous function. -/
  inAsync : Bool := false
  /-- Inside a generator. -/
  inGenerator : Bool := false
  /-- Whether `in` is not an operator here, as in the head of a loop. -/
  noIn : Bool := false
  /-- Whether members of the parent class may be named. -/
  superAllowed : Bool := false
  /-- Inside a branch of a conditional expression. -/
  inConditional : Bool := false
  /-- Whether a colon must follow, because this is the first branch of a conditional expression. -/
  colonFollows : Bool := false
  /-- Whether a conditional type may not stand here. -/
  noConditionalType : Bool := false
  /-- Inside an ambient declaration. -/
  ambient : Bool := false
  /-- The offset at which an arrow function may start. -/
  arrowAt : Option Nat := none

/-- The current token and the text around it. -/
structure State where
  /-- The current token. -/
  token : Token
  /-- The offset of its first character. -/
  start : Nat
  /-- Whether a line break stands before it. -/
  lineBreak : Bool
  /-- The text from its first character on. -/
  here : List Char
  /-- The offset behind it. -/
  stop : Nat
  /-- The text behind it. -/
  rest : List Char

/-- A fault and the offset it points at. -/
structure Failure where
  /-- What is wrong. -/
  fault : Fault
  /-- Where. -/
  offset : Nat
  deriving DecidableEq, Repr

/-- The outcome of reading a phrase. -/
inductive Outcome (α : Type) where
  | done (value : α) (state : State)
  | failed (failure : Failure) (state : State)

/-- A reader of a phrase. -/
def Parser (α : Type) : Type := Context → State → Outcome α

namespace Parser

variable {α β σ : Type}

/-- Reads nothing. -/
@[inline] protected def pure (value : α) : Parser α := fun _ s => .done value s

/-- Reads one phrase and then the one that depends on it. -/
@[inline] protected def bind (p : Parser α) (f : α → Parser β) : Parser β := fun c s =>
  match p c s with
  | .done value s => f value c s
  | .failed failure s => .failed failure s

instance : Monad Parser where
  pure := Parser.pure
  bind := Parser.bind

instance : Inhabited (Parser α) := ⟨fun _ s => .failed ⟨.nestingLimit, s.start⟩ s⟩

/-- Fails at an offset. -/
def failAt (offset : Nat) (fault : Fault) : Parser α := fun _ s => .failed ⟨fault, offset⟩ s

/-- Fails as something before did, if it did. -/
def failIf : Option Failure → Parser Unit
  | none => fun _ s => .done () s
  | some failure => fun _ s => .failed failure s

/-- Fails at the current token. -/
def fail (fault : Fault) : Parser α := fun _ s => .failed ⟨fault, s.start⟩ s

/-- The context. -/
def context : Parser Context := fun c s => .done c s

/-- The state. -/
def state : Parser State := fun _ s => .done s s

/-- Goes to a state. -/
def goto (s : State) : Parser Unit := fun _ _ => .done () s

/-- Reads a phrase in a changed context. -/
def within (change : Context → Context) (p : Parser α) : Parser α := fun c s => p (change c) s

/-- The result of a phrase, or its failure; the state is the one that was reached either way. -/
def attempt (p : Parser α) : Parser (Except Failure α) := fun c s =>
  match p c s with
  | .done value s => .done (.ok value) s
  | .failed failure s => .done (.error failure) s

/-- Reads a phrase if that succeeds with a result, and nothing otherwise. -/
def optionally (p : Parser (Option α)) : Parser (Option α) := fun c s =>
  match p c s with
  | .done (some value) s => .done (some value) s
  | .done none _ => .done none s
  | .failed _ _ => .done none s

/-- What a phrase would give here, without reading it; a failure counts as `false`. -/
def lookAhead (p : Parser Bool) : Parser Bool := fun c s =>
  match p c s with
  | .done value _ => .done value s
  | .failed _ _ => .done false s

/-- Repeats a step at most `bound` times, until it gives a final result. -/
def repeatFrom (step : σ → Parser (σ ⊕ α)) : Nat → σ → Parser α
  | 0, _ => fail .nestingLimit
  | bound + 1, s => do
    match ← step s with
    | .inl s => repeatFrom step bound s
    | .inr result => pure result

/-- Repeats a step until it gives a final result. Every step takes part of the text, so
the bound is never reached. -/
def repeating (start : σ) (step : σ → Parser (σ ⊕ α)) : Parser α := fun c s =>
  repeatFrom step c.bound start c s

end Parser

open StringHarvest.Script.Parser

/-! ## Moving along the text -/

/-- The state whose current token is the next one of a text. -/
def State.scan (pos : Nat) (lineBreak : Bool) (text : List Char) : State :=
  let trivia := skipTrivia .plain pos lineBreak text
  let (token, length) := scanToken trivia.pos trivia.rest
  { token
    start := trivia.pos
    lineBreak := trivia.lineBreak
    here := trivia.rest
    stop := trivia.pos + length
    rest := trivia.rest.drop length }

/-- The state behind the current token. -/
def State.next (s : State) : State := State.scan s.stop false s.rest

/-- The state in which the current token has been read as another one. -/
def State.reread (s : State) (read : Token × Nat) : State :=
  { s with token := read.1, stop := s.start + read.2, rest := s.here.drop read.2 }

/-- The state at the first token. The start of a script counts as the start of a line. -/
def State.first (text : List Char) : State :=
  match text with
  | '#' :: '!' :: rest =>
    let line := rest.takeWhile fun c => !isLineBreak c
    State.scan (line.length + 2) false (rest.drop line.length)
  | text => State.scan 0 true text

/-- Passes the current token. -/
def advance : Parser Unit := fun _ s => .done () s.next

/-- Reads the current token again as one of a tag. -/
def retag : Parser Unit := fun _ s => .done () (s.reread (scanTag s.start s.here))

/-- Passes the current token and reads the next one as one of a tag. -/
def advanceTag : Parser Unit := do
  advance
  retag

/-- Reads the current token again as a regular expression. -/
def rereadRegex : Parser Unit := fun _ s => .done () (s.reread (regexToken s.start (s.here.drop 1)))

/-- Reads the current token again as the continuation of a template. -/
def rereadTemplate : Parser Unit :=
  fun _ s => .done () (s.reread (templateToken s.start (s.here.drop 1)))

/-- Reads the current token again as its first character. -/
def rereadFirst (mark : Punct) : Parser Unit := fun _ s => .done () (s.reread (.punct mark, 1))

/-! ## Looking at tokens -/

/-- The current token. -/
def token : Parser Token := fun _ s => .done s.token s

/-- The offset of the current token. -/
def position : Parser Nat := fun _ s => .done s.start s

/-- Whether a line break stands before the current token. -/
def onNewLine : Parser Bool := fun _ s => .done s.lineBreak s

/-- Whether types are part of the language. -/
def typescript : Parser Bool := fun c s => .done c.typescript s

/-- Whether a token is the given mark. -/
def Token.isPunct (t : Token) (mark : Punct) : Bool :=
  match t with
  | .punct m => m == mark
  | _ => false

/-- Whether a token is the given word. -/
def Token.isWord (t : Token) (text : String) : Bool :=
  match t with
  | .word w => w == text
  | _ => false

/-- Whether a token is any word. -/
def Token.isAnyWord : Token → Bool
  | .word _ => true
  | _ => false

/-- Whether the current token is the given mark. -/
def atPunct (mark : Punct) : Parser Bool := fun _ s => .done (s.token.isPunct mark) s

/-- Whether the current token is one of the given marks. -/
def atAny (marks : List Punct) : Parser Bool := fun _ s => .done (marks.any s.token.isPunct) s

/-- Whether the current token is the given word. -/
def atWord (text : String) : Parser Bool := fun _ s => .done (s.token.isWord text) s

/-- Whether the current token is any word. -/
def atAnyWord : Parser Bool := fun _ s => .done s.token.isAnyWord s

/-- Whether the text has ended. -/
def atEnd : Parser Bool := fun _ s => .done (s.token == .ended) s

/-- Whether a word can be a name here. -/
def isName (c : Context) (word : String) : Bool :=
  !isReserved word && !(word == "yield" && c.inGenerator) && !(word == "await" && c.inAsync)

/-- Whether a token is a word that can be a name here. -/
def Token.isName (c : Context) : Token → Bool
  | .word w => Script.isName c w
  | _ => false

/-- Whether the current token can be a name. -/
def atName : Parser Bool := fun c s => .done (s.token.isName c) s

/-- The token after the current one, and whether a line break stands between the two. -/
def peek : Parser (Token × Bool) := fun _ s =>
  let next := s.next
  .done (next.token, next.lineBreak) s

/-! ## Passing tokens -/

/-- Passes the given mark if it stands here. -/
def eat (mark : Punct) : Parser Bool := fun _ s =>
  if s.token.isPunct mark then .done true s.next else .done false s

/-- Passes the given word if it stands here. -/
def eatWord (text : String) : Parser Bool := fun _ s =>
  if s.token.isWord text then .done true s.next else .done false s

/-- Passes the given mark, which must stand here. -/
def expect (mark : Punct) : Parser Unit := fun _ s =>
  if s.token.isPunct mark then .done () s.next
  else .failed ⟨.tokenExpected mark.text s.token.describe, s.start⟩ s

/-- Passes the given word, which must stand here. -/
def expectWord (text : String) : Parser Unit := fun _ s =>
  if s.token.isWord text then .done () s.next
  else .failed ⟨.tokenExpected text s.token.describe, s.start⟩ s

/-- Fails because of the current token, saying what was wanted instead. -/
def unexpected {α : Type} (wanted : String) : Parser α := fun _ s =>
  .failed ⟨.unexpectedToken s.token.describe wanted, s.start⟩ s

/-- Whether a statement may end here: at a semicolon, at a closing brace, at
the end, or at a line break. -/
def State.statementEnds (s : State) : Bool :=
  s.token.isPunct .semi || s.token.isPunct .braceR || s.token == .ended || s.lineBreak

/-- Whether a statement may end here. -/
def atStatementEnd : Parser Bool := fun _ s => .done s.statementEnds s

/-- Ends a statement if that is possible here, passing the semicolon if there is one. -/
def eatStatementEnd : Parser Bool := fun _ s =>
  if s.token.isPunct .semi then .done true s.next else .done s.statementEnds s

/-- Ends a statement, which must be possible here. -/
def expectStatementEnd : Parser Unit := do
  if !(← eatStatementEnd) then
    let t ← token
    fail (.tokenExpected ";" t.describe)

/-- Passes a `>`, splitting it off a longer mark that starts with one. -/
def expectGreater : Parser Unit := do
  match ← token with
  | .punct .shr | .punct .ushr | .punct .ge | .punct .shrEq | .punct .ushrEq => rereadFirst .gt
  | _ => pure ()
  expect .gt

/-- Whether a `>` stands here, alone or at the start of a longer mark. -/
def atGreater : Parser Bool := atAny [.gt, .shr, .ushr, .ge, .shrEq, .ushrEq]

/-- Splits a `<` off a `<<`. -/
def splitLess : Parser Unit := do
  if ← atPunct .shl then rereadFirst .lt

/-- A word of any kind, as the name of a member. -/
def anyWord : Parser String := do
  match ← token with
  | .word w => advance; pure w
  | _ => fail .nameExpected

/-- A name that is bound or used by itself. A reserved word is refused, with
the exception of `enum`. -/
def bindingName : Parser String := do
  match ← token with
  | .word w =>
    if isReserved w && w != "enum" && w != "null" && w != "true" && w != "false" && w != "this" then
      fail .nameExpected
    else if w == "this" && !(← typescript) then fail .nameExpected
    else advance; pure w
  | _ => fail .nameExpected

/-! ## The recursive phrases -/

/-- The phrases through which the grammar is recursive. -/
structure Grammar where
  /-- An expression without a comma at its top. -/
  assign : Parser Expr
  /-- An operand of a binary operator. -/
  unary : Parser Expr
  /-- The operators that bind more tightly than the given degree, after their first operand. -/
  binaryTail : Expr → Nat → Parser Expr
  /-- An expression that may be called or assigned to. -/
  leftSide : Parser Expr
  /-- The callee of `new`, or any member expression. -/
  newCallee : Parser Expr
  /-- A type. -/
  type : Parser Unit
  /-- A pattern that binds names. -/
  pattern : Parser Unit
  /-- A markup element, up to and not beyond its last character, with the
  failure that its closing tag is. -/
  element : Parser (Expr × Option Failure)
  /-- A statement: whether declarations are allowed, and whether it stands at the top level. -/
  statement : (declarations topLevel : Bool) → Parser Stmt
  /-- An item of a module or of a namespace. -/
  item : Parser Item
  /-- What follows the first name of a namespace. -/
  namespaceBody : Parser NamespaceBody

/-- The record in which nothing can be read any more. -/
def Grammar.exhausted : Grammar where
  assign := fail .nestingLimit
  unary := fail .nestingLimit
  binaryTail _ _ := fail .nestingLimit
  leftSide := fail .nestingLimit
  newCallee := fail .nestingLimit
  type := fail .nestingLimit
  pattern := fail .nestingLimit
  element := fail .nestingLimit
  statement _ _ := fail .nestingLimit
  item := fail .nestingLimit
  namespaceBody := fail .nestingLimit

/-- An expression, `in` being an operator. -/
def Grammar.assignIn (g : Grammar) : Parser Expr :=
  within (fun c => { c with noIn := false }) g.assign

/-- One or more expressions between commas. -/
def Grammar.expression (g : Grammar) : Parser Expr := do
  let first ← g.assign
  if ← atPunct .comma then
    repeating [first] fun parts => do
      if ← eat .comma then
        let next ← g.assign
        pure (.inl (next :: parts))
      else pure (.inr (.sequence parts.reverse))
  else pure first

/-- `expression`, `in` being an operator. -/
def Grammar.expressionIn (g : Grammar) : Parser Expr :=
  within (fun c => { c with noIn := false }) g.expression

end StringHarvest.Script
