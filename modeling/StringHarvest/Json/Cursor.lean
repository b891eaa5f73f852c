/-!
# Reading JSON: places and outcomes

A reader of JSON walks along a text with a `Cursor`: what is left of the text, and the place that
has been reached. Places count lines from one, and on a line the bytes that have been passed.

A failure may come without a place. It is then about the contents of a list or an object as a whole,
and whoever reads that list or object gives it the place where that ends.
-/

namespace StringHarvest.Json

/-- A place in a text. -/
structure Place where
  /-- The line. -/
  line : Nat
  /-- The bytes before the place on its line. -/
  column : Nat
  deriving DecidableEq, Repr

/-- The place that is some bytes further on; it may lie inside a character. -/
def Place.after (p : Place) (bytes : Nat) : List Char → Place
  | [] => p
  | c :: cs =>
    if bytes == 0 then p
    else if c == '\n' then Place.after ⟨p.line + 1, 0⟩ (bytes - 1) cs
    else if c.utf8Size ≤ bytes then
      Place.after ⟨p.line, p.column + c.utf8Size⟩ (bytes - c.utf8Size) cs
    else ⟨p.line, p.column + bytes⟩

/-- What is left of a text, and where that starts. -/
structure Cursor where
  /-- The place that has been reached. -/
  place : Place
  /-- What is left. -/
  rest : List Char

/-- The cursor at the start of a text. -/
def Cursor.first (text : String) : Cursor := ⟨⟨1, 0⟩, text.toList⟩

/-- The cursor behind the next character. -/
def Cursor.next (c : Cursor) : Cursor :=
  match c.rest with
  | [] => c
  | x :: rest => ⟨c.place.after x.utf8Size c.rest, rest⟩

/-- The cursor behind the given number of characters. -/
def Cursor.skip (c : Cursor) : Nat → Cursor
  | 0 => c
  | n + 1 => c.next.skip n

/-- Why a text cannot be read. -/
inductive Fault where
  | endInValue
  | endInList
  | endInObject
  | endInString
  | valueExpected
  | wordExpected
  | colonExpected
  | listEndExpected
  | objectEndExpected
  | keyExpected
  | trailingComma
  | trailingCharacters
  | invalidNumber
  | numberOutOfRange
  | invalidEscape
  | loneSurrogate
  | hexEscapeEnds
  | controlCharacter
  | nestingLimit
  /-- A value of one kind stands where one of another kind is wanted. -/
  | invalidType (found wanted : String)
  /-- A name is not among the allowed ones. -/
  | unknownVariant (name : String) (allowed : String)
  /-- A member occurs twice. -/
  | duplicateField (name : String)
  /-- A value has none of the forms that are wanted. -/
  | noVariant (wanted : String)
  deriving DecidableEq, Repr

/-- The wording of a fault. -/
def Fault.message : Fault → String
  | .endInValue => "EOF while parsing a value"
  | .endInList => "EOF while parsing a list"
  | .endInObject => "EOF while parsing an object"
  | .endInString => "EOF while parsing a string"
  | .valueExpected => "expected value"
  | .wordExpected => "expected ident"
  | .colonExpected => "expected `:`"
  | .listEndExpected => "expected `,` or `]`"
  | .objectEndExpected => "expected `,` or `\x7d`"
  | .keyExpected => "key must be a string"
  | .trailingComma => "trailing comma"
  | .trailingCharacters => "trailing characters"
  | .invalidNumber => "invalid number"
  | .numberOutOfRange => "number out of range"
  | .invalidEscape => "invalid escape"
  | .loneSurrogate => "lone leading surrogate in hex escape"
  | .hexEscapeEnds => "unexpected end of hex escape"
  | .controlCharacter => "control character (\\u0000-\\u001F) found while parsing a string"
  | .nestingLimit => "recursion limit exceeded"
  | .invalidType found wanted => "invalid type: " ++ found ++ ", expected " ++ wanted
  | .unknownVariant name allowed => "unknown variant `" ++ name ++ "`, expected " ++ allowed
  | .duplicateField name => "duplicate field `" ++ name ++ "`"
  | .noVariant wanted => "data did not match any variant of untagged enum " ++ wanted

/-- A fault at a place. -/
structure Failure where
  /-- What is wrong. -/
  fault : Fault
  /-- Where. -/
  place : Place
  deriving DecidableEq, Repr

/-- The wording of a failure. -/
def Failure.message (f : Failure) : String :=
  f.fault.message ++ " at line " ++ toString f.place.line ++ " column " ++ toString f.place.column

/-- The outcome of reading: a value, or a fault that may have no place yet; either way
the cursor that was reached. -/
inductive Outcome (α : Type) where
  | done (value : α) (cursor : Cursor)
  | failed (fault : Fault) (place : Option Place) (cursor : Cursor)

/-- A reader. -/
def Reader (α : Type) : Type := Cursor → Outcome α

namespace Reader

variable {α β : Type}

/-- Reads nothing. -/
@[inline] protected def pure (value : α) : Reader α := fun c => .done value c

/-- Reads one thing and then the one that depends on it. -/
@[inline] protected def bind (r : Reader α) (f : α → Reader β) : Reader β := fun c =>
  match r c with
  | .done value c => f value c
  | .failed fault place c => .failed fault place c

instance : Monad Reader where
  pure := Reader.pure
  bind := Reader.bind

/-- Fails at the cursor. -/
def failHere (fault : Fault) : Reader α := fun c => .failed fault (some c.place) c

/-- Fails some bytes ahead of the cursor. -/
def failAfter (bytes : Nat) (fault : Fault) : Reader α := fun c =>
  .failed fault (some (c.place.after bytes c.rest)) c

/-- Fails one byte ahead of the cursor, at the character that stands there. -/
def failAhead (fault : Fault) : Reader α := failAfter 1 fault

/-- Fails without a place. -/
def failAround (fault : Fault) : Reader α := fun c => .failed fault none c

/-- The next character, which is not passed. -/
def peek : Reader (Option Char) := fun c => .done c.rest.head? c

/-- Passes the next character. -/
def advance : Reader Unit := fun c => .done () c.next

/-- What is left of the text. -/
def remaining : Reader (List Char) := fun c => .done c.rest c

/-- Passes the given number of characters. -/
def skip (count : Nat) : Reader Unit := fun c => .done () (c.skip count)

/-- Whether a character is white space between the parts of JSON. -/
def isSpace (c : Char) : Bool := c == ' ' || c == '\n' || c == '\t' || c == '\r'

/-- Passes white space and gives the character behind it. -/
def peekToken : Reader (Option Char) := fun c =>
  let c := c.skip (c.rest.takeWhile isSpace).length
  .done c.rest.head? c

/-- Reads the contents of a list or an object and then its end. A failure of the contents without a
place gets the one that the end, as far as it can be read, leads to. -/
def enclosed (contents : Reader α) (ending : Reader Unit) : Reader α := fun c =>
  match contents c with
  | .done value c =>
    match ending c with
    | .done _ c => .done value c
    | .failed fault place c => .failed fault place c
  | .failed fault place c =>
    let c := match ending c with
      | .done _ c => c
      | .failed _ _ c => c
    .failed fault (some (place.getD c.place)) c

/-- Passes the given letters, the rest of a word whose first letter decided what it is. -/
def word : List Char → Reader Unit
  | [] => pure ()
  | x :: xs => do
    match ← peek with
    | none => failHere .endInValue
    | some c => if c == x then do advance; word xs else failAfter 1 .wordExpected

/-- Repeats a step until it gives a result; the bound is the length of the text, of
which every step takes some. -/
def repeatFrom {σ : Type} (step : σ → Reader (σ ⊕ α)) : Nat → σ → Reader α
  | 0, _ => failHere .endInValue
  | bound + 1, s => do
    match ← step s with
    | .inl s => repeatFrom step bound s
    | .inr result => pure result

/-- Repeats a step, every one of which passes at least one character or gives the result. -/
def repeating {σ : Type} (start : σ) (step : σ → Reader (σ ⊕ α)) : Reader α := fun c =>
  repeatFrom step (c.rest.length + 1) start c

end Reader

end StringHarvest.Json
