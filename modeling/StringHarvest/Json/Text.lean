import StringHarvest.Json.Cursor

/-!
# Strings in JSON

Reading a string behind its opening quote, and writing one. Written strings escape quotes,
backslashes and control characters and nothing else.
-/

namespace StringHarvest.Json

open Reader

/-! ## Reading -/

/-- The value of a hexadecimal digit. -/
def hexDigit? (c : Char) : Option Nat :=
  if '0' ≤ c && c ≤ '9' then some (c.toNat - 48)
  else if 'a' ≤ c && c ≤ 'f' then some (c.toNat - 87)
  else if 'A' ≤ c && c ≤ 'F' then some (c.toNat - 55)
  else none

/-- The number that hexadecimal digits spell. -/
def hexValue? (cs : List Char) : Option Nat :=
  cs.foldl (fun n c => n.bind fun n => (hexDigit? c).map fun d => 16 * n + d) (some 0)

/-- The number of bytes of a text. -/
def byteSize : List Char → Nat
  | [] => 0
  | c :: rest => c.utf8Size + byteSize rest

/-- The unit that the four digits of an escape spell. -/
def hexUnit : Reader Nat := do
  let cs ← remaining
  let digits := cs.take 4
  match if digits.length == 4 then hexValue? digits else none with
  | some n =>
    skip 4
    pure n
  | none =>
    if byteSize digits < 4 then do
      skip cs.length
      failHere .endInString
    else failAfter 4 .invalidEscape

/-- The character of an escape that starts with a high surrogate: the low one must follow. -/
def lowSurrogate (high : Nat) : Reader Char := do
  pass '\\'
  pass 'u'
  let low ← hexUnit
  if low < 0xDC00 || 0xDFFF < low then failHere .loneSurrogate
  else pure (Char.ofNat (0x10000 + (high - 0xD800) * 0x400 + (low - 0xDC00)))
where
  /-- Passes one character of the second half. -/
  pass (wanted : Char) : Reader Unit := do
    match ← peek with
    | none => failHere .endInString
    | some c => if c == wanted then advance else failAfter 1 .hexEscapeEnds

/-- The character of an escape with a code. Where the text is not wanted any code will do. -/
def codeEscape (wanted : Bool) : Reader Char := do
  let n ← hexUnit
  if !wanted then pure ' '
  else if 0xDC00 ≤ n && n ≤ 0xDFFF then failHere .loneSurrogate
  else if 0xD800 ≤ n && n ≤ 0xDBFF then lowSurrogate n
  else pure (Char.ofNat n)

/-- The character that a letter behind a backslash stands for. -/
def plainEscape? : Char → Option Char
  | '"' => some '"'
  | '\\' => some '\\'
  | '/' => some '/'
  | 'b' => some '\x08'
  | 'f' => some '\x0c'
  | 'n' => some '\n'
  | 'r' => some '\r'
  | 't' => some '\t'
  | _ => none

/-- An escape behind its backslash. -/
def escape (wanted : Bool) : Reader Char := do
  match ← peek with
  | none => failHere .endInString
  | some 'u' =>
    advance
    codeEscape wanted
  | some c =>
    match plainEscape? c with
    | some x =>
      advance
      pure x
    | none => failAfter 1 .invalidEscape

/-- A string behind its opening quote. Where its text is not wanted a control
character is found one byte earlier. -/
def stringBody (wanted : Bool) : Reader String :=
  repeating [] fun done => do
    match ← peek with
    | none => failHere .endInString
    | some '"' =>
      advance
      pure (.inr (String.ofList done.reverse))
    | some '\\' =>
      advance
      let x ← escape wanted
      pure (.inl (x :: done))
    | some c =>
      if c.toNat < 0x20 then failAfter (if wanted then 1 else 0) .controlCharacter
      else do
        advance
        pure (.inl (c :: done))

/-! ## Writing -/

/-- A hexadecimal digit. -/
def hexChar (n : Nat) : Char := if n < 10 then Char.ofNat (48 + n) else Char.ofNat (87 + n)

/-- A character inside a written string. -/
def escaped (c : Char) : List Char :=
  if c == '"' then ['\\', '"']
  else if c == '\\' then ['\\', '\\']
  else if c == '\x08' then ['\\', 'b']
  else if c == '\x0c' then ['\\', 'f']
  else if c == '\n' then ['\\', 'n']
  else if c == '\r' then ['\\', 'r']
  else if c == '\t' then ['\\', 't']
  else if c.toNat < 0x20 then ['\\', 'u', '0', '0', hexChar (c.toNat / 16), hexChar (c.toNat % 16)]
  else [c]

/-- A written string with its quotes. -/
def quote (text : String) : List Char := '"' :: text.toList.flatMap escaped ++ ['"']

end StringHarvest.Json
