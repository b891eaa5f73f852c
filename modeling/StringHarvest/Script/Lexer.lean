import StringHarvest.Script.Token
import StringHarvest.Text.Letter

/-!
# Cutting a script into tokens

Characters are read from a `List Char`; each scanner returns what it found and how many characters
it took, and walks the list structurally wherever the grammar allows it.

* **`skipTrivia`** passes white space and comments and remembers whether a
  line break was among them.
* **`scanString`** decodes a string literal. A string cut off by a line break or by the end of the
  text is taken as far as it goes: the fault then shows in what follows.
* **`scanToken`** reads one token in the ordinary mode; `scanRegex`, `scanTemplate` and `scanTag`
  read in the modes that only the reader of expressions can choose.
-/

namespace StringHarvest.Script

open Text

/-! ## White space and comments -/

/-- The line ends of a script. -/
def isLineBreak (c : Char) : Bool :=
  c == '\n' || c == '\r' || c.toNat == 0x2028 || c.toNat == 0x2029

/-- White space of a script that is no line end. -/
def isSpace (c : Char) : Bool :=
  c == ' ' || c == '\t' || c.toNat == 0x0B || c.toNat == 0x0C || c.toNat == 0xA0
    || c.toNat == 0xFEFF || c.toNat == 0x1680 || (0x2000 ≤ c.toNat && c.toNat ≤ 0x200A)
    || c.toNat == 0x202F || c.toNat == 0x205F
    || c.toNat == 0x3000

/-- Where the walk over trivia stands. -/
inductive TriviaMode where
  | plain
  | lineComment
  | blockComment

/-- What follows trivia: the offset, whether a line break was passed, and the text. -/
structure Trivia where
  /-- The offset of the first character that is no trivia. -/
  pos : Nat
  /-- Whether a line break was passed. -/
  lineBreak : Bool
  /-- The text from there on. -/
  rest : List Char

/-- Passes white space and comments. A `-->` at the start of a line and a `<!--` anywhere open a
line comment; a block comment without an end reaches to the end of the text. -/
def skipTrivia : TriviaMode → Nat → Bool → List Char → Trivia
  | _, pos, lineBreak, [] => ⟨pos, lineBreak, []⟩
  | .plain, pos, lineBreak, '/' :: '/' :: rest => skipTrivia .lineComment (pos + 2) lineBreak rest
  | .plain, pos, lineBreak, '/' :: '*' :: rest => skipTrivia .blockComment (pos + 2) lineBreak rest
  | .plain, pos, lineBreak, '<' :: '!' :: '-' :: '-' :: rest =>
    skipTrivia .lineComment (pos + 4) lineBreak rest
  | .plain, pos, lineBreak, '-' :: '-' :: '>' :: rest =>
    if lineBreak then skipTrivia .lineComment (pos + 3) lineBreak rest
    else ⟨pos, lineBreak, '-' :: '-' :: '>' :: rest⟩
  | .plain, pos, lineBreak, c :: rest =>
    if isLineBreak c then skipTrivia .plain (pos + 1) true rest
    else if isSpace c then skipTrivia .plain (pos + 1) lineBreak rest
    else ⟨pos, lineBreak, c :: rest⟩
  | .lineComment, pos, lineBreak, c :: rest =>
    if isLineBreak c then skipTrivia .plain (pos + 1) true rest
    else skipTrivia .lineComment (pos + 1) lineBreak rest
  | .blockComment, pos, lineBreak, '*' :: '/' :: rest => skipTrivia .plain (pos + 2) lineBreak rest
  | .blockComment, pos, lineBreak, c :: rest =>
    skipTrivia .blockComment (pos + 1) (lineBreak || isLineBreak c) rest

/-! ## Digits -/

/-- The value of a digit in any base up to sixteen. -/
def digitValue (c : Char) : Nat :=
  if c.isDigit then c.toNat - 48
  else if 'a' ≤ c && c ≤ 'f' then c.toNat - 87
  else if 'A' ≤ c && c ≤ 'F' then c.toNat - 55
  else 16

/-- Whether a character is a digit of the base. -/
def isDigitOf (base : Nat) (c : Char) : Bool := digitValue c < base

/-- The number that digits write in a base; separators are left out. -/
def valueIn (base : Nat) (cs : List Char) : Nat :=
  cs.foldl (fun n c => if c == '_' then n else n * base + digitValue c) 0

/-- Four hexadecimal digits at the front of a text. -/
def fourHex? : List Char → Option Nat
  | a :: b :: c :: d :: _ =>
    if [a, b, c, d].all (isDigitOf 16) then some (valueIn 16 [a, b, c, d]) else none
  | _ => none

/-! ## Strings -/

/-- The wording for a `\x` escape. -/
def twoHexWanted : String := "2 hex characters"

/-- The wording for a `\u` escape without braces. -/
def fourHexWanted : String := "4 hex characters"

/-- The wording for a `\u` escape with braces. -/
def bracedHexWanted : String := "1-6 hex characters in the range 0 to 10FFFF."

/-- Joins code points into text, a leading surrogate with the trailing one behind it; a surrogate
that stands alone has no text. -/
def joinCodePoints : List Nat → Option (List Char)
  | [] => some []
  | high :: low :: rest =>
    if 0xD800 ≤ high && high ≤ 0xDBFF then
      if 0xDC00 ≤ low && low ≤ 0xDFFF then
        (joinCodePoints rest).map
          (Char.ofNat (0x10000 + (high - 0xD800) * 0x400 + (low - 0xDC00)) :: ·)
      else none
    else if 0xDC00 ≤ high && high ≤ 0xDFFF then none
    else (joinCodePoints (low :: rest)).map (Char.ofNat high :: ·)
  | [single] => if 0xD800 ≤ single && single ≤ 0xDFFF then none else some [Char.ofNat single]

/-- Where the walk over a string literal stands: in its text, or inside the braces of an escape that
opened at `opened`, with the value and the number of digits so far. -/
inductive StringMode where
  | text
  | braces (opened value count : Nat)

/-- The result of reading a string literal. -/
structure StringScan where
  /-- The code points, last first, or what is wrong and where. -/
  outcome : Except (Fault × Nat) (List Nat)
  /-- How many characters were taken, the closing quote included. -/
  length : Nat

/-- The character that a one-letter escape stands for. -/
def simpleEscape (c : Char) : Nat :=
  match c with
  | 'n' => 10
  | 'r' => 13
  | 't' => 9
  | 'b' => 8
  | 'v' => 11
  | 'f' => 12
  | c => c.toNat

/-- Reads a string literal after its opening quote. `taken` counts characters; escapes may write a
code point by two, four or up to six hexadecimal digits, or by up to three octal digits of value at
most 255; an escaped line break writes nothing. -/
def scanString (quote : Char) : StringMode → Nat → List Nat → List Char → StringScan
  | .text, taken, acc, [] => ⟨.ok acc, taken⟩
  | .braces opened .., taken, _, [] => ⟨.error (.badEscape bracedHexWanted, opened), taken⟩
  | .braces opened value count, taken, acc, c :: rest =>
    if c == '}' then
      if count == 0 || 0x10FFFF < value then ⟨.error (.badEscape bracedHexWanted, opened), taken⟩
      else scanString quote .text (taken + 1) (value :: acc) rest
    else if isDigitOf 16 c && value ≤ 0x10FFFF then
      scanString quote (.braces opened (value * 16 + digitValue c) (count + 1)) (taken + 1) acc rest
    else ⟨.error (.badEscape bracedHexWanted, opened), taken⟩
  | .text, taken, acc, '\\' :: rest =>
    match rest with
    | [] => ⟨.ok acc, taken + 1⟩
    | '\r' :: '\n' :: rest => scanString quote .text (taken + 3) acc rest
    | 'x' :: a :: b :: rest =>
      if isDigitOf 16 a && isDigitOf 16 b then
        scanString quote .text (taken + 4) (valueIn 16 [a, b] :: acc) rest
      else ⟨.error (.badEscape twoHexWanted, taken), taken⟩
    | 'x' :: _ => ⟨.error (.badEscape twoHexWanted, taken), taken⟩
    | 'u' :: '{' :: rest => scanString quote (.braces taken 0 0) (taken + 3) acc rest
    | 'u' :: a :: b :: c :: d :: rest =>
      match fourHex? [a, b, c, d] with
      | some value => scanString quote .text (taken + 6) (value :: acc) rest
      | none => ⟨.error (.badEscape fourHexWanted, taken), taken⟩
    | 'u' :: _ => ⟨.error (.badEscape fourHexWanted, taken), taken⟩
    | c :: rest =>
      if isLineBreak c then scanString quote .text (taken + 2) acc rest
      else if isDigitOf 8 c then
        match rest with
        | c2 :: c3 :: rest3 =>
          if isDigitOf 8 c2 then
            if isDigitOf 8 c3 && valueIn 8 [c, c2, c3] ≤ 255 then
              scanString quote .text (taken + 4) (valueIn 8 [c, c2, c3] :: acc) rest3
            else scanString quote .text (taken + 3) (valueIn 8 [c, c2] :: acc) (c3 :: rest3)
          else scanString quote .text (taken + 2) (digitValue c :: acc) (c2 :: c3 :: rest3)
        | [c2] =>
          if isDigitOf 8 c2 then ⟨.ok (valueIn 8 [c, c2] :: acc), taken + 3⟩
          else scanString quote .text (taken + 2) (digitValue c :: acc) [c2]
        | [] => ⟨.ok (digitValue c :: acc), taken + 2⟩
      else scanString quote .text (taken + 2) (simpleEscape c :: acc) rest
  | .text, taken, acc, c :: rest =>
    if c == quote then ⟨.ok acc, taken + 1⟩
    else if c == '\n' || c == '\r' then ⟨.ok acc, taken⟩
    else scanString quote .text (taken + 1) (c.toNat :: acc) rest

/-- The string literal at `pos`, whose opening quote has just been passed, and
its length with both quotes. -/
def stringToken (quote : Char) (pos : Nat) (rest : List Char) : Token × Nat :=
  let scan := scanString quote .text 1 [] rest
  match scan.outcome with
  | .ok codes => (.string ((joinCodePoints codes.reverse).map String.ofList), scan.length)
  | .error (fault, offset) => (.invalid fault (pos + offset), scan.length)

/-! ## Templates -/

/-- Where the walk over a piece of a template stands. -/
inductive TemplateMode where
  | text
  | braces (opened value count : Nat)

/-- The result of reading a piece of a template. -/
structure TemplateScan where
  /-- How the piece ends, if it does. -/
  ending : Option TemplateEnd
  /-- The first bad escape and its offset. -/
  badEscape : Option (Fault × Nat)
  /-- How many characters were taken. -/
  length : Nat

/-- Keeps the first of the bad escapes. -/
def firstBad (known : Option (Fault × Nat)) (fault : Fault) (offset : Nat) : Option (Fault × Nat) :=
  known.or (some (fault, offset))

/-- Reads a piece of a template up to its closing mark or the next
substitution. Bad escapes do not end it. -/
def scanTemplate : TemplateMode → Nat → Option (Fault × Nat) → List Char → TemplateScan
  | _, taken, bad, [] => ⟨none, bad, taken⟩
  | .braces opened value count, taken, bad, c :: rest =>
    if c == '}' then
      let bad :=
        if count == 0 || 0x10FFFF < value then firstBad bad (.badEscape bracedHexWanted) opened
        else bad
      scanTemplate .text (taken + 1) bad rest
    else if isDigitOf 16 c then
      scanTemplate (.braces opened (min 0x110000 (value * 16 + digitValue c)) (count + 1))
        (taken + 1) bad rest
    else
      let bad := firstBad bad (.badEscape bracedHexWanted) opened
      if c == '\x60' then ⟨some .closed, bad, taken + 1⟩
      else scanTemplate .text (taken + 1) bad rest
  | .text, taken, bad, '\x60' :: _ => ⟨some .closed, bad, taken + 1⟩
  | .text, taken, bad, '$' :: '{' :: _ => ⟨some .hole, bad, taken + 2⟩
  | .text, taken, bad, '\\' :: 'u' :: '{' :: rest =>
    scanTemplate (.braces taken 0 0) (taken + 3) bad rest
  | .text, taken, bad, '\\' :: c :: rest =>
    let bad :=
      if c == 'u' && (fourHex? rest).isNone then firstBad bad (.badEscape fourHexWanted) taken
      else if c == 'x' && !((rest.take 2).length == 2 && (rest.take 2).all (isDigitOf 16)) then
        firstBad bad (.badEscape twoHexWanted) taken
      else if isDigitOf 8 c && (c != '0' || (rest.take 1).any (isDigitOf 8)) then
        firstBad bad .octalEscape taken
      else bad
    scanTemplate .text (taken + 2) bad rest
  | .text, taken, bad, _ :: rest => scanTemplate .text (taken + 1) bad rest

/-- The piece of a template that opens at `pos` with a mark of one character, and
its length with both marks. -/
def templateToken (pos : Nat) (rest : List Char) : Token × Nat :=
  let scan := scanTemplate .text 1 none rest
  match scan.ending with
  | some ending =>
    (.template ending (scan.badEscape.map fun (fault, offset) => (fault, pos + offset)),
      scan.length)
  | none => (.invalid .unterminatedTemplate pos, scan.length)

/-! ## Regular expressions -/

/-- The body of a regular expression after its opening slash, last character first, unless a line or
the text ends first. A slash inside a class or after a backslash belongs to the body. -/
def scanRegexBody :
    (inClass escaped : Bool) → List Char → List Char → Option (List Char × List Char)
  | _, _, _, [] => none
  | inClass, escaped, acc, c :: rest =>
    if isLineBreak c then none
    else if escaped then scanRegexBody inClass false (c :: acc) rest
    else if c == '/' && !inClass then some (acc, rest)
    else
      let inClass := if c == '[' then true else if c == ']' then false else inClass
      scanRegexBody inClass (c == '\\') (c :: acc) rest

/-- The regular expression that opens at `pos`, and its length. -/
def regexToken (pos : Nat) (rest : List Char) : Token × Nat :=
  match scanRegexBody false false [] rest with
  | none => (.invalid .unterminatedRegex pos, 1)
  | some (body, rest) =>
    let flags := match rest with
      | c :: _ => if isNameStart c then rest.takeWhile isNamePart else []
      | [] => []
    (.regex (String.ofList body.reverse) (String.ofList flags), body.length + 2 + flags.length)

/-! ## Words -/

/-- Reads a word that may hold unicode escapes; the fuel is the length of the text. The result is
the decoded word, last character first, and the number of characters taken. -/
def scanEscapedWord : Nat → (taken : Nat) → (acc : List Char) → List Char →
    Except (Fault × Nat) (List Char × Nat)
  | 0, taken, acc, _ => .ok (acc, taken)
  | _ + 1, taken, acc, [] => .ok (acc, taken)
  | fuel + 1, taken, acc, c :: rest =>
    if c == '\\' then
      let decoded : Option (Nat × Nat) := match rest with
        | 'u' :: '{' :: more =>
          let digits := more.takeWhile (isDigitOf 16)
          match more.drop digits.length with
          | '}' :: _ => if digits.isEmpty then none else some (valueIn 16 digits, digits.length + 4)
          | _ => none
        | 'u' :: more => (fourHex? more).map fun value => (value, 6)
        | _ => none
      match rest, decoded with
      | 'u' :: _, some (value, length) =>
        let letter := Char.ofNat value
        if (if acc.isEmpty then isNameStart letter else isNamePart letter) then
          scanEscapedWord fuel (taken + length) (letter :: acc) ((c :: rest).drop length)
        else .error (.unexpectedCharacter letter, taken)
      | 'u' :: '{' :: _, none => .error (.badEscape bracedHexWanted, taken)
      | 'u' :: _, none => .error (.badEscape fourHexWanted, taken)
      | _, _ => .error (.unicodeEscapeExpected, taken)
    else if isNamePart c then scanEscapedWord fuel (taken + 1) (c :: acc) rest
    else .ok (acc, taken)

/-- The word at `pos`, and its length. A keyword may not be written with escapes. -/
def wordToken (pos : Nat) (cs : List Char) : Token × Nat :=
  let plain := cs.takeWhile isNamePart
  match cs.drop plain.length with
  | '\\' :: _ =>
    match scanEscapedWord cs.length 0 [] cs with
    | .ok (letters, length) =>
      let word := String.ofList letters.reverse
      if isReserved word then (.invalid (.escapedKeyword word) pos, length)
      else (.word word, length)
    | .error (fault, offset) => (.invalid fault (pos + offset), max 1 offset)
  | _ => (.word (String.ofList plain), plain.length)

/-! ## Numbers -/

/-- Digits of a base with separators between them. -/
def takeDigits (base : Nat) (cs : List Char) : List Char :=
  cs.takeWhile fun c => isDigitOf base c || c == '_'

/-- Refuses a name that follows a number at once. -/
def endNumber (pos : Nat) (token : Token) (length : Nat) (rest : List Char) : Token × Nat :=
  match rest with
  | c :: _ =>
    if isNameStart c || c == '\\' then (.invalid .nameAfterNumber (pos + length), length)
    else (token, length)
  | [] => (token, length)

/-- A number in a base other than ten, after its two characters of introduction. -/
def radixToken (base pos : Nat) (cs : List Char) : Token × Nat :=
  let digits := takeDigits base cs
  let length := digits.length + 2
  if digits.isEmpty then (.invalid .digitExpected pos, 2)
  else
    match cs.drop digits.length with
    | 'n' :: rest => endNumber pos (.bigint (valueIn base digits)) (length + 1) rest
    | rest => endNumber pos (.number (.ofNat (valueIn base digits))) length rest

/-- The exponent part of a decimal number, if one stands here: its characters and its value. -/
def exponentPart (cs : List Char) : List Char × Int :=
  match cs with
  | mark :: rest =>
    if mark == 'e' || mark == 'E' then
      let sign := match rest with
        | '+' :: _ => ['+']
        | '-' :: _ => ['-']
        | _ => []
      let digits := takeDigits 10 (rest.drop sign.length)
      if digits.isEmpty then ([], 0)
      else
        let value : Int := valueIn 10 digits
        (mark :: sign ++ digits, if sign == ['-'] then -value else value)
    else ([], 0)
  | [] => ([], 0)

/-- A decimal number, with an optional fraction and exponent. -/
def decimalToken (pos : Nat) (cs : List Char) : Token × Nat :=
  let whole := takeDigits 10 cs
  let rest := cs.drop whole.length
  let (point, fraction) := match rest with
    | '.' :: more => (1, takeDigits 10 more)
    | _ => (0, [])
  let rest := rest.drop (point + fraction.length)
  let plainLength := whole.length + point + fraction.length
  match rest with
  | 'n' :: more =>
    if point == 0 then endNumber pos (.bigint (valueIn 10 whole)) (plainLength + 1) more
    else endNumber pos (.number .zero) plainLength rest
  | _ =>
    let (written, exponent) := exponentPart rest
    let places : Int := (fraction.filter (· != '_')).length
    let value := Binary64.ofDecimal false (valueIn 10 (whole ++ fraction)) (exponent - places)
    endNumber pos (.number value) (plainLength + written.length) (rest.drop written.length)

/-- The number at `pos`, and its length. A leading zero followed by octal digits
only writes an octal number. -/
def numberToken (pos : Nat) (cs : List Char) : Token × Nat :=
  match cs with
  | '0' :: 'x' :: rest | '0' :: 'X' :: rest => radixToken 16 pos rest
  | '0' :: 'o' :: rest | '0' :: 'O' :: rest => radixToken 8 pos rest
  | '0' :: 'b' :: rest | '0' :: 'B' :: rest => radixToken 2 pos rest
  | '0' :: rest =>
    let digits := takeDigits 10 rest
    if digits.isEmpty || !digits.all (isDigitOf 8) then decimalToken pos cs
    else
      let length := digits.length + 1
      endNumber pos (.number (.ofNat (valueIn 8 digits))) length (rest.drop digits.length)
  | _ => decimalToken pos cs

/-! ## Punctuation -/

/-- The longest punctuation mark at the front of a text, and its length. A
`?.` before a digit is a `?`. -/
def scanPunct : List Char → Option (Punct × Nat)
  | '{' :: _ => some (.braceL, 1)
  | '}' :: _ => some (.braceR, 1)
  | '(' :: _ => some (.parenL, 1)
  | ')' :: _ => some (.parenR, 1)
  | '[' :: _ => some (.bracketL, 1)
  | ']' :: _ => some (.bracketR, 1)
  | ';' :: _ => some (.semi, 1)
  | ',' :: _ => some (.comma, 1)
  | ':' :: _ => some (.colon, 1)
  | '@' :: _ => some (.at, 1)
  | '#' :: _ => some (.hash, 1)
  | '~' :: _ => some (.tilde, 1)
  | '.' :: '.' :: '.' :: _ => some (.dots, 3)
  | '.' :: _ => some (.dot, 1)
  | '?' :: '?' :: '=' :: _ => some (.question2Eq, 3)
  | '?' :: '?' :: _ => some (.question2, 2)
  | '?' :: '.' :: c :: _ => if c.isDigit then some (.question, 1) else some (.questionDot, 2)
  | '?' :: '.' :: _ => some (.questionDot, 2)
  | '?' :: _ => some (.question, 1)
  | '=' :: '=' :: '=' :: _ => some (.eq3, 3)
  | '=' :: '=' :: _ => some (.eq2, 2)
  | '=' :: '>' :: _ => some (.arrow, 2)
  | '=' :: _ => some (.assign, 1)
  | '!' :: '=' :: '=' :: _ => some (.ne3, 3)
  | '!' :: '=' :: _ => some (.ne2, 2)
  | '!' :: _ => some (.bang, 1)
  | '<' :: '<' :: '=' :: _ => some (.shlEq, 3)
  | '<' :: '<' :: _ => some (.shl, 2)
  | '<' :: '=' :: _ => some (.le, 2)
  | '<' :: _ => some (.lt, 1)
  | '>' :: '>' :: '>' :: '=' :: _ => some (.ushrEq, 4)
  | '>' :: '>' :: '>' :: _ => some (.ushr, 3)
  | '>' :: '>' :: '=' :: _ => some (.shrEq, 3)
  | '>' :: '>' :: _ => some (.shr, 2)
  | '>' :: '=' :: _ => some (.ge, 2)
  | '>' :: _ => some (.gt, 1)
  | '+' :: '+' :: _ => some (.plus2, 2)
  | '+' :: '=' :: _ => some (.plusEq, 2)
  | '+' :: _ => some (.plus, 1)
  | '-' :: '-' :: _ => some (.minus2, 2)
  | '-' :: '=' :: _ => some (.minusEq, 2)
  | '-' :: _ => some (.minus, 1)
  | '*' :: '*' :: '=' :: _ => some (.star2Eq, 3)
  | '*' :: '*' :: _ => some (.star2, 2)
  | '*' :: '=' :: _ => some (.starEq, 2)
  | '*' :: _ => some (.star, 1)
  | '/' :: '=' :: _ => some (.slashEq, 2)
  | '/' :: _ => some (.slash, 1)
  | '%' :: '=' :: _ => some (.percentEq, 2)
  | '%' :: _ => some (.percent, 1)
  | '&' :: '&' :: '=' :: _ => some (.amp2Eq, 3)
  | '&' :: '&' :: _ => some (.amp2, 2)
  | '&' :: '=' :: _ => some (.ampEq, 2)
  | '&' :: _ => some (.amp, 1)
  | '|' :: '|' :: '=' :: _ => some (.pipe2Eq, 3)
  | '|' :: '|' :: _ => some (.pipe2, 2)
  | '|' :: '=' :: _ => some (.pipeEq, 2)
  | '|' :: _ => some (.pipe, 1)
  | '^' :: '=' :: _ => some (.caretEq, 2)
  | '^' :: _ => some (.caret, 1)
  | _ => none

/-! ## One token -/

/-- The token at `pos`, where no trivia stands, and its length. -/
def scanToken (pos : Nat) : List Char → Token × Nat
  | [] => (.ended, 0)
  | c :: rest =>
    if isNameStart c || c == '\\' then wordToken pos (c :: rest)
    else if c.isDigit then numberToken pos (c :: rest)
    else if c == '"' || c == '\'' then stringToken c pos rest
    else if c == '\x60' then templateToken pos rest
    else if c == '.' && (rest.take 1).any Char.isDigit then numberToken pos (c :: rest)
    else
      match scanPunct (c :: rest) with
      | some (mark, length) => (.punct mark, length)
      | none => (.invalid (.unexpectedCharacter c) pos, 1)

/-- The token at `pos` inside the tag of a markup element, and its length: names may hold dashes,
strings know no escapes, and punctuation is single. -/
def scanTag (pos : Nat) : List Char → Token × Nat
  | [] => (.ended, 0)
  | c :: rest =>
    if isNameStart c then
      let letters := (c :: rest).takeWhile fun d => isNamePart d || d == '-'
      (.word (String.ofList letters), letters.length)
    else if c == '"' || c == '\'' then
      let text := rest.takeWhile (· != c)
      (.string (some (String.ofList text)), min (rest.length + 1) (text.length + 2))
    else if c == '>' then (.punct .gt, 1)
    else if c == '<' then (.punct .lt, 1)
    else if c == '/' then (.punct .slash, 1)
    else if c == '=' then (.punct .assign, 1)
    else scanToken pos (c :: rest)

end StringHarvest.Script
