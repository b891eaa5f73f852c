import StringHarvest.Json.Cursor
import StringHarvest.Number.Shortest

/-!
# Numbers in JSON

Whole numbers that fit into 64 bits are kept exactly. All other numbers are doubles, and
they are put together in two roundings: the first nineteen or twenty digits make a double,
which a power of ten then scales.
-/

namespace StringHarvest.Json

open Reader

/-- A number. -/
inductive Number where
  | integer (value : Int)
  | float (value : Binary64)
  deriving DecidableEq, Repr

/-- The greatest number of 64 bits. -/
def maxWord : Nat := twoTo 64 - 1

/-- The greatest exponent that is counted. -/
def maxExponent : Nat := twoTo 31 - 1

/-- Whether a character is a decimal digit. -/
def isDigit (c : Char) : Bool := '0' ≤ c && c ≤ '9'

/-- Appends digits to a number as long as the result stays within a limit: the
number, and the digits left. -/
def appendDigits (limit : Nat) : Nat → List Char → Nat × List Char
  | n, [] => (n, [])
  | n, c :: cs =>
    let more := n * 10 + (c.toNat - 48)
    if limit < more then (n, c :: cs) else appendDigits limit more cs

/-- Passes digits and gives them. -/
def digits : Reader (List Char) := do
  let found := (← remaining).takeWhile isDigit
  skip found.length
  pure found

/-- A number scaled by a power of ten; nothing when it grows out of range. Very small
scales are applied in steps. -/
def scaleBy (f : Binary64) : (steps : Nat) → Int → Option Binary64
  | 0, _ => some .zero
  | steps + 1, e =>
    if 308 < e then (if f.isZero then some f else none)
    else if 0 ≤ e then
      let scaled := f.times (.ofDecimal false 1 e)
      if scaled.isInfinite then none else some scaled
    else if -308 ≤ e then some (f.dividedBy (.ofDecimal false 1 (-e)))
    else if f.isZero then some f
    else scaleBy (f.dividedBy (.ofDecimal false 1 308)) steps (e + 308)

/-- The double of digits and an exponent. -/
def floatOf (negative : Bool) (significand : Nat) (exponent : Int) : Reader Number := do
  match scaleBy (.ofNat significand) 5 exponent with
  | some f => pure (.float (if negative then f.negate else f))
  | none => failHere .numberOutOfRange

/-- The exponent of a number from its letter on. -/
def exponentPart (negative : Bool) (significand : Nat) (start : Int) : Reader Number := do
  advance
  let down := (← peek) == some '-'
  if down || (← peek) == some '+' then advance
  match ← peek with
  | none => failHere .endInValue
  | some c => if !isDigit c then failAfter 1 .invalidNumber
  let found := (← remaining).takeWhile isDigit
  let (e, left) := appendDigits maxExponent 0 found
  if left.isEmpty then do
    skip found.length
    floatOf negative significand (if down then start - e else start + e)
  else if significand != 0 && !down then do
    skip (found.length - left.length + 1)
    failHere .numberOutOfRange
  else do
    skip found.length
    pure (.float (if negative then Binary64.zero.negate else .zero))

/-- What may follow the fraction of a number. -/
def afterFraction (negative : Bool) (significand : Nat) (exponent : Int) : Reader Number := do
  match ← peek with
  | some 'e' | some 'E' => exponentPart negative significand exponent
  | _ => floatOf negative significand exponent

/-- The fraction of a number from its point on. -/
def fractionPart (negative : Bool) (significand : Nat) (exponent : Int) : Reader Number := do
  advance
  let found ← digits
  if found.isEmpty then
    match ← peek with
    | some _ => failAhead .invalidNumber
    | none => failAhead .endInValue
  else
    let (n, left) := appendDigits maxWord significand found
    afterFraction negative n (exponent - (found.length - left.length : Nat))

/-- What may follow the whole part of a number. -/
def afterWhole (negative : Bool) (significand : Nat) (dropped : Nat) : Reader Number := do
  match ← peek with
  | some '.' => fractionPart negative significand dropped
  | some 'e' | some 'E' => exponentPart negative significand dropped
  | _ =>
    if dropped != 0 then floatOf negative significand dropped
    else if !negative then pure (.integer significand)
    else if significand == 0 || twoTo 63 < significand then
      pure (.float (Binary64.ofNat significand).negate)
    else pure (.integer (-significand))

/-- A number behind its sign. -/
def number (negative : Bool) : Reader Number := do
  match ← peek with
  | none => failHere .endInValue
  | some '0' =>
    advance
    match ← peek with
    | some c => if isDigit c then failAhead .invalidNumber else afterWhole negative 0 0
    | none => afterWhole negative 0 0
  | some c =>
    if !isDigit c then failAfter 1 .invalidNumber
    else
      let found ← digits
      let (n, left) := appendDigits maxWord 0 found
      afterWhole negative n left.length

/-! ## Passing numbers that are not wanted -/

/-- Passes an exponent from its letter on. -/
def skipExponent : Reader Unit := do
  advance
  match ← peek with
  | some '+' | some '-' => advance
  | _ => pure ()
  match ← peek with
  | none => failHere .invalidNumber
  | some c =>
    if isDigit c then do
      let _ ← digits
    else failAfter 1 .invalidNumber

/-- Passes what may follow the whole part of a number. -/
def skipAfterWhole : Reader Unit := do
  match ← peek with
  | some '.' =>
    advance
    let found ← digits
    if found.isEmpty then failAhead .invalidNumber
    match ← peek with
    | some 'e' | some 'E' => skipExponent
    | _ => pure ()
  | some 'e' | some 'E' => skipExponent
  | _ => pure ()

/-- Passes a number behind its sign. -/
def skipNumber : Reader Unit := do
  match ← peek with
  | none => failHere .invalidNumber
  | some '0' =>
    advance
    match ← peek with
    | some c => if isDigit c then failAhead .invalidNumber
    | none => pure ()
    skipAfterWhole
  | some c =>
    if !isDigit c then failAfter 1 .invalidNumber
    let _ ← digits
    skipAfterWhole

/-- The text of a number in messages. -/
def Number.describe : Number → String
  | .integer value => "integer `" ++ toString value ++ "`"
  | .float value => "floating point `" ++ value.scientific ++ "`"

end StringHarvest.Json
