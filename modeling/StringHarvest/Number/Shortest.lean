import StringHarvest.Number.Binary64

/-!
# Shortest decimals

The shortest decimal that reads back as a given double, and the ways to write it.

* **`shortest`** looks for the fewest digits: on the grid of decimals with `n` digits it tries the
  two neighbours of the value, and the first `n` with a neighbour inside the rounding interval
  wins, of two neighbours the nearer.
* **`Binary64.display`** writes those digits positionally, never with an exponent.
* **`Binary64.scientific`** and **`Binary64.dump`** keep positional notation for moderate sizes
  only, always with a fraction (`Binary64.general`).
-/

namespace StringHarvest

/-- A positive decimal `0.d₁d₂… · 10 ^ point`. -/
structure Decimal where
  /-- The digits, most significant first. -/
  digits : List Char
  /-- Where the decimal point stands, counted from before the first digit. -/
  point : Int
  deriving Repr

namespace Binary64

/-- Whether `num / den` is at least `10 ^ k`. -/
def reachesTenPower (num den : Nat) (k : Int) : Bool :=
  tenTo k.toNat * den ≤ num * tenTo (-k).toNat

/-- The least `k` above `guess` for which `num / den` stays below `10 ^ k`,
looked for in a few steps. -/
def decimalSize (num den : Nat) : Nat → Int → Int
  | 0, k => k
  | steps + 1, k => if reachesTenPower num den k then decimalSize num den steps (k + 1) else k

/-- The rounding interval of a finite number, as four numerators over one denominator: the value,
its two ends, and whether the ends belong to it. -/
structure Interval where
  /-- The common denominator. -/
  den : Nat
  /-- The value. -/
  value : Nat
  /-- The lower end. -/
  low : Nat
  /-- The upper end. -/
  high : Nat
  /-- Whether the ends round to the value. -/
  closed : Bool

/-- The numbers that round to `m · 2 ^ e`. -/
def roundingInterval (m : Nat) (e : Int) : Interval :=
  let scale := twoTo e.toNat
  { den := 4 * twoTo (-e).toNat
    value := 4 * m * scale
    low := (4 * m - (if m == twoTo 52 && leastExponent < e then 1 else 2)) * scale
    high := (4 * m + 2) * scale
    closed := m % 2 == 0 }

/-- Whether `c · 10 ^ s` lies in the interval. -/
def Interval.holds (i : Interval) (c : Nat) (s : Int) : Bool :=
  let x := c * tenTo s.toNat * i.den
  let unit := tenTo (-s).toNat
  if i.closed then i.low * unit ≤ x && x ≤ i.high * unit else i.low * unit < x && x < i.high * unit

/-- The better of the two neighbours of the value on the grid of multiples of `10 ^ s`,
if one lies in the interval. -/
def Interval.neighbour? (i : Interval) (s : Int) : Option Nat :=
  let num := i.value * tenTo (-s).toNat
  let den := i.den * tenTo s.toNat
  let below := num / den
  let above := below + 1
  match i.holds below s, i.holds above s with
  | true, true => some (if 2 * (num % den) ≤ den then below else above)
  | true, false => some below
  | false, true => some above
  | false, false => none

/-- The first grid, from `n` digits on, with a neighbour in the interval. -/
def Interval.firstHit (i : Interval) (point : Int) : Nat → Nat → Nat × Int
  | 0, n =>
    (i.value * tenTo ((n : Int) - point).toNat / (i.den * tenTo (point - n).toNat), point - n)
  | steps + 1, n =>
    match i.neighbour? (point - n) with
    | some c => (c, point - n)
    | none => i.firstHit point steps (n + 1)

/-- A natural number's decimal digits without the zeros at the end, and how
many of those there were. -/
def stripZeros : Nat → Nat → Nat → Nat × Nat
  | 0, c, zeros => (c, zeros)
  | steps + 1, c, zeros =>
    if c % 10 == 0 && c != 0 then stripZeros steps (c / 10) (zeros + 1) else (c, zeros)

/-- The shortest decimal that rounds to `m · 2 ^ e`, for a positive `m`. -/
def shortest (m : Nat) (e : Int) : Decimal :=
  let i := roundingInterval m e
  let guess : Int := ((Nat.log2 m : Int) + e) * 30103 / 100000 - 1
  let point := decimalSize i.value i.den 5 guess
  let (c, s) := i.firstHit point 17 1
  let (c, zeros) := stripZeros 20 c 0
  let digits := Nat.toDigits 10 c
  { digits, point := s + zeros + digits.length }

/-- Digits in positional notation: zeros before or behind them as the point
demands, and no point at the end. -/
def positional (d : Decimal) : List Char :=
  let n : Int := d.digits.length
  if d.point ≤ 0 then '0' :: '.' :: List.replicate (-d.point).toNat '0' ++ d.digits
  else if n ≤ d.point then d.digits ++ List.replicate (d.point - n).toNat '0'
  else d.digits.take d.point.toNat ++ '.' :: d.digits.drop d.point.toNat

/-- The sign in front of a negative number. -/
def signOf (negative : Bool) : List Char := if negative then ['-'] else []

/-- A number in positional notation with the fewest digits that read back: `1e21` is
a one and twenty-one zeros. -/
def display : Binary64 → String
  | .notANumber => "NaN"
  | .infinite negative => String.ofList (signOf negative ++ "inf".toList)
  | .finite negative m e =>
    String.ofList (signOf negative ++ (if m == 0 then ['0'] else positional (shortest m e)))

/-- A number with the fewest digits that read back, positional from `10 ^ least` up to `1e16` and
then always with a fraction, elsewhere with an exponent. -/
def general (least : Int) (exponent : Int → List Char) : Binary64 → String
  | .notANumber => "NaN"
  | .infinite negative => String.ofList (signOf negative ++ "inf".toList)
  | .finite negative m e =>
    let body :=
      if m == 0 then "0.0".toList
      else
        let d := shortest m e
        if least < d.point && d.point ≤ 16 then
          if (d.digits.length : Int) ≤ d.point then positional d ++ ".0".toList else positional d
        else
          match d.digits with
          | [] => []
          | [c] => c :: exponent (d.point - 1)
          | c :: cs => c :: '.' :: cs ++ exponent (d.point - 1)
    String.ofList (signOf negative ++ body)

/-- An exponent with its sign and at least two digits. -/
def exponentText (e : Int) : List Char :=
  let digits := Nat.toDigits 10 e.natAbs
  'e' :: (if e < 0 then '-' else '+') :: (if digits.length < 2 then '0' :: digits else digits)

/-- A number as settings show it: `100000.0`, `1.5`, `1.2345678901234568e+29`. -/
def scientific : Binary64 → String := general (-5) exponentText

/-- An exponent with a sign only if it is negative. -/
def bareExponent (e : Int) : List Char := 'e' :: (toString e).toList

/-- A number as a trace shows it: `42.0`, `2.5`, `1e21`, `1e-7`. -/
def dump : Binary64 → String := general (-4) bareExponent

end Binary64

end StringHarvest
