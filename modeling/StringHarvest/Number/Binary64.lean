/-!
# Double-precision numbers

Numbers of a script are binary floating-point numbers with 53 significant bits. They
are kept exactly, as a significand and a power of two, so that reading and writing them
are functions on natural numbers:

* **`Binary64.ofRatio`** rounds a ratio to the nearest double, a tie to the even significand;
* **`Binary64.ofDecimal`** reads a decimal `digits · 10 ^ exponent` through it;
* **`Binary64.times`** and **`Binary64.dividedBy`** are the rounded product and quotient;
* **`Binary64.ofText?`** reads the spellings `2.5`, `1e21`, `-0`, `inf`, `-inf` and `NaN`.
-/

namespace StringHarvest

/-- A power of two. -/
def twoTo (n : Nat) : Nat := Nat.pow 2 n

/-- A power of ten. -/
def tenTo (n : Nat) : Nat := Nat.pow 10 n

/-- A double-precision number. A finite one is `significand · 2 ^ exponent`, with the significand
below `2 ^ 53` and at least `2 ^ 52` unless the exponent is the least one, `-1074`. -/
inductive Binary64 where
  | finite (negative : Bool) (significand : Nat) (exponent : Int)
  | infinite (negative : Bool)
  | notANumber
  deriving DecidableEq, Repr

namespace Binary64

/-- The least exponent of a finite number. -/
def leastExponent : Int := -1074

/-- The greatest exponent of a finite number. -/
def greatestExponent : Int := 971

/-- Zero. -/
def zero : Binary64 := .finite false 0 leastExponent

/-- The quotient rounded to the nearest natural number, a tie to the even one. -/
def roundDiv (num den : Nat) : Nat :=
  let q := num / den
  let r := num % den
  if den < 2 * r || (2 * r == den && q % 2 == 1) then q + 1 else q

/-- The quotient `num / den` measured in units of `2 ^ e`, as a ratio. -/
def inUnits (num den : Nat) (e : Int) : Nat × Nat :=
  (num * twoTo (-e).toNat, den * twoTo e.toNat)

/-- The double nearest to `num / den`, a tie to the even significand; too
great a quotient is infinite. -/
def ofRatio (negative : Bool) (num den : Nat) : Binary64 :=
  if num == 0 || den == 0 then .finite negative 0 leastExponent
  else
    let guess : Int := (Nat.log2 num : Int) - (Nat.log2 den : Int) - 53
    let low := max leastExponent guess
    let units := inUnits num den low
    let e := if twoTo 53 ≤ units.1 / units.2 then low + 1 else low
    let units := inUnits num den e
    let m := roundDiv units.1 units.2
    let (m, e) := if m == twoTo 53 then (twoTo 52, e + 1) else (m, e)
    if greatestExponent < e then .infinite negative else .finite negative m e

/-- The double nearest to `digits · 10 ^ exponent`. Exponents far outside the range of
doubles are decided at once. -/
def ofDecimal (negative : Bool) (digits : Nat) (exponent : Int) : Binary64 :=
  if digits == 0 then .finite negative 0 leastExponent
  else
    let size : Int := (Nat.log2 digits : Int) / 3
    if 400 < exponent then .infinite negative
    else if exponent + size < -400 then .finite negative 0 leastExponent
    else ofRatio negative (digits * tenTo exponent.toNat) (tenTo (-exponent).toNat)

/-- The double nearest to a natural number. -/
def ofNat (n : Nat) : Binary64 := ofRatio false n 1

/-! ## Arithmetic -/

/-- Whether a number is zero. -/
def isZero : Binary64 → Bool
  | .finite _ m _ => m == 0
  | _ => false

/-- Whether a number is infinite. -/
def isInfinite : Binary64 → Bool
  | .infinite _ => true
  | _ => false

/-- The number with the other sign. -/
def negate : Binary64 → Binary64
  | .finite negative m e => .finite (!negative) m e
  | .infinite negative => .infinite (!negative)
  | .notANumber => .notANumber

/-- The rounded product of two finite numbers. -/
def times : Binary64 → Binary64 → Binary64
  | .finite s m e, .finite t n f =>
    ofRatio (s != t) (m * n * twoTo (e + f).toNat) (twoTo (-(e + f)).toNat)
  | _, _ => .notANumber

/-- The rounded quotient of a finite number by one that is not zero. -/
def dividedBy : Binary64 → Binary64 → Binary64
  | .finite s m e, .finite t n f =>
    ofRatio (s != t) (m * twoTo (e - f).toNat) (n * twoTo (f - e).toNat)
  | _, _ => .notANumber

/-! ## Reading text -/

/-- The number written by decimal digits, other characters left out. -/
def digitsValue (cs : List Char) : Nat :=
  cs.foldl (fun n c => if c.isDigit then n * 10 + (c.toNat - 48) else n) 0

/-- An exponent part: `e` or `E`, an optional sign, and digits; nothing at all is exponent zero. -/
def exponentValue? : List Char → Option Int
  | [] => some 0
  | mark :: rest =>
    if mark == 'e' || mark == 'E' then
      let (negative, digits) := match rest with
        | '-' :: digits => (true, digits)
        | '+' :: digits => (false, digits)
        | digits => (false, digits)
      if digits.isEmpty || !digits.all Char.isDigit then none
      else some (if negative then -(digitsValue digits : Int) else digitsValue digits)
    else none

/-- A decimal number without its sign: digits with an optional point, then an optional exponent. -/
def unsignedOfText? (negative : Bool) (cs : List Char) : Option Binary64 :=
  let whole := cs.takeWhile Char.isDigit
  let rest := cs.dropWhile Char.isDigit
  let (fraction, rest) := match rest with
    | '.' :: more => (more.takeWhile Char.isDigit, more.dropWhile Char.isDigit)
    | rest => ([], rest)
  if whole.isEmpty && fraction.isEmpty then none
  else (exponentValue? rest).map fun e =>
    ofDecimal negative (digitsValue (whole ++ fraction)) (e - fraction.length)

/-- The number a text spells, in decimal notation or as `inf`, `-inf` or `NaN`. -/
def ofText? (text : String) : Option Binary64 :=
  match text with
  | "inf" => some (.infinite false)
  | "-inf" => some (.infinite true)
  | "NaN" => some .notANumber
  | _ =>
    match text.toList with
    | '-' :: cs => unsignedOfText? true cs
    | '+' :: cs => unsignedOfText? false cs
    | cs => unsignedOfText? false cs

end Binary64

end StringHarvest
