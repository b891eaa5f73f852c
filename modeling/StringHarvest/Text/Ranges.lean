/-!
# Ranges of code points

Unicode properties are kept as ascending lists of closed ranges, and membership is a walk along the
list that stops at the first range reaching past the code point.
-/

namespace StringHarvest.Text

/-- Whether `n` lies in one of the ascending closed ranges. -/
def inRanges : List (Nat × Nat) → Nat → Bool
  | [], _ => false
  | (low, high) :: more, n => if n ≤ high then low ≤ n else inRanges more n

end StringHarvest.Text
