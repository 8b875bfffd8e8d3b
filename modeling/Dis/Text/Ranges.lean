/-!
# Ranges of code points

A set of characters is written as the ranges of its code points, lowest first. A search ends at the
first range that does not lie below the code point.
-/
namespace Dis.Text

/-- Whether a code point lies in one of a row of ranges, each given by its ends. -/
def inRanges : List (Nat × Nat) → Nat → Bool
  | [], _ => false
  | (low, high) :: rest, n => if n ≤ high then decide (low ≤ n) else inRanges rest n

end Dis.Text
