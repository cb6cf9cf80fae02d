/-!
Membership in a table of ranges.
-/

namespace Bytecode

/-- Whether a number lies in one of the ranges, both ends included. The ranges
are in ascending order, so the search ends at the first that starts above the
number. -/
def inRanges : List (Nat × Nat) → Nat → Bool
  | [], _ => false
  | (low, high) :: rest, n =>
    if n < low then false else if n ≤ high then true else inRanges rest n

end Bytecode
