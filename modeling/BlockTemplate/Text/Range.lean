/-!
# Sets of characters given by ranges

A table lists the first and the last code point of each of its ranges, in ascending order.
-/

namespace BlockTemplate

/-- First and last code points of a set of characters. -/
abbrev CharRanges := List (Nat × Nat)

/-- Whether the character lies in one of the ranges. The ranges ascend, so the search ends at the
    first one that does not lie below the character. -/
def CharRanges.contains : CharRanges → Char → Bool
  | [], _ => false
  | (first, last) :: rest, c =>
    if last < c.toNat then CharRanges.contains rest c else first ≤ c.toNat

end BlockTemplate
