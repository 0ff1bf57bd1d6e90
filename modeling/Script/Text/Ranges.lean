/-!
# `Text.Ranges` — sets of code points as sorted ranges

A Unicode property is given by the inclusive ranges of the code points that have it, in
increasing order; a look-up stops at the first range that begins beyond the code point.
-/

namespace Script
namespace Text

/-- Membership in a sorted list of inclusive ranges. -/
def inRanges : List (Nat × Nat) → Nat → Bool
  | [], _ => false
  | (first, last) :: rest, n =>
    if n < first then false
    else if n ≤ last then true
    else inRanges rest n

end Text
end Script
