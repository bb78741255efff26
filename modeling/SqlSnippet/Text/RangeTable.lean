/-!
# Tables of code point ranges

A property of characters that no formula gives is a table: the ranges of code points that have
it, in ascending order and apart from each other. `RangeTable.holds` looks a code point up.
-/

namespace SqlSnippet

/-- First and last code point of each range, in ascending order. -/
abbrev RangeTable := List (Nat × Nat)

namespace RangeTable

/-- Whether a code point lies in one of the ranges; the search stops at the first range that
starts beyond it. -/
def holds : RangeTable → Nat → Bool
  | [], _ => false
  | (lo, hi) :: rest, n => if n < lo then false else n ≤ hi || holds rest n

end RangeTable

end SqlSnippet
