/-!
# Sets of code points

A class of characters is an ascending list of ranges of code points. `CodeRange.anyContains` looks a
code point up and stops at the first range that begins beyond it.
-/

namespace FormulaSheet

/-- The code points from `first` to `last`, both included. -/
structure CodeRange where
  first : Nat
  last : Nat
  deriving DecidableEq

/-- Whether a code point lies in one of the ranges, which are in ascending order. -/
def CodeRange.anyContains : List CodeRange → Nat → Bool
  | [], _ => false
  | range :: later, n =>
    if n < range.first then false else n ≤ range.last || anyContains later n

end FormulaSheet
