/-! # Sets of characters as ranges

A property of characters is given by the ranges of code points that have it, in rising order.
-/

namespace CodeSearch.Text

/-- Inclusive ranges of code points, each above the one before it. -/
abbrev Ranges := List (Nat × Nat)

/-- The ranges rise, so the search ends at the first range above the code point. -/
def Ranges.contains : Ranges → Nat → Bool
  | [], _ => false
  | (low, high) :: rest, code =>
    if code < low then false else if code ≤ high then true else Ranges.contains rest code

/-- One line of a case table: the code points `low`, `low + step`, … up to `high` all move by the
same distance. -/
structure CaseRun where
  low : Nat
  high : Nat
  step : Nat
  shift : Int

def CaseRun.covers (run : CaseRun) (code : Nat) : Bool :=
  decide (run.low ≤ code) && decide (code ≤ run.high) && (code - run.low) % run.step == 0

/-- The code point that a table of rising runs maps to, if a run covers the character. -/
def CaseRun.image? : List CaseRun → Nat → Option Nat
  | [], _ => none
  | run :: rest, code =>
    if code < run.low then none
    else if run.covers code then some (code + run.shift).toNat
    else CaseRun.image? rest code

end CodeSearch.Text
