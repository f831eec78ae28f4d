/-! Sets of code points as sorted ranges, and maps of code points as runs of equal shift. -/

namespace LogDispatch.Text

/-- The code point lies in one of the inclusive ranges. -/
def inRanges (ranges : List (Nat × Nat)) (c : Char) : Bool :=
  ranges.any fun (lo, hi) => lo ≤ c.toNat && c.toNat ≤ hi

/-- Every `step`-th code point from `first` to `last`, shifted so that `first` goes to `image`. -/
structure Run where
  first : Nat
  last : Nat
  step : Nat
  image : Nat

/-- Where the run sends a code point, when it covers it. -/
def Run.image? (r : Run) (c : Char) : Option Char :=
  if r.first ≤ c.toNat ∧ c.toNat ≤ r.last ∧ (c.toNat - r.first) % r.step = 0 then
    some (Char.ofNat (r.image + (c.toNat - r.first)))
  else none

/-- What the run sends to a code point, when there is one. -/
def Run.source? (r : Run) (c : Char) : Option Char :=
  let source := Char.ofNat (r.first + (c.toNat - r.image))
  if r.image ≤ c.toNat ∧ r.image? source = some c then some source else none

/-- The image under the first run that covers the code point, else the code point itself. -/
def mapRuns (runs : List Run) (c : Char) : Char :=
  (runs.findSome? fun r => r.image? c).getD c

end LogDispatch.Text
