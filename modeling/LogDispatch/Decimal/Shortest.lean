import LogDispatch.Decimal.Binary

/-! The decimal with the fewest digits that still denotes a given double. -/

namespace LogDispatch.Decimal

/-- Which of two equally near decimals is taken. -/
inductive Tie where
  | up
  | even
  deriving DecidableEq, Repr

/-- The reals that round to one double, in units of `2 ^ unit`: those between `low` and `high`, ends
    included when `closed`, around `mid`. -/
structure Interval where
  low : Nat
  mid : Nat
  high : Nat
  unit : Int
  closed : Bool

/-- The interval of a positive double. Below a power of two the neighbours stand twice as close. -/
def Interval.ofDouble (mantissa : Nat) (exponent : Int) : Interval where
  low := if mantissa = Nat.pow 2 52 ∧ exponent ≠ -1074 then 4 * mantissa - 1 else 4 * mantissa - 2
  mid := 4 * mantissa
  high := 4 * mantissa + 2
  unit := exponent - 2
  closed := mantissa % 2 == 0

/-- The point of the grid `10 ^ k` that lies in the interval nearest to its middle, if any does: only the
    two neighbours of the middle come into question. -/
def Interval.gridPoint? (i : Interval) (tie : Tie) (k : Int) : Option Nat :=
  -- `x` units are `x * num / den` grid steps
  let num := Nat.pow 2 i.unit.toNat * Nat.pow 10 (-k).toNat
  let den := Nat.pow 2 (-i.unit).toNat * Nat.pow 10 k.toNat
  let below := i.mid * num / den
  let above := below + 1
  let belowIn := if i.closed then i.low * num ≤ below * den else i.low * num < below * den
  let aboveIn := if i.closed then above * den ≤ i.high * num else above * den < i.high * num
  let toBelow := i.mid * num - below * den
  let toAbove := above * den - i.mid * num
  if belowIn ∧ aboveIn then
    if toBelow < toAbove then some below
    else if toAbove < toBelow then some above
    else match tie with
      | .up => some above
      | .even => some (if below % 2 = 0 then below else above)
  else if belowIn then some below
  else if aboveIn then some above
  else none

/-- The first grid from `10 ^ k` downwards that has a point in the interval, with that point. -/
def Interval.coarsest (i : Interval) (tie : Tie) : Nat → Int → Nat × Int
  | 0, k => ((i.gridPoint? tie k).getD 0, k)
  | fuel + 1, k =>
    match i.gridPoint? tie k with
    | some d => (d, k)
    | none => i.coarsest tie fuel (k - 1)

/-- The number without its trailing zeros, and how many there were. -/
def stripZeros : Nat → Nat → Int → Nat × Int
  | 0, d, k => (d, k)
  | fuel + 1, d, k => if d ≠ 0 ∧ d % 10 = 0 then stripZeros fuel (d / 10) (k + 1) else (d, k)

/-- The shortest decimal `d * 10 ^ k` that denotes the double `mantissa * 2 ^ exponent`, the nearest of those.
    The search ends at the latest on the grid that holds the double itself. -/
def shortest (tie : Tie) (mantissa : Nat) (exponent : Int) : Nat × Int :=
  if mantissa = 0 then (0, 0)
  else
    let top : Int := ((mantissa.log2 : Int) + 1 + exponent) * 30103 / 100000 + 2
    let (d, k) := (Interval.ofDouble mantissa exponent).coarsest tie (top - min 0 exponent).toNat top
    stripZeros 20 d k

end LogDispatch.Decimal
