/-! Double precision numbers taken apart into exact integers, and exact fractions rounded to them. -/

namespace LogDispatch.Decimal

/-- What a double stands for. A finite one is `mantissa * 2 ^ exponent`, with its sign beside it. -/
inductive Binary where
  | nan
  | infinite (negative : Bool)
  | finite (negative : Bool) (mantissa : Nat) (exponent : Int)
  deriving DecidableEq, Repr

def Binary.ofFloat (f : Float) : Binary :=
  let bits : Nat := f.toBits.toNat
  let negative : Bool := Nat.pow 2 63 ≤ bits
  let field : Nat := bits / Nat.pow 2 52 % Nat.pow 2 11
  let fraction : Nat := bits % Nat.pow 2 52
  if field = Nat.pow 2 11 - 1 then
    if fraction = 0 then .infinite negative else .nan
  else if field = 0 then .finite negative fraction (-1074)
  else .finite negative (Nat.pow 2 52 + fraction) ((field : Int) - 1075)

/-- The double with the given sign and the bits of a non-negative one. -/
def ofMagnitudeBits (negative : Bool) (bits : Nat) : Float :=
  Float.ofBits (UInt64.ofNat (if negative then Nat.pow 2 63 + bits else bits))

/-- Bits of the double nearest to `num / den`, a half going to the even neighbour. Values past the largest
    double give the bits of infinity. -/
def nearestBits (num den : Nat) : Nat :=
  if num = 0 ∨ den = 0 then 0
  else
    -- the exponent that leaves 53 or 54 bits, and not less than that of the least double
    let e : Int := max (-1074) ((num.log2 : Int) - (den.log2 : Int) - 53)
    let quotient (e : Int) : Nat × Nat × Nat :=
      let n := num * Nat.pow 2 (-e).toNat
      let d := den * Nat.pow 2 e.toNat
      (n / d, n % d, d)
    let (e, q, r, d) :=
      let (q, r, d) := quotient e
      if Nat.pow 2 53 ≤ q then
        let (q', r', d') := quotient (e + 1)
        (e + 1, q', r', d')
      else (e, q, r, d)
    let m := if d < 2 * r ∨ (2 * r = d ∧ q % 2 = 1) then q + 1 else q
    -- a mantissa of 2 ^ 53 carries into the exponent field by itself
    let bits := if m < Nat.pow 2 52 then m else (e + 1074).toNat * Nat.pow 2 52 + m
    min bits (2047 * Nat.pow 2 52)

/-- The double nearest to `num / den` with the given sign. -/
def nearest (negative : Bool) (num den : Nat) : Float :=
  ofMagnitudeBits negative (nearestBits num den)

/-- The double nearest to `mantissa * 10 ^ exponent` with the given sign. -/
def nearestScaled (negative : Bool) (mantissa : Nat) (exponent : Int) : Float :=
  if mantissa = 0 then nearest negative 0 1
  else
    let magnitude := (mantissa.log2 : Int) * 30103 / 100000 + exponent
    -- far outside the range of doubles no power needs to be formed
    if 400 < magnitude then nearest negative (Nat.pow 2 1024) 1
    else if magnitude < -400 then nearest negative 0 1
    else nearest negative (mantissa * Nat.pow 10 exponent.toNat) (Nat.pow 10 (-exponent).toNat)

def ofInt (i : Int) : Float := nearest (i < 0) i.natAbs 1

end LogDispatch.Decimal
