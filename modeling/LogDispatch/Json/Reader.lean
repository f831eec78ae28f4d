import LogDispatch.Json
import LogDispatch.Json.Shape

/-! Reading a JSON text into a value. -/

namespace LogDispatch.Json

/-- Containers may stand in each other this deep. -/
def maxDepth : Nat := 127

/-- A significand of at most 64 bits with a power of ten. -/
structure Significand where
  digits : Nat
  exponent : Int

def fits (n : Nat) (c : Char) : Bool := 10 * n + (c.toNat - '0'.toNat) < Nat.pow 2 64

/-- Takes digits while they fit; returns the value and the digits left over. -/
def takeFitting (n : Nat) : List Char → Nat × List Char
  | [] => (n, [])
  | c :: cs => if fits n c then takeFitting (10 * n + (c.toNat - '0'.toNat)) cs else (n, c :: cs)

/-- The digits of a numeral that fit 64 bits. Whole digits past them count into the exponent, fraction
    digits past them are dropped. -/
def Numeral.significand (n : Numeral) : Significand :=
  let (whole, left) := takeFitting 0 n.whole
  let (all, dropped) := takeFitting whole n.fraction
  ⟨all, left.length - (n.fraction.length - dropped.length)⟩

/-- The significand times the power of ten, in double arithmetic: by one power of at most `10 ^ 308`, after
    as many divisions by `10 ^ 308` as it takes. Numbers too large have no value. -/
def scale? : Nat → Float → Int → Option Float
  | 0, f, _ => some f
  | fuel + 1, f, e =>
    if e.natAbs ≤ 308 then
      let power := Decimal.nearestScaled false 1 e.natAbs
      if 0 ≤ e then
        let g := f * power
        if g.isInf then none else some g
      else some (f / power)
    else if f == 0.0 then some f
    else if 0 ≤ e then none
    else scale? fuel (f / Decimal.nearestScaled false 1 308) (e + 308)

/-- The exponent a numeral gives, when it stays below `2 ^ 31`. -/
def smallExponent? (ds : List Char) : Option Int :=
  let n := Decimal.digitsValue 0 ds
  if n < Nat.pow 2 31 then some (n : Int) else none

/-- Exponents are kept within 32 bits. -/
def clampExponent (e : Int) : Int :=
  max (-(Nat.pow 2 31 : Int)) (min ((Nat.pow 2 31 : Int) - 1) e)

/-- The double a numeral stands for, when it is not too large. -/
def Numeral.real? (n : Numeral) : Option Float :=
  let s := n.significand
  let signed (f : Float) : Float := if n.negative then -f else f
  let value? (e : Int) : Option Float := (scale? 8 (Decimal.nearest false s.digits 1) e).map signed
  match n.exponent with
  | none => value? s.exponent
  | some (minus, ds) =>
    match smallExponent? ds with
    | some e => value? (clampExponent (if minus then s.exponent - e else s.exponent + e))
    | none => if s.digits ≠ 0 ∧ !minus then none else some (signed 0.0)

/-- The number a numeral stands for: an integer when it is written as one and fits 64 bits, else a double.
    Minus zero is a double. -/
def Numeral.number? (n : Numeral) : Option Number :=
  let v := Decimal.digitsValue 0 n.whole
  if n.fraction.isEmpty ∧ n.exponent.isNone ∧ !n.negative ∧ v < Nat.pow 2 64 then some (.int v)
  else if n.fraction.isEmpty ∧ n.exponent.isNone ∧ n.negative ∧ 0 < v ∧ v ≤ Nat.pow 2 63 then some (.int (-v))
  else n.real?.map .real

/-- The characters of a string literal; surrogates count only in pairs. -/
def decode? : List Piece → Option (List Char)
  | [] => some []
  | .char c :: ps => (decode? ps).map (c :: ·)
  | .unit n :: ps =>
    if n < 0xd800 ∨ 0xdfff < n then (decode? ps).map (Char.ofNat n :: ·)
    else if n < 0xdc00 then
      match ps with
      | .unit m :: ps =>
        if 0xdc00 ≤ m ∧ m ≤ 0xdfff then
          (decode? ps).map (Char.ofNat (0x10000 + (n - 0xd800) * 1024 + (m - 0xdc00)) :: ·)
        else none
      | _ => none
    else none

def decodeText? (ps : List Piece) : Option String := (decode? ps).map String.ofList

mutual

/-- The value of a shape with at most `depth` containers in each other. -/
def ofShape? : Nat → Shape → Option Json
  | _, .null => some .null
  | _, .bool b => some (.bool b)
  | _, .number n => n.number?.map .number
  | _, .string ps => (decodeText? ps).map .string
  | 0, .array _ => none
  | depth + 1, .array items => (ofItems? depth items).map .array
  | 0, .object _ => none
  | depth + 1, .object members => (ofMembers? depth members).map .object

def ofItems? : Nat → List Shape → Option (List Json)
  | _, [] => some []
  | depth, s :: ss => do
    let j ← ofShape? depth s
    let js ← ofItems? depth ss
    some (j :: js)

def ofMembers? : Nat → List (List Piece × Shape) → Option (List (String × Json))
  | _, [] => some []
  | depth, (name, s) :: ms => do
    let k ← decodeText? name
    let j ← ofShape? depth s
    let rest ← ofMembers? depth ms
    some ((k, j) :: rest)

end

/-- The value of a JSON text, members in the order of the text. -/
def ofText? (s : String) : Option Json :=
  Shape.ofText? s >>= ofShape? maxDepth

end LogDispatch.Json
