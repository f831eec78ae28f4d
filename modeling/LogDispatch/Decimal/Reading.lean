import LogDispatch.Decimal.Binary
import LogDispatch.Decimal.Digits
import LogDispatch.Text.Lower

/-! Reading a numeral as the nearest double. -/

namespace LogDispatch.Decimal

/-- An optional sign, and whether it is a minus. -/
def takeSign : List Char → Bool × List Char
  | '-' :: cs => (true, cs)
  | '+' :: cs => (false, cs)
  | cs => (false, cs)

/-- An exponent part up to the end of the text: its value, zero when the text has ended. -/
def exponent? : List Char → Option Int
  | [] => some 0
  | c :: cs =>
    if c = 'e' ∨ c = 'E' then
      let (negative, ds) := takeSign cs
      if ds.isEmpty || !ds.all Char.isDigit then none
      else
        let n : Int := digitsValue 0 ds
        some (if negative then -n else n)
    else none

/-- Digits with an optional point among or around them, at least one digit, and an optional exponent. -/
def unsigned? (negative : Bool) (cs : List Char) : Option Float :=
  let whole := cs.takeWhile Char.isDigit
  let rest := cs.dropWhile Char.isDigit
  let (fraction, rest) := match rest with
    | '.' :: r => (r.takeWhile Char.isDigit, r.dropWhile Char.isDigit)
    | r => ([], r)
  if whole.isEmpty && fraction.isEmpty then none
  else (exponent? rest).map fun e =>
    nearestScaled negative (digitsValue (digitsValue 0 whole) fraction) (e - fraction.length)

/-- The double a numeral stands for: an optional sign, then digits with an optional point and exponent, or
    one of the words `inf`, `infinity` and `nan` in any case. -/
def parse? (s : String) : Option Float :=
  let (negative, cs) := takeSign s.toList
  match Text.lowerAscii (String.ofList cs) with
  | "inf" | "infinity" => some (nearest negative (Nat.pow 2 1024) 1)
  | "nan" => some (0.0 / 0.0)
  | _ => unsigned? negative cs

end LogDispatch.Decimal
