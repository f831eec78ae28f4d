import LogDispatch.Decimal.Shortest

/-! Written forms of a double: a plain one without exponents, for people, and a compact one, for data. -/

namespace LogDispatch.Decimal

structure Style where
  tie : Tie
  /-- The places of the decimal point, counted from the first digit, that are written without an exponent. -/
  plainAt : Int → Bool
  /-- A whole number keeps `.0`. -/
  keepsPoint : Bool

/-- Plain numerals: no exponent, no point in a whole number, and a half goes up. -/
def plain : Style := ⟨.up, fun _ => true, false⟩

/-- Numerals of data texts: an exponent from `10 ^ 16` on and below `10 ^ -5`, a point in every whole number
    that has none, and a half goes to the even neighbour. -/
def compact : Style := ⟨.even, fun p => -5 < p && p ≤ 16, true⟩

/-- The digits `d * 10 ^ k` with the point in its place and zeros filled in. -/
def positional (keepsPoint : Bool) (digits : List Char) (k : Int) : List Char :=
  let point : Int := digits.length + k
  if 0 ≤ k then digits ++ List.replicate k.toNat '0' ++ (if keepsPoint then ['.', '0'] else [])
  else if 0 < point then digits.take point.toNat ++ '.' :: digits.drop point.toNat
  else '0' :: '.' :: List.replicate (-point).toNat '0' ++ digits

def signed (i : Int) : List Char := (if 0 ≤ i then ['+'] else []) ++ (toString i).toList

/-- The digits with the point after the first one, and an exponent with its sign. -/
def scientific (digits : List Char) (k : Int) : List Char :=
  let point : Int := digits.length + k
  let tail := match digits.drop 1 with
    | [] => []
    | rest => '.' :: rest
  digits.take 1 ++ tail ++ 'e' :: signed (point - 1)

/-- A finite double in the given style. -/
def Style.finite (s : Style) (negative : Bool) (mantissa : Nat) (exponent : Int) : String :=
  let (d, k) := shortest s.tie mantissa exponent
  let digits := Nat.toDigits 10 d
  let body :=
    if d = 0 ∨ s.plainAt (digits.length + k) then positional s.keepsPoint digits k else scientific digits k
  String.ofList (if negative then '-' :: body else body)

/-- A double in plain numerals; the numbers that are not finite have names. -/
def plainText (f : Float) : String :=
  match Binary.ofFloat f with
  | .nan => "NaN"
  | .infinite true => "-inf"
  | .infinite false => "inf"
  | .finite negative m e => plain.finite negative m e

/-- A finite double in the numerals of data texts. -/
def compactText? (f : Float) : Option String :=
  match Binary.ofFloat f with
  | .finite negative m e => some (compact.finite negative m e)
  | _ => none

end LogDispatch.Decimal
