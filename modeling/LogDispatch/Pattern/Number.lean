import LogDispatch.Decimal.Layout
import LogDispatch.Error
import LogDispatch.Text.Blank
import LogDispatch.Text.DigitTable

/-! Number patterns.

    A pattern is a group of digits with an optional part `0,` before it that asks for thousands separators,
    an optional part `.00` that gives the fraction digits always written, and an optional bracket `[00]` that
    gives those written only when they are needed. Parentheses around the pattern drop the sign, a percent sign
    at its end multiplies by one hundred. -/

namespace LogDispatch

structure NumberPattern where
  source : String
  absolute : Bool
  percent : Bool
  thousands : Bool
  /-- Fraction digits that are always written. -/
  minFraction : Nat
  /-- Fraction digits that are written at most. -/
  maxFraction : Nat
  deriving DecidableEq, Repr

namespace NumberPattern

/-- The parts of a digit group. -/
structure Group where
  thousands : Bool
  /-- The digits after a point, when there is one. -/
  fraction : Option (List Char)
  /-- What stands in the bracket, when there is one. -/
  bracket : Option (List Char)

def isBracketChar (c : Char) : Bool := Text.isDecimalDigit c || c == '.'

/-- A bracket of digits and points at the start of a text. -/
def bracketAt? : List Char → Option (List Char)
  | '[' :: cs =>
    let inner := cs.takeWhile isBracketChar
    match inner, cs.dropWhile isBracketChar with
    | _ :: _, ']' :: _ => some inner
    | _, _ => none
  | _ => none

/-- What follows the whole digits of a group. -/
def Group.ofTail (thousands : Bool) (cs : List Char) : Group :=
  match cs with
  | '.' :: r => ⟨thousands, some (r.takeWhile Text.isDecimalDigit), bracketAt? (r.dropWhile Text.isDecimalDigit)⟩
  | r => ⟨thousands, none, bracketAt? r⟩

/-- A digit group at the start of a text. Digits, a comma and a digit make a thousands group. -/
def groupAt? (cs : List Char) : Option Group :=
  let lead := cs.takeWhile Text.isDecimalDigit
  let plain := if lead.isEmpty then none else some (Group.ofTail false (cs.dropWhile Text.isDecimalDigit))
  match cs.dropWhile Text.isDecimalDigit with
  | ',' :: r =>
    if (r.takeWhile Text.isDecimalDigit).isEmpty then plain
    else some (Group.ofTail true (r.dropWhile Text.isDecimalDigit))
  | _ => plain

/-- The first digit group of a text. -/
def firstGroup? : List Char → Option Group
  | [] => groupAt? []
  | c :: cs => match groupAt? (c :: cs) with
    | some g => some g
    | none => firstGroup? cs

/-- The pattern without parentheses around it, and whether there were any. -/
def stripParens (cs : List Char) : Bool × List Char :=
  match cs with
  | '(' :: r => if r.getLast? = some ')' then (true, r.dropLast) else (false, cs)
  | _ => (false, cs)

/-- The pattern without a percent sign at its end, and whether there was one. -/
def stripPercent (cs : List Char) : Bool × List Char :=
  if cs.getLast? = some '%' then (true, cs.dropLast) else (false, cs)

/-- The size of a text in bytes, which is what counts as its number of digits. -/
def byteCount (cs : List Char) : Nat := (String.ofList cs).utf8ByteSize

/-- The fraction digits of a group: always written, and written at most. With a point before the bracket all
    of the bracket counts, else only what follows the first point inside it. -/
def Group.precision (g : Group) : Nat × Nat :=
  match g.fraction, g.bracket with
  | some ds, b => (byteCount ds, byteCount ds + byteCount (b.getD []))
  | none, some b => match b.dropWhile (· != '.') with
    | '.' :: ds => (0, byteCount ds)
    | _ => (0, byteCount b)
  | none, none => (0, 0)

/-- Reads a pattern; it needs a digit group somewhere. -/
def compile (source : String) : Except LogError NumberPattern :=
  let (absolute, body) := stripParens (Text.trimChars source.toList)
  let (percent, body) := stripPercent body
  match firstGroup? body with
  | none => .error (.compile "number pattern" source "no digit group found")
  | some g =>
    let (least, most) := g.precision
    .ok ⟨source, absolute, percent, g.thousands, least, most⟩

/-- The digits plus one in the last place, and whether the sum carries past the first one. -/
def increment : List Char → List Char × Bool
  | [] => ([], true)
  | c :: cs =>
    let (rest, carry) := increment cs
    if carry then (if c = '9' then ('0' :: rest, true) else (Char.ofNat (c.toNat + 1) :: rest, false))
    else (c :: rest, false)

/-- A plain numeral without sign rounded to so many fraction digits, half away from zero: its whole digits
    and exactly that many fraction digits. -/
def roundNumeral (numeral : List Char) (digits : Nat) : List Char × List Char :=
  let whole := numeral.takeWhile (· != '.')
  let fraction := (numeral.dropWhile (· != '.')).drop 1
  let kept := (fraction ++ List.replicate digits '0').take digits
  let up := match fraction.drop digits with
    | [] => false
    | d :: _ => '5' ≤ d
  let all := whole ++ kept
  let (rounded, carry) := if up then increment all else (all, false)
  let rounded := if carry then '1' :: rounded else rounded
  rounded.splitAt (rounded.length - digits)

/-- A comma before every third digit from the right, but the first digit. -/
def separated : List Char → List Char
  | [] => []
  | c :: cs => if cs.length % 3 = 0 ∧ !cs.isEmpty then c :: ',' :: separated cs else c :: separated cs

/-- The list without zeros at its end, down to a given length. -/
def dropZeros (least : Nat) (ds : List Char) : List Char :=
  let needed := (ds.reverse.dropWhile (· == '0')).length
  ds.take (max needed least)

/-- A number in the pattern. Numbers that are not finite count as zero. -/
def format (p : NumberPattern) (value : Float) : String :=
  let v := if value.isFinite then value else 0.0
  let v := if p.absolute then v.abs else v
  let v := if p.percent then v * 100.0 else v
  let (whole, fraction) := roundNumeral (Decimal.plainText v.abs).toList p.maxFraction
  let fraction := dropZeros p.minFraction fraction
  let isZero := whole.all (· == '0') && fraction.all (· == '0')
  let whole := if p.thousands then separated whole else whole
  let sign := if v < 0.0 && !isZero then ['-'] else []
  let point := if fraction.isEmpty then [] else '.' :: fraction
  String.ofList (sign ++ whole ++ point)

end NumberPattern

end LogDispatch
