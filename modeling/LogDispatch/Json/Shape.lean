import LogDispatch.Decimal.Reading

/-! The shape of a JSON text: its brackets, names and tokens, before any limit on depth, size of numbers
    or pairing of surrogates is applied. A text that a reader skips need only have a shape. -/

namespace LogDispatch.Json

/-- A numeral by its parts. A part that is absent is empty; `whole` never is. -/
structure Numeral where
  negative : Bool
  whole : List Char
  fraction : List Char
  /-- Sign and digits of the exponent. -/
  exponent : Option (Bool × List Char)

/-- A piece of a string literal: a character, or a code unit given by number. -/
inductive Piece where
  | char (c : Char)
  | unit (n : Nat)

inductive Shape where
  | null
  | bool (value : Bool)
  | number (value : Numeral)
  | string (pieces : List Piece)
  | array (items : List Shape)
  | object (members : List (List Piece × Shape))

instance : Inhabited Shape := ⟨.null⟩

def isSpace (c : Char) : Bool := c == ' ' || c == '\n' || c == '\t' || c == '\r'

def skipSpace (cs : List Char) : List Char := cs.dropWhile isSpace

def hexDigit? (c : Char) : Option Nat :=
  if c.isDigit then some (c.toNat - '0'.toNat)
  else if 'a' ≤ c ∧ c ≤ 'f' then some (c.toNat - 'a'.toNat + 10)
  else if 'A' ≤ c ∧ c ≤ 'F' then some (c.toNat - 'A'.toNat + 10)
  else none

def escape? : Char → Option Char
  | '"' => some '"'
  | '\\' => some '\\'
  | '/' => some '/'
  | 'b' => some (Char.ofNat 8)
  | 'f' => some (Char.ofNat 12)
  | 'n' => some '\n'
  | 'r' => some '\r'
  | 't' => some '\t'
  | _ => none

/-- The pieces of a string literal after its opening quote, and what follows its closing quote. -/
def pieces? : List Char → Option (List Piece × List Char)
  | '"' :: cs => some ([], cs)
  | '\\' :: 'u' :: a :: b :: c :: d :: cs => do
    let n := 4096 * (← hexDigit? a) + 256 * (← hexDigit? b) + 16 * (← hexDigit? c) + (← hexDigit? d)
    let (ps, rest) ← pieces? cs
    some (.unit n :: ps, rest)
  | '\\' :: e :: cs => do
    let c ← escape? e
    let (ps, rest) ← pieces? cs
    some (.char c :: ps, rest)
  | c :: cs =>
    if c.toNat < 32 then none
    else (pieces? cs).map fun (ps, rest) => (.char c :: ps, rest)
  | [] => none

/-- The digits after a point, none where no point stands, and the rest. -/
def fraction? : List Char → Option (List Char × List Char)
  | '.' :: cs =>
    let ds := cs.takeWhile Char.isDigit
    if ds.isEmpty then none else some (ds, cs.dropWhile Char.isDigit)
  | cs => some ([], cs)

/-- Sign and digits of an exponent, if one stands here, and the rest. -/
def exponentPart? : List Char → Option (Option (Bool × List Char) × List Char)
  | [] => some (none, [])
  | c :: cs =>
    if c = 'e' ∨ c = 'E' then
      let (minus, cs) := Decimal.takeSign cs
      let ds := cs.takeWhile Char.isDigit
      if ds.isEmpty then none else some (some (minus, ds), cs.dropWhile Char.isDigit)
    else some (none, c :: cs)

/-- A numeral after its sign: no leading zero, and at least one digit in every part that is begun. -/
def numeral? (negative : Bool) (cs : List Char) : Option (Numeral × List Char) :=
  let whole := cs.takeWhile Char.isDigit
  if whole.isEmpty || (whole.head? == some '0' && 1 < whole.length) then none
  else do
    let (fraction, cs) ← fraction? (cs.dropWhile Char.isDigit)
    let (exponent, cs) ← exponentPart? cs
    some (⟨negative, whole, fraction, exponent⟩, cs)

mutual

/-- The shape at the start of the text, and the rest. Every call takes off a character first, so fuel of
    the length of the text never runs out. -/
def shape? : Nat → List Char → Option (Shape × List Char)
  | 0, _ => none
  | fuel + 1, cs =>
    match skipSpace cs with
    | 'n' :: 'u' :: 'l' :: 'l' :: r => some (.null, r)
    | 't' :: 'r' :: 'u' :: 'e' :: r => some (.bool true, r)
    | 'f' :: 'a' :: 'l' :: 's' :: 'e' :: r => some (.bool false, r)
    | '"' :: r => (pieces? r).map fun (ps, r) => (.string ps, r)
    | '-' :: r => (numeral? true r).map fun (n, r) => (.number n, r)
    | '[' :: r =>
      match skipSpace r with
      | ']' :: r => some (.array [], r)
      | r => (shapeItems? fuel r).map fun (js, r) => (.array js, r)
    | '\x7b' :: r =>
      match skipSpace r with
      | '\x7d' :: r => some (.object [], r)
      | r => (shapeMembers? fuel r).map fun (ms, r) => (.object ms, r)
    | r => (numeral? false r).map fun (n, r) => (.number n, r)

def shapeItems? : Nat → List Char → Option (List Shape × List Char)
  | 0, _ => none
  | fuel + 1, cs => do
    let (j, r) ← shape? fuel cs
    match skipSpace r with
    | ']' :: r => some ([j], r)
    | ',' :: r =>
      let (js, r) ← shapeItems? fuel r
      some (j :: js, r)
    | _ => none

def shapeMembers? : Nat → List Char → Option (List (List Piece × Shape) × List Char)
  | 0, _ => none
  | fuel + 1, cs => do
    match skipSpace cs with
    | '"' :: r =>
      let (name, r) ← pieces? r
      match skipSpace r with
      | ':' :: r =>
        let (j, r) ← shape? fuel r
        match skipSpace r with
        | '\x7d' :: r => some ([(name, j)], r)
        | ',' :: r =>
          let (ms, r) ← shapeMembers? fuel r
          some ((name, j) :: ms, r)
        | _ => none
      | _ => none
    | _ => none

end

def Shape.ofText? (s : String) : Option Shape := do
  let cs := s.toList
  let (j, r) ← shape? (2 * cs.length + 2) cs
  if (skipSpace r).isEmpty then some j else none

end LogDispatch.Json
