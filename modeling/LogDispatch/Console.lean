import LogDispatch.Config

/-! The console transport: one line a record, coloured by severity on demand, errors apart. -/

namespace LogDispatch

/-- Which of its two streams a line goes to. -/
inductive Stream where
  | output
  | errors
  deriving DecidableEq, Repr

namespace Console

inductive Color where
  | blue
  | green
  | yellow
  | red
  | brightRed
  deriving DecidableEq, Repr

/-- The code that switches a terminal to a colour. -/
def Color.code : Color → String
  | .blue => "34"
  | .green => "32"
  | .yellow => "33"
  | .red => "31"
  | .brightRed => "91"

structure Settings where
  /-- Records of this rank and above are errors. -/
  errorsFrom : Option Nat
  colors : Bool
  levels : Nat
  deriving DecidableEq, Repr

def Settings.ofSpec (table : LevelTable) (spec : RouteSpec) : Except ConfigFault Settings := do
  let errorsFrom ← match spec.textOption? "stderr_level" with
    | none => pure none
    | some name => match table.rank? name with
      | some rank => pure (some rank)
      | none => throw (.unknownErrorLevel name)
  pure ⟨errorsFrom, spec.flag "colors", table.size⟩

/-- The colour of a rank: quarters of the way up to the highest level, which alone is bright red. -/
def Settings.colorOf (s : Settings) (rank : Nat) : Color :=
  let top := max (s.levels - 1) 1
  if top ≤ rank then .brightRed
  else match rank * 4 / top with
    | 0 => .blue
    | 1 => .green
    | 2 => .yellow
    | _ => .red

/-- The stream for a record of a rank; records without a rank are no errors. -/
def Settings.streamOf (s : Settings) (rank : Option Nat) : Stream :=
  match s.errorsFrom, rank with
  | some least, some r => if least ≤ r then .errors else .output
  | _, _ => .output

def escape : Char := Char.ofNat 27

def resetMark : List Char := [escape, '[', '0', 'm']

/-- The text with `mark` after each reset in it. -/
def afterResets (mark : List Char) : List Char → List Char
  | a :: b :: c :: d :: cs =>
    if [a, b, c, d] = resetMark then [a, b, c, d] ++ mark ++ afterResets mark cs
    else a :: afterResets mark (b :: c :: d :: cs)
  | cs => cs

/-- The text in a colour; a reset inside the text does not end the colour. -/
def colored (color : Color) (text : String) : String :=
  let mark := [escape, '['] ++ color.code.toList ++ ['m']
  String.ofList (mark ++ afterResets mark text.toList ++ resetMark)

/-- The line for a record. A terminal that shows no colours gets the text alone. -/
def Settings.line (s : Settings) (terminal : Bool) (rank : Option Nat) (text : String) : String :=
  match rank with
  | some r => if s.colors && terminal then colored (s.colorOf r) text else text
  | none => text

end Console

end LogDispatch
