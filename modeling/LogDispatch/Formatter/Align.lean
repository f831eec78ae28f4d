import LogDispatch.Formatter

/-! The formatter `align`: pads or crops a text to a width.

    Its arguments are `s`, the side on which the text stands (`left` or `right`), `w`, the width, `c`, whether
    longer texts are cropped (`yes` or `no`), and `f`, the filler. -/

namespace LogDispatch.Align

structure Settings where
  right : Bool
  /-- Zero keeps the width of the text. -/
  width : Nat
  crop : Bool
  /-- Repeated as often as it takes; blanks when it is empty. -/
  filler : List Char
  deriving DecidableEq, Repr

/-- An argument equals a word, blanks around it and ASCII case aside. -/
def isWord (arg : Option String) (word : String) : Bool :=
  arg.any fun s => Text.lowerAscii (Text.trim s) == word

/-- The digits behind an optional plus sign. -/
def withoutPlus : List Char → List Char
  | '+' :: ds => ds
  | ds => ds

/-- A decimal number of at most 64 bits, with an optional plus sign. -/
def natural? (s : String) : Option Nat :=
  let ds := withoutPlus s.toList
  if ds.isEmpty || !ds.all Char.isDigit then none
  else
    let n := Decimal.digitsValue 0 ds
    if n < Nat.pow 2 64 then some n else none

/-- The width that an argument gives, zero if it gives none. -/
def widthOf (arg : Option String) : Nat := (arg.bind natural?).getD 0

/-- The arguments a template gives, as settings spelled out. -/
def prepare (args : Args) : Args :=
  Dict.ofList [
    ("side", if isWord (args.get? "s") "right" then "right" else "left"),
    ("width", toString (widthOf ((args.get? "w").map Text.trim))),
    ("crop", if isWord (args.get? "c") "yes" then "yes" else "no"),
    ("filler", (args.get? "f").getD " ")]

/-- The settings that prepared arguments spell out. -/
def Settings.ofArgs (args : Args) : Settings where
  right := args.get? "side" == some "right"
  width := widthOf (args.get? "width")
  crop := args.get? "crop" == some "yes"
  filler := ((args.get? "filler").getD " ").toList

/-- The width for a text of some length. The text has its own when none is set, or when it is longer and stays whole. -/
def Settings.widthFor (s : Settings) (length : Nat) : Nat :=
  if s.width = 0 ∨ (s.width < length ∧ !s.crop) then length else s.width

/-- The first `n` characters of the filler repeated without end. -/
def padding (filler : List Char) (n : Nat) : List Char :=
  let filler := if filler.isEmpty then [' '] else filler
  (List.replicate (n / filler.length + 1) filler).flatten.take n

/-- What memory can be asked for at once, in bytes: the largest signed number of 64 bits. Padding is asked for before it
    is laid out, one byte for each of its characters. -/
def largestPadding : Nat := Nat.pow 2 63 - 1

def capacityOverflow : Panic := ⟨"capacity overflow"⟩

/-- The difference of two numbers of 64 bits. Below zero it goes on from the largest one. -/
def wordDifference (m n : Nat) : Nat := if n ≤ m then m - n else m + Nat.pow 2 64 - n

/-- The text from a position on. There is none past its end. -/
def sliceFrom (start : Nat) (text : List Char) : Except Panic (List Char) :=
  if start ≤ text.length then .ok (text.drop start)
  else .error
    ⟨"range start index " ++ toString start ++ " out of range for slice of length " ++ toString text.length⟩

/-- The text padded, or cropped at the side away from the one it stands on. It gives up on padding that it cannot ask the
    memory for. -/
def align (s : Settings) (text : List Char) : Except Panic (List Char) :=
  let width := s.widthFor text.length
  let room := width - text.length
  if largestPadding < room then .error capacityOverflow
  else
    let fill := padding s.filler room
    if s.right then
      let joined := fill ++ text
      sliceFrom (wordDifference joined.length width) joined
    else .ok ((text ++ fill).take width)

def formatter : Formatter where
  prepare args := .ok (prepare args)
  apply v args := (align (Settings.ofArgs args) v.display.toList).map fun text => some (.text (String.ofList text))

end LogDispatch.Align
