import LogDispatch.Rule.Glob
import LogDispatch.Text.Utf8

/-! How large the program is that a wildcard pattern compiles to. The program reads UTF-8 byte by byte, from
    the end of a text to its beginning; its states and their links take memory, and the sum is limited. -/

namespace LogDispatch.Glob

/-- What a program may take, in bytes. -/
def sizeLimit : Nat := 10 * 1024 * 1024

/-- What a state takes. -/
def stateSize : Nat := 32

/-- What one of several links out of a state takes. -/
def linkSize : Nat := 4

/-- The characters that differ from `c` in case at most, `c` among them. -/
def caseVariants (c : Char) : List Char :=
  let folded := Text.foldChar c
  folded :: Text.foldRuns.filterMap (·.source? folded)

/-- The beginnings of the bytes of a character, short of all its bytes. -/
def stems (c : Char) : List (List UInt8) :=
  let bytes := Text.encodeUtf8 c.toString
  (List.range (bytes.length - 1)).map fun n => bytes.take (n + 1)

/-- The character is the first of those that differ from it, without a gap, in the last byte only. -/
def startsRange (cs : List Char) (c : Char) : Bool :=
  c.toNat % 64 == 0 || !cs.any fun d => d.toNat + 1 == c.toNat

/-- One of several characters: a single state with a double link for each ASCII character, or a fork with a
    path for each range of characters, where paths that begin alike share their states. -/
def choiceSize (cs : List Char) : Nat :=
  if cs.all fun c => c.toNat < 128 then 2 * stateSize + 2 * linkSize * cs.length
  else
    let ranges := (cs.filter (startsRange cs)).length
    let inner := (cs.flatMap stems).eraseDups.length
    stateSize * (2 + ranges + inner) + linkSize * ranges

/-- Any character of a line: ten ranges of UTF-8 with 28 states on their paths. -/
def anySize : Nat := stateSize * (2 + 28) + linkSize * 10

/-- What a token takes. A character without case is the sequence of its bytes, and a run is a loop around any
    character. -/
def Token.size : Token → Nat
  | .run => anySize + stateSize + 2 * linkSize
  | .one => anySize
  | .char c => match caseVariants c with
    | [_] => stateSize * (Text.encodeUtf8 c.toString).length
    | cs => choiceSize cs

/-- What a pattern takes: its tokens between the two ends of the text. -/
def programSize (pattern : String) : Nat :=
  (tokens pattern).foldl (fun size t => size + t.size) (4 * stateSize)

end LogDispatch.Glob
