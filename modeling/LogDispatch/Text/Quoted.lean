import LogDispatch.Text.QuotedTable
import LogDispatch.Text.Split

/-! Quoted text for inspection: double quotes around the text, the usual escapes inside, and a code point
    number for each character that shows nothing by itself. -/

namespace LogDispatch.Text

/-- The character shows no glyph of its own. -/
def needsNumber (c : Char) : Bool :=
  if c.toNat < 128 then c.toNat < 32 || c.toNat == 127
  else inRanges fillerRanges c || inRanges graphemeExtendRanges c || inRanges unprintableRanges c

/-- One character as it stands between the quotes. -/
def quotedChar (c : Char) : List Char :=
  if c = '\x00' then ['\\', '0']
  else if c = '\t' then ['\\', 't']
  else if c = '\r' then ['\\', 'r']
  else if c = '\n' then ['\\', 'n']
  else if c = '"' ∨ c = '\\' then ['\\', c]
  else if needsNumber c then ['\\', 'u', '\x7b'] ++ Nat.toDigits 16 c.toNat ++ ['\x7d']
  else [c]

def quoted (s : String) : String := String.ofList ('"' :: s.toList.flatMap quotedChar ++ ['"'])

/-- A bracketed list of texts that are already written out. -/
def bracketed (items : List String) : String := "[" ++ join ", " items ++ "]"

end LogDispatch.Text
