import LogDispatch.Text.CaseTables

/-! Lower case of a whole text. A capital sigma that ends a word becomes the final sigma, and a dotted
    capital i keeps its dot as a combining mark. -/

namespace LogDispatch.Text

/-- The lower-case image of one character, itself when it has none. -/
def lowerChar (c : Char) : Char :=
  if c.toNat < 128 then c.toLower else mapRuns lowerRuns c

/-- Property Cased. -/
def isCased (c : Char) : Bool := inRanges casedRanges c

/-- Property Case_Ignorable. -/
def isCaseIgnorable (c : Char) : Bool := inRanges caseIgnorableRanges c

/-- The first character that is not case-ignorable is cased. -/
def startsCased (cs : List Char) : Bool :=
  match cs.dropWhile isCaseIgnorable with
  | [] => false
  | c :: _ => isCased c

/-- Lower case of `rest`, which follows the characters of `before` (nearest first). -/
def lowerAfter (before : List Char) : List Char → List Char
  | [] => []
  | c :: rest =>
    let low :=
      if c = 'Σ' then [if startsCased before && !startsCased rest then 'ς' else 'σ']
      else if c = 'İ' then ['i', Char.ofNat 0x307]
      else [lowerChar c]
    low ++ lowerAfter (c :: before) rest

def lower (s : String) : String := String.ofList (lowerAfter [] s.toList)

/-- The text with its ASCII capitals in lower case. -/
def lowerAscii (s : String) : String := String.ofList (s.toList.map Char.toLower)

/-- The text with its ASCII small letters in upper case. -/
def upperAscii (s : String) : String := String.ofList (s.toList.map Char.toUpper)

end LogDispatch.Text
