import LogDispatch.Text.CaseTables

/-! Comparing characters without regard to case, by simple case folding. -/

namespace LogDispatch.Text

/-- The character that stands for all those that differ from `c` in case only. -/
def foldChar (c : Char) : Char :=
  if c.toNat < 128 then c.toLower else mapRuns foldRuns c

/-- The two characters differ in case at most. -/
def sameFold (a b : Char) : Bool := foldChar a == foldChar b

end LogDispatch.Text
