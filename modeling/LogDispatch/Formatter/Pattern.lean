import LogDispatch.Formatter
import LogDispatch.Pattern.Date
import LogDispatch.Pattern.Number

/-! The formatter `format`: dates and numbers through the pattern in its argument `f`. -/

namespace LogDispatch.PatternStage

/-- Which kind of pattern a value calls for. -/
inductive Need where
  | date (t : Timestamp)
  | number (f : Float)
  | nothing

/-- Dates take a date pattern, values that read as numbers a number pattern, all others none. -/
def Need.ofValue : Value → Need
  | .date t => .date t
  | .callable .. => .nothing
  | v => match v.number? with
    | some f => .number f
    | none => .nothing

/-- The value through a pattern. No pattern gives an empty text; a number renders empty when the pattern is
    not readable as a number pattern; a value that takes no pattern is its own text. -/
def apply (v : Value) (args : Args) : Except Panic (Option Value) :=
  let pattern := (args.get? "f").getD ""
  if pattern = "" then .ok (some (.text ""))
  else match Need.ofValue v with
    | .date t => ((DatePattern.compile pattern).format t).map (some ∘ .text)
    | .number f => match NumberPattern.compile pattern with
      | .ok p => .ok (some (.text (p.format f)))
      | .error _ => .ok none
    | .nothing => .ok (some (.text v.display))

def formatter : Formatter := { apply }

end LogDispatch.PatternStage
