import LogDispatch.Cache
import LogDispatch.Formatter.Align
import LogDispatch.Formatter.Pattern
import LogDispatch.Template

/-! The built-in formatters, and the caches of the patterns and templates that they compile. -/

namespace LogDispatch

def Formatters.builtins : Formatters :=
  Dict.ofList [("format", PatternStage.formatter), ("align", Align.formatter)]

structure PatternCache where
  dates : Cache DatePattern := {}
  numbers : Cache NumberPattern := {}

instance : Inhabited PatternCache := ⟨{}⟩

namespace PatternCache

def date (c : PatternCache) (text : String) : PatternCache × Except LogError (Cached DatePattern) :=
  let (dates, result) := c.dates.request (fun s => .ok (DatePattern.compile s)) text
  ({ c with dates }, result)

def number (c : PatternCache) (text : String) : PatternCache × Except LogError (Cached NumberPattern) :=
  let (numbers, result) := c.numbers.request NumberPattern.compile text
  ({ c with numbers }, result)

/-- A value through the formatter `format`, with its patterns taken from the cache. -/
def apply (c : PatternCache) (v : Value) (args : Args) : PatternCache × Except Panic (Option Value) :=
  let pattern := (args.get? "f").getD ""
  if pattern = "" then (c, .ok (some (.text "")))
  else match PatternStage.Need.ofValue v with
    | .date t =>
      let (c, result) := c.date pattern
      (c, match result with
        | .ok p => (p.value.format t).map (some ∘ .text)
        | .error _ => .ok none)
    | .number f =>
      let (c, result) := c.number pattern
      (c, .ok (result.toOption.map fun p => .text (p.value.format f)))
    | .nothing => (c, .ok (some (.text v.display)))

end PatternCache

/-- The template of a text, from a cache for one set of formatters. -/
def Template.request (formatters : Formatters) (c : Cache Template) (text : String) :
    Cache Template × Except LogError (Cached Template) :=
  c.request (Template.compile · formatters) text

end LogDispatch
