import LogDispatch.Error
import LogDispatch.Scope

/-! Formatters: the stages that a template variable passes through. -/

namespace LogDispatch

/-- Arguments of a stage in order. Positional ones have their position as key. -/
abbrev Args := Dict String

/-- A stage readies its arguments once, when a template is compiled, and then transforms values. A value it
    has no answer for renders empty. -/
structure Formatter where
  prepare : Args → Except LogError Args := .ok
  apply : Value → Args → Except Panic (Option Value)

def Formatter.pure (f : Value → Args → Option Value) : Formatter := { apply := fun v args => .ok (f v args) }

abbrev Formatters := Dict Formatter

end LogDispatch
