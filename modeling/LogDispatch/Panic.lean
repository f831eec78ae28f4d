/-! Panics: code that was called gave up. -/

namespace LogDispatch

/-- Code that was called gave up with a message instead of an answer. -/
structure Panic where
  message : String
  deriving DecidableEq, Repr

end LogDispatch
