import LogDispatch.Dict
import LogDispatch.Value

/-! Variables in scope: frames of names, and chains of frames in which the later ones take precedence. -/

namespace LogDispatch

abbrev Frame := Dict Value

/-- The frames in scope, least specific first. -/
structure Scope where
  frames : List Frame

namespace Scope

def empty : Scope := ⟨[]⟩

/-- A frame that goes before all others in precedence. -/
def push (s : Scope) (f : Frame) : Scope := ⟨s.frames ++ [f]⟩

/-- The value of a name in the most specific frame that binds it, even to null or false. -/
def resolve? (s : Scope) (name : String) : Option Value :=
  s.frames.reverse.findSome? fun f => f.get? name

def size (s : Scope) : Nat := s.frames.length

end Scope

end LogDispatch
