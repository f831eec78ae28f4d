import LogDispatch.Error
import LogDispatch.Dict

/-! Caches of compiled texts. A request looks its text up, compiles it when it is not there, and stores what
    it made unless another request has stored one meanwhile. Requests may take their steps in any order. -/

namespace LogDispatch

/-- A compiled object, told apart from others like it by its serial number. -/
structure Cached (α : Type) where
  serial : Nat
  value : α

/-- Compiled objects by the exact text they come from. -/
structure Cache (α : Type) where
  stored : Dict (Cached α) := .empty
  /-- The serial number of the next object. -/
  next : Nat := 0

instance {α : Type} : Inhabited (Cache α) := ⟨{}⟩

/-- Where a request stands. -/
inductive Cache.Request (α : Type) where
  | lookUp (text : String)
  | compile (text : String)
  | store (text : String) (made : Cached α)
  | done (result : Except LogError (Cached α))

namespace Cache

variable {α : Type}

def size (c : Cache α) : Nat := c.stored.size

/-- One step of a request. A text that cannot be compiled is not stored. -/
def step (compile : String → Except LogError α) (c : Cache α) : Request α → Cache α × Request α
  | .lookUp text => match c.stored.get? text with
    | some found => (c, .done (.ok found))
    | none => (c, .compile text)
  | .compile text => match compile text with
    | .ok value => ({ c with next := c.next + 1 }, .store text ⟨c.next, value⟩)
    | .error e => (c, .done (.error e))
  | .store text made => match c.stored.get? text with
    | some first => (c, .done (.ok first))
    | none => ({ c with stored := c.stored.insert text made }, .done (.ok made))
  | .done result => (c, .done result)

/-- A request carried through without another one in between. -/
def request (compile : String → Except LogError α) (c : Cache α) (text : String) :
    Cache α × Except LogError (Cached α) :=
  match c.stored.get? text with
  | some found => (c, .ok found)
  | none => match compile text with
    | .error e => (c, .error e)
    | .ok value =>
      let made : Cached α := ⟨c.next, value⟩
      ({ c with stored := c.stored.insert text made, next := c.next + 1 }, .ok made)

end Cache

end LogDispatch
