import LogDispatch.Error
import LogDispatch.Text.Quoted

/-! Completion of a call. Every route chosen for a call owes an answer; after the last one the call's
    callback is told once how they all went. The steps of different answers may come in any order. -/

namespace LogDispatch

abbrev CallbackId := Nat

abbrev FanOutId := Nat

abbrev AckId := Nat

/-- The answers one call still waits for, with the errors of those that have come. -/
structure FanOut where
  pending : Nat
  errors : List LogError := []
  callback : Option CallbackId

/-- What a callback is told. -/
structure Completion where
  callback : CallbackId
  result : Except LogError Unit

namespace FanOut

/-- Records the error of a failed answer. -/
def record (f : FanOut) (e : LogError) : FanOut := { f with errors := f.errors ++ [e] }

def arrive (f : FanOut) : FanOut := { f with pending := f.pending - 1 }

/-- The next answer is the last one. -/
def isLast (f : FanOut) : Bool := f.pending == 1

/-- What the callback is told now, if there is one that has not been told. -/
def completion? (f : FanOut) : Option Completion :=
  f.callback.map fun c => ⟨c, LogError.collapse f.errors⟩

/-- Takes the callback and the errors out. -/
def finish (f : FanOut) : FanOut := { f with callback := none, errors := [] }

end FanOut

/-- How a route answers for a record: it was written, it failed, or the acknowledgement was let go. -/
inductive Answer where
  | written
  | failed (error : LogError)
  | dropped

/-- The answer of a route as a result. -/
def Answer.result (route : String) : Answer → Except LogError Unit
  | .written => .ok ()
  | .failed e => .error e
  | .dropped => .error (.abandoned route)

/-- The token that one route answers with. -/
structure Ack where
  route : String
  fanOut : FanOutId
  answered : Bool := false

/-- The text for inspection of a token. -/
def Ack.inspect (a : Ack) : String :=
  "Ack \x7b route: " ++ Text.quoted a.route ++ ", answered: " ++ toString a.answered ++ " \x7d"

/-- A fan-out of a single answer, from the answer to the callback. -/
def FanOut.answerAll (f : FanOut) (route : String) (answer : Answer) : FanOut × Option Completion :=
  let f := match answer.result route with
    | .ok _ => f
    | .error e => f.record e
  let last := f.isLast
  let f := f.arrive
  if last then (f.finish, f.completion?) else (f, none)

end LogDispatch
