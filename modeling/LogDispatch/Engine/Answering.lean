import LogDispatch.Engine

/-! Answers of routes: each is counted, its error recorded, and the last one of a call tells the callback. -/

namespace LogDispatch.Engine

variable (e : Engine)

/-- Uses up an acknowledgement. One that has been answered says nothing more. -/
def answer (ack : AckId) (answer : Answer) : Move :=
  match e.acks[ack]? with
  | none => { engine := e }
  | some a =>
    if a.answered then { engine := e }
    else
      let result := answer.result a.route
      let recorded := match result with
        | .ok () => []
        | .error error => [.record a.fanOut error]
      { engine := { e with acks := e.acks.set ack { a with answered := true } }
        next := [.count a.fanOut result] ++ recorded ++ [.arrive a.fanOut] }

def count (result : Except LogError Unit) : Move :=
  { engine := { e with metrics := match result with
      | .ok () => e.metrics.countDelivered
      | .error _ => e.metrics.countFailed } }

def record (fanOut : FanOutId) (error : LogError) : Move :=
  match e.fanOuts[fanOut]? with
  | none => { engine := e }
  | some f => { engine := e.setFanOut fanOut (f.record error) }

def arrive (fanOut : FanOutId) : Move :=
  match e.fanOuts[fanOut]? with
  | none => { engine := e }
  | some f =>
    { engine := e.setFanOut fanOut f.arrive
      next := if f.isLast then [.tell fanOut] else [] }

def tell (fanOut : FanOutId) : Move :=
  match e.fanOuts[fanOut]? with
  | none => { engine := e }
  | some f =>
    { engine := e.setFanOut fanOut f.finish
      effects := f.completion?.toList.map .complete }

end LogDispatch.Engine
