import LogDispatch.Engine

/-! Release. The transports of a generation are released once: when it is no longer live and no task uses it,
    or when the engine is shut down. -/

namespace LogDispatch

/-- The action uses the generation of this number. -/
def Action.holds (id : GenerationId) : Action → Bool
  | .letGo g => g.id == id
  | _ => false

namespace Engine

variable (e : Engine)

/-- The generation is live, or a task still has to let it go. -/
def isHeld (id : GenerationId) : Bool :=
  e.live.any (·.id == id) || e.agendas.any fun agenda => agenda.any (Action.holds id)

/-- Releases the transports of a generation, unless that has been done. -/
def release (g : Generation) : Move :=
  if e.released.contains g.id then { engine := e }
  else
    { engine := { e with released := g.id :: e.released }
      next := g.routes.map fun r => .free r.name r.transport }

def letGo (g : Generation) : Move :=
  if e.isHeld g.id then { engine := e } else e.release g

/-- Gives up a handle; the last one takes the live generation with it. -/
def leave : Move :=
  let handles := e.handles - 1
  if handles = 0 then
    { engine := { e with handles, live := none }, next := e.live.toList.map .letGo }
  else { engine := { e with handles } }

def free (task : TaskId) (route : String) (transport : TransportId) : Move :=
  let effect : Effect := .free task transport
  match e.transport? transport with
  | none => { engine := e, effects := [effect] }
  | some t =>
    let e := { e with transports := e.transports.set transport { t with isFreed := true } }
    match t.device with
    | .console _ => { engine := e, effects := [effect] }
    | .custom _ => { engine := e, next := [.awaitFree route], effects := [effect] }
    | .file outlet =>
      let (files, closed) := e.files.release outlet
      let device := Device.file { outlet with isReleased := true }
      { engine := { e with files, transports := e.transports.set transport ⟨device, true⟩ }
        effects := effect :: closed.toList.map .closing }

/-- Shuts the engine down, once. -/
def close : Move :=
  if e.isClosed then { engine := e }
  else
    let e := { e with isClosed := true }
    match e.live with
    | some g => e.release g
    | none => { engine := e }

end Engine

end LogDispatch
