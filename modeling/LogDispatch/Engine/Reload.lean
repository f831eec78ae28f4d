import LogDispatch.Engine.Dispatch

/-! Reloads. A new generation is built route after route and takes the place of the live one in a single
    step; if anything fails, the routes that were made are released and the live generation stays. -/

namespace LogDispatch.Engine

/-- The last actions of a build. -/
def building (isReload : Bool) (outcome : Outcome) : List Action :=
  .unlockReload :: ((if isReload then [.leave] else []) ++ [.finish outcome])

/-- Gives a build up. -/
def abandon (d : Draft) (isReload : Bool) (outcome : Outcome) : List Action :=
  d.generation.routes.map (fun r => .free r.name r.transport) ++ building isReload outcome

variable (e : Engine)

def lockReload : Option Move :=
  if e.reloadLocked then none else some { engine := { e with reloadLocked := true } }

def unlockReload : Move := { engine := { e with reloadLocked := false } }

/-- An engine that is shut down does not reload, and modules stay as they were. -/
def checkReload (config : Config) : Move :=
  if e.isClosed then { engine := e, next := building true (.failed shutDown) }
  else if config.modules != e.setup.modules then
    { engine := e, next := building true (.failed (.configuration .modulesChanged)) }
  else { engine := e, next := [.build config true] }

/-- Checks a configuration. The number of the generation is used up in any case. -/
def build (config : Config) (isReload : Bool) : Move :=
  let drafted := Draft.ofConfig e.setup e.nextId config
  let e := { e with nextId := e.nextId + 1 }
  match drafted with
  | .error error => { engine := e, next := building isReload (.failed error) }
  | .ok draft => { engine := e, next := [.make draft isReload] }

/-- A draft whose next route has been made. -/
def attach (d : Draft) (spec : RouteSpec) (plan : Draft.RoutePlan) (device : Device) (isReload : Bool) :
    Move :=
  { engine := { e with transports := e.transports ++ [{ device }] }
    next := [.make ({ d with todo := d.todo.drop 1 }.attach spec plan e.transports.length) isReload] }

/-- A build that failed at a route. -/
def failAt (d : Draft) (spec : RouteSpec) (error : LogError) (isReload : Bool) : Move :=
  { engine := e, next := abandon d isReload (.failed (error.inRoute spec.title)) }

/-- The draft with the next route, after an attempt to make its transport. -/
def made (d : Draft) (spec : RouteSpec) (plan : Draft.RoutePlan) (isReload : Bool) : Making Device → Move
  | .error panic => { engine := e, next := abandon d isReload (.panicked panic) }
  | .ok (.error error) => e.failAt d spec error isReload
  | .ok (.ok device) => e.attach d spec plan device isReload

/-- What the maker of a transport may ask. -/
def context (d : Draft) : Context :=
  ⟨d.generation.levels, d.generation.frame, e.setup.formatters, e.setup.role⟩

/-- Makes a route whose settings have been checked. -/
def makeRoute (task : TaskId) (d : Draft) (spec : RouteSpec) (plan : Draft.RoutePlan) (isReload : Bool) :
    Move :=
  match e.setup.transports.get? spec.kind with
  | none => e.failAt d spec (.configuration (.unknownTransport spec.kind)) isReload
  | some .console => e.made d spec plan isReload (Device.makeConsole (e.context d) spec)
  | some (.file table) => match Device.makeFile (e.context d) e.files table spec with
    | .error panic => e.made d spec plan isReload (.error panic)
    | .ok (.error error) => e.made d spec plan isReload (.ok (.error error))
    | .ok (.ok (files, device)) => { e with files }.made d spec plan isReload (.ok (.ok device))
  | some .custom =>
    { engine := e
      next := [.awaitCreate d spec plan isReload]
      effects := [.create task spec (e.context d) (e.liveTransport? spec.title)] }

/-- The last actions of a build that succeeded. -/
def publishing (g : Generation) (isReload : Bool) : List Action :=
  .install g :: if isReload then [.recalcAll g, .countReload, .letGo g] ++ building true .done
    else building false .done

/-- Makes the next route; after the last one the generation is complete. -/
def make (task : TaskId) (d : Draft) (isReload : Bool) : Move :=
  match d.todo with
  | [] => { engine := e, next := publishing d.generation isReload }
  | spec :: _ => match d.plan spec with
    | .error fault => e.failAt d spec (.configuration fault) isReload
    | .ok plan => e.makeRoute task d spec plan isReload

/-- Makes a generation the live one and lets the one before it go. -/
def install (g : Generation) : Move :=
  { engine := { e with live := some g }, next := e.live.toList.map .letGo }

def countReload : Move := { engine := { e with metrics := e.metrics.countReload } }

end LogDispatch.Engine
