import LogDispatch.Engine.Answering
import LogDispatch.Engine.Channels
import LogDispatch.Engine.Release
import LogDispatch.Engine.Reload

/-! The steps of an engine: what the host may do next, and what comes of it. -/

namespace LogDispatch

/-- What the host does: it begins a task, has a task do its next action, or reports what one waits for. -/
inductive Op where
  | begin (request : Request)
  | advance (task : TaskId)
  /-- The transport that a task waits for was made, and is called this kind, or was not. -/
  | created (task : TaskId) (result : Making String)
  /-- The transport that a task waits for has returned, or has panicked. -/
  | returned (task : TaskId) (panicked : Bool)

namespace Engine

variable (e : Engine)

/-- Answers for the lines of a batch. -/
def answersFor (batch : List File.Job) (result : Except File.Disk.Fault Unit) : List Action :=
  batch.filterMap fun job =>
    e.acks[job.ack]?.map fun a => .answer job.ack (File.answerFor a.route result)

/-- Writes a batch; its lines are answered for after that. -/
def write (writer : WriterId) (batch : List File.Job) : Move :=
  let (files, result) := e.files.write writer batch
  { engine := { e with files }, next := e.answersFor batch result }

/-- Does an action of a task. There is nothing to do yet for an action that waits. -/
def perform? (task : TaskId) : Action → Option Move
  | .load call => e.load call
  | .screen call g => some (e.screen call g)
  | .select call g channel rank text => some (e.select call g channel rank text)
  | .refresh channel table => some (e.refresh channel table)
  | .accept g deliveries callback => some (e.accept g deliveries callback)
  | .countUnrouted => some e.countUnrouted
  | .fan g deliveries callback => some (e.fan g deliveries callback)
  | .attempt g fanOut delivery => some (e.attempt task g fanOut delivery)
  | .awaitOut _ => none
  | .send writer job => some { engine := { e with files := e.files.send writer job } }
  | .reject error callback => some (e.reject error callback)
  | .answer ack answer => some (e.answer ack answer)
  | .count _ result => some (e.count result)
  | .record fanOut error => some (e.record fanOut error)
  | .arrive fanOut => some (e.arrive fanOut)
  | .tell fanOut => some (e.tell fanOut)
  | .letGo g => some (e.letGo g)
  | .leave => some e.leave
  | .free route transport => some (e.free task route transport)
  | .awaitFree _ => none
  | .lockReload => e.lockReload
  | .unlockReload => some e.unlockReload
  | .checkReload config => some (e.checkReload config)
  | .build config isReload => some (e.build config isReload)
  | .make draft isReload => some (e.make task draft isReload)
  | .awaitCreate .. => none
  | .install g => some (e.install g)
  | .recalcAll g => e.recalcAll g
  | .recalc g channel => some (e.recalc g channel)
  | .unlockChannels => some e.unlockChannels
  | .countReload => some e.countReload
  | .close => some e.close
  | .register module shownAs => e.register module shownAs
  | .enlist channel => e.enlist channel
  | .write writer batch => some (e.write writer batch)
  | .rest writer => some { engine := { e with files := e.files.rest writer } }
  | .complain line => some { engine := e, effects := [.print .errors line] }
  | .finish outcome => some { engine := e, effects := [.ended task outcome] }

def setAgenda (task : TaskId) (agenda : List Action) : Engine :=
  { e with agendas := e.agendas.set task agenda }

/-- The actions that come next go before the rest of the agenda. -/
def proceed (task : TaskId) (rest : List Action) (m : Move) : Engine × List Effect :=
  (m.engine.setAgenda task (m.next ++ rest), m.effects)

/-- The next action of a task. The action is off the agenda while it is done. -/
def advance? (task : TaskId) : Option (Engine × List Effect) :=
  match e.agendas[task]? with
  | some (action :: rest) =>
    ((e.setAgenda task rest).perform? task action).map (proceed task rest)
  | _ => none

def addTask (agenda : List Action) : Engine := { e with agendas := e.agendas ++ [agenda] }

/-- The number of the task that begins next. -/
def nextTask : TaskId := e.agendas.length

/-- A channel through which calls can be made. -/
def openChannel? (channel : ChannelId) : Option Channel :=
  e.channels[channel]?.filter (·.isOpen)

/-- Begins a task. Only someone with a handle on the engine can do so, except for answers and batches. -/
def begin? : Request → Option Engine
  | .call call =>
    if 0 < e.handles ∧ call.channel.all fun c => (e.openChannel? c).isSome then
      some (e.borrow.addTask [.load call])
    else none
  | .reload config =>
    if 0 < e.handles then some (e.borrow.addTask [.lockReload, .checkReload config]) else none
  | .shutdown =>
    if 0 < e.handles then
      some (e.borrow.addTask [.lockReload, .close, .unlockReload, .leave, .finish .done])
    else none
  | .openChannel module shownAs =>
    if 0 < e.handles then some (e.borrow.addTask [.register module shownAs]) else none
  | .closeChannel channel =>
    (e.openChannel? channel).map fun c =>
      (e.setChannel channel { c with isOpen := false }).addTask [.leave, .finish .done]
  | .keep =>
    if 0 < e.handles then e.live.map fun g => e.addTask [.letGo g, .finish .done] else none
  | .leave => if 0 < e.handles then some (e.addTask [.leave, .finish .done]) else none
  | .answer ack answer =>
    match e.acks[ack]? with
    | some a => if a.answered then none else some (e.addTask [.answer ack answer, .finish .done])
    | none => none
  | .serve writer lines =>
    (e.files.take? writer lines).map fun (files, batch) =>
      { e with files }.addTask [.write writer batch, .rest writer, .finish .done]

/-- Goes on with a build after the host has made a transport or failed to. -/
def created? (task : TaskId) (result : Making String) : Option (Engine × List Effect) :=
  match e.agendas[task]? with
  | some (.awaitCreate d spec plan isReload :: rest) =>
    some (proceed task rest (e.made d spec plan isReload (result.map (·.map .custom))))
  | _ => none

/-- Goes on after a transport of the host has returned. A panic is told of and goes no further. -/
def returned? (task : TaskId) (panicked : Bool) : Option (Engine × List Effect) :=
  let told (line : String) : List Effect := if panicked then [.print .errors line] else []
  match e.agendas[task]? with
  | some (.awaitOut complaint :: rest) => some (e.setAgenda task rest, told complaint)
  | some (.awaitFree route :: rest) => some (e.setAgenda task rest, told (releaseComplaint route))
  | _ => none

/-- What comes of something the host does, if it can be done now. -/
def step? : Op → Option (Engine × List Effect)
  | .begin request => (e.begin? request).map (·, [])
  | .advance task => e.advance? task
  | .created task result => e.created? task result
  | .returned task panicked => e.returned? task panicked

/-- What comes of several things in a row. -/
def run? (e : Engine) : List Op → Option (Engine × List Effect)
  | [] => some (e, [])
  | op :: ops => do
    let (e, now) ← e.step? op
    let (e, later) ← e.run? ops
    pure (e, now ++ later)

end Engine

end LogDispatch
