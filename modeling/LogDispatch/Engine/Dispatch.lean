import LogDispatch.Engine

/-! Calls. A call takes up the live generation and sees no other one until it ends; it is rejected, or it is
    accepted and its routes are tried one after the other. -/

namespace LogDispatch.Engine

/-- The panic of a log call without a channel where channels are in use. -/
def noChannel : Panic := ⟨"Channel is required when modules are enabled"⟩

def shutDown : LogError := .other "Engine is shut down"

/-- The call is one that cannot be made at all. -/
def isForbidden (call : Call) (g : Generation) : Bool :=
  match call.subject with
  | .log .. => g.channelMode && call.channel.isNone
  | _ => false

/-- The last actions of a call. -/
def leaving (g : Generation) (outcome : Outcome) : List Action :=
  [.letGo g, .leave, .finish outcome]

variable (e : Engine)

def load (call : Call) : Option Move :=
  e.live.map fun g =>
    if isForbidden call g then { engine := e, next := leaving g (.panicked noChannel) }
    else { engine := e, next := .screen call g :: leaving g .done }

/-- The variables of the channel of a call. -/
def channelFrame (call : Call) : Option Frame :=
  call.channel.bind fun c => e.channels[c]?.map Channel.frame

/-- The deliveries of a log call to the routes at the given places. -/
def logged (call : Call) (g : Generation) (rank : Nat) (text : String) (routes : List Nat) : Action :=
  .accept g (g.logDeliveries (e.channelFrame call) call.caller rank text routes) call.callback

/-- What follows for a call that is let through, or why it is not. -/
def admission (call : Call) (g : Generation) : Except LogError Action :=
  if e.isClosed then .error shutDown
  else match call.subject with
    | .log level message => match g.levels.resolve level with
      | .error fault => .error (.invalidCall fault)
      | .ok rank => match message.render with
        | .error fault => .error (.invalidCall fault)
        | .ok text => match call.channel, g.channelMode with
          | some channel, true => .ok (.select call g channel rank text)
          | _, _ => .ok (e.logged call g rank text (g.flatRoute? rank).toList)
    | .tags tags message => match message.render with
      | .error fault => .error (.invalidCall fault)
      | .ok text =>
        .ok (.accept g (g.tagDeliveries (e.channelFrame call) call.caller text tags) call.callback)
    | .event name => .ok (.accept g (g.eventDeliveries call.caller name) call.callback)

def screen (call : Call) (g : Generation) : Move :=
  match e.admission call g with
  | .ok action => { engine := e, next := [action] }
  | .error error => { engine := e, next := [.reject error call.callback] }

/-- Chooses the routes of a channel from its table. A table of another generation is worked out afresh. -/
def select (call : Call) (g : Generation) (channel : ChannelId) (rank : Nat) (text : String) : Move :=
  match e.channels[channel]? with
  | none => { engine := e, next := [e.logged call g rank text []] }
  | some c => match c.tableFor? g with
    | some table => { engine := e, next := [e.logged call g rank text (table.select rank)] }
    | none =>
      let table := RouteLevels.compute g c.module
      { engine := e, next := [.refresh channel table, e.logged call g rank text (table.select rank)] }

def refresh (channel : ChannelId) (table : RouteLevels) : Move :=
  match e.channels[channel]? with
  | none => { engine := e }
  | some c => { engine := e.setChannel channel (c.refresh table) }

def accept (g : Generation) (deliveries : List Delivery) (callback : Option CallbackId) : Move :=
  { engine := { e with metrics := e.metrics.countAccepted }
    next := (if deliveries.isEmpty then [.countUnrouted] else []) ++ [.fan g deliveries callback] }

def countUnrouted : Move := { engine := { e with metrics := e.metrics.countUnrouted } }

/-- Starts to wait for the answers. A call without routes is told about at once. -/
def fan (g : Generation) (deliveries : List Delivery) (callback : Option CallbackId) : Move :=
  let fanOut := e.fanOuts.length
  { engine := { e with fanOuts := e.fanOuts ++ [{ pending := deliveries.length, callback }] }
    next := if deliveries.isEmpty then [.tell fanOut] else deliveries.map (.attempt g fanOut) }

/-- Gives a record to a transport. For a file a sender to its writer is taken; the line is sent by it in a step of
    its own, before which the transport may be released. -/
def deliver (task : TaskId) (transport : TransportId) (record : Record) (ack : AckId) (complaint : String) :
    Move :=
  let out : Effect := .out task transport record ack
  match e.device? transport with
  | none => { engine := e, effects := [out] }
  | some (.console settings) =>
    { engine := e
      next := [.answer ack .written]
      effects := [out, .print (settings.streamOf record.level)
        (settings.line e.setup.terminal record.level record.text)] }
  | some (.file outlet) => match outlet.sender? with
    | some writer => { engine := e, next := [.send writer ⟨record.text, ack⟩], effects := [out] }
    | none =>
      { engine := e
        next := [.answer ack (.failed (.transport record.route "file transport was released"))]
        effects := [out] }
  | some (.custom _) => { engine := e, next := [.awaitOut complaint], effects := [out] }

/-- Tries a route: its format is rendered and its transport is given the record. When rendering panics the
    acknowledgement is dropped. -/
def attempt (task : TaskId) (g : Generation) (fanOut : FanOutId) (d : Delivery) : Move :=
  match g.routes[d.route]? with
  | none => { engine := e }
  | some route =>
    let ack := e.acks.length
    let e := { e with acks := e.acks ++ [⟨route.name, fanOut, false⟩] }
    let complaint := d.complaint route.name
    match d.text with
    | .error _ => { engine := e, next := [.answer ack .dropped, .complain complaint] }
    | .ok text => e.deliver task route.transport (d.record g route text) ack complaint

def reject (error : LogError) (callback : Option CallbackId) : Move :=
  { engine := { e with metrics := e.metrics.countRejected }
    effects := callback.toList.map fun c => .complete ⟨c, .error error⟩ }

end LogDispatch.Engine
