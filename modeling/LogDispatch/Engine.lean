import LogDispatch.Channel
import LogDispatch.Message
import LogDispatch.Metrics
import LogDispatch.Transport

/-! Engines. An engine works on tasks: calls, reloads, answers of routes, batches of files. The agenda of a
    task holds the actions still to be done; each is one step, and steps of different tasks may come in any
    order. What a step asks of the host or shows to it is an effect. -/

namespace LogDispatch

abbrev TaskId := Nat

abbrev ChannelId := Nat

/-- What a call is about. -/
inductive Subject where
  | log (level : Level) (message : Message)
  | tags (tags : List String) (message : Message)
  | event (name : String)

/-- A call, through a channel or not, with the variables of the caller. -/
structure Call where
  subject : Subject
  channel : Option ChannelId := none
  caller : List Frame := []
  callback : Option CallbackId := none

/-- What the host can ask an engine to do. -/
inductive Request where
  | call (call : Call)
  | reload (config : Config)
  | shutdown
  | openChannel (module : String) (shownAs : Option String)
  | closeChannel (channel : ChannelId)
  /-- Keeps the live generation for itself, until the task goes on. -/
  | keep
  /-- Gives up one handle on the engine. -/
  | leave
  | answer (ack : AckId) (answer : Answer)
  /-- Takes and writes a batch of a file. -/
  | serve (writer : WriterId) (lines : Nat)

/-- How a task ended. -/
inductive Outcome where
  | done
  | channel (id : ChannelId)
  | failed (error : LogError)
  | panicked (panic : Panic)

inductive Action where
  /-- Takes up the live generation for a call. -/
  | load (call : Call)
  | screen (call : Call) (g : Generation)
  /-- Looks up the routes of a channel. -/
  | select (call : Call) (g : Generation) (channel : ChannelId) (rank : Nat) (text : String)
  | refresh (channel : ChannelId) (table : RouteLevels)
  | accept (g : Generation) (deliveries : List Delivery) (callback : Option CallbackId)
  | countUnrouted
  | fan (g : Generation) (deliveries : List Delivery) (callback : Option CallbackId)
  /-- Gives a record to a route. -/
  | attempt (g : Generation) (fanOut : FanOutId) (delivery : Delivery)
  /-- Waits for a transport of the host to take a record. -/
  | awaitOut (complaint : String)
  /-- Sends a line to a writer, by a sender that was taken for it. -/
  | send (writer : WriterId) (job : File.Job)
  | reject (error : LogError) (callback : Option CallbackId)
  | answer (ack : AckId) (answer : Answer)
  | count (fanOut : FanOutId) (result : Except LogError Unit)
  | record (fanOut : FanOutId) (error : LogError)
  | arrive (fanOut : FanOutId)
  /-- Tells the callback. -/
  | tell (fanOut : FanOutId)
  /-- Stops using a generation. -/
  | letGo (g : Generation)
  /-- Gives up a handle on the engine. -/
  | leave
  | free (route : String) (transport : TransportId)
  /-- Waits for a transport of the host to be released. -/
  | awaitFree (route : String)
  | lockReload
  | unlockReload
  | checkReload (config : Config)
  | build (config : Config) (isReload : Bool)
  /-- Makes the next route of a draft. -/
  | make (draft : Draft) (isReload : Bool)
  /-- Waits for the host to make a transport. -/
  | awaitCreate (draft : Draft) (spec : RouteSpec) (plan : Draft.RoutePlan) (isReload : Bool)
  | install (g : Generation)
  | recalcAll (g : Generation)
  | recalc (g : Generation) (channel : ChannelId)
  | unlockChannels
  | countReload
  | close
  | register (module : String) (shownAs : Option String)
  | enlist (channel : ChannelId)
  | write (writer : WriterId) (batch : List File.Job)
  | rest (writer : WriterId)
  | complain (line : String)
  | finish (outcome : Outcome)

/-- What a step asks of the host or shows to it. -/
inductive Effect where
  /-- A transport of the host is to be made; the route had another one before. -/
  | create (task : TaskId) (spec : RouteSpec) (context : Context) (previous : Option TransportId)
  /-- A transport is given a record, to be answered for with the acknowledgement. -/
  | out (task : TaskId) (transport : TransportId) (record : Record) (ack : AckId)
  | free (task : TaskId) (transport : TransportId)
  | complete (completion : Completion)
  | print (stream : Stream) (line : String)
  /-- A writer has been closed; what is left in its queue is still to be served. -/
  | closing (writer : WriterId)
  | ended (task : TaskId) (outcome : Outcome)

structure Engine where
  setup : Setup
  files : File.Store
  /-- The number the next generation gets, whether its building succeeds or not. -/
  nextId : GenerationId := 1
  /-- The generation that calls take up; none before the first is built and after the last handle is gone. -/
  live : Option Generation := none
  /-- Generations whose transports have been released. -/
  released : List GenerationId := []
  /-- Handles of the host on the engine. Open channels and running calls have one each. -/
  handles : Nat := 1
  /-- The engine has been shut down. -/
  isClosed : Bool := false
  metrics : Metrics := {}
  channels : List Channel := []
  transports : List Transport := []
  fanOuts : List FanOut := []
  acks : List Ack := []
  reloadLocked : Bool := false
  channelsLocked : Bool := false
  /-- The agenda of each task. -/
  agendas : List (List Action) := []

/-- The outcome of an action: the state, the actions that come next, and the effects. -/
structure Move where
  engine : Engine
  next : List Action := []
  effects : List Effect := []

namespace Engine

/-- An engine about to build its first generation, as task 0. No reload can come in between. -/
def start (setup : Setup) (files : File.Store) (config : Config) : Engine :=
  { setup, files, reloadLocked := true, agendas := [[.build config false]] }

variable (e : Engine)

def transport? (t : TransportId) : Option Transport := e.transports[t]?

def device? (t : TransportId) : Option Device := (e.transport? t).map Transport.device

/-- The transport a route of the live generation has. -/
def liveTransport? (route : String) : Option TransportId :=
  e.live.bind fun g => (g.route? route).map (·.transport)

/-- The text of a message key in the language of a route, or in the global one. -/
def translate (route : Option String) (key : String) : Option String :=
  e.live.bind fun g => g.message? route key

/-- The table of a channel for a generation. -/
def tableFor (c : Channel) (g : Generation) : RouteLevels :=
  (c.tableFor? g).getD (.compute g c.module)

/-- The lowest levels at which the routes deliver for a channel. -/
def routeLevels (channel : ChannelId) : SortedDict String :=
  match e.live, e.channels[channel]? with
  | some g, some c => (tableFor c g).names g
  | _, _ => .empty

def setChannel (channel : ChannelId) (c : Channel) : Engine :=
  { e with channels := e.channels.set channel c }

def setFanOut (fanOut : FanOutId) (f : FanOut) : Engine :=
  { e with fanOuts := e.fanOuts.set fanOut f }

def resetMetrics : Engine := { e with metrics := {} }

def borrow : Engine := { e with handles := e.handles + 1 }

end Engine

end LogDispatch
