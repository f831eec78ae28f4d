import LogDispatch.Catalog
import LogDispatch.Process
import LogDispatch.Rule.Admission
import LogDispatch.Template

/-! Generations: everything that follows from one configuration. A generation never changes; a reload makes
    a new one. -/

namespace LogDispatch

abbrev GenerationId := Nat

abbrev TransportId := Nat

/-- A destination of records. -/
structure Route where
  name : String
  filter : RouteFilter
  format : Option String
  lang : Option String
  /-- The formats rendered for each event, in place of the global ones. -/
  events : Option (SortedDict (List String))
  tags : List String
  transport : TransportId

structure Generation where
  id : GenerationId
  name : Option String
  levels : LevelTable
  channelMode : Bool
  role : Role
  /-- The role the configuration is for, if it is for one only. -/
  requiredRole : Option Role
  filter : GlobalFilter
  formats : Dict Format
  defaultFormat : String
  lang : String
  catalog : Catalog
  events : SortedDict (List String)
  routes : List Route
  /-- The places of the routes that list a tag, in order. -/
  tags : Dict (List Nat)
  /-- The process frame. -/
  frame : Frame

namespace Generation

variable (g : Generation)

def route? (name : String) : Option Route := g.routes.find? (·.name == name)

/-- The format a route renders with: its own, else the default one. -/
def formatFor? (r : Route) : Option Format := g.formats.get? (r.format.getD g.defaultFormat)

/-- The language a route reads messages in. -/
def langFor (r : Route) : String := r.lang.getD g.lang

/-- The formats a route renders for an event. -/
def eventFormats (r : Route) (event : String) : List String :=
  ((r.events.getD g.events).get? event).getD []

/-- The places of the routes bound to a tag. -/
def tagged (tag : String) : List Nat := (g.tags.get? tag).getD []

/-- The place and level of the best of the routes from place `index` on: highest level wins, and of equal
    ones the last. Routes below the floor or above the rank do not take part. -/
def bestRoute? (floor rank : Nat) : Nat → List Route → Option (Nat × Nat)
  | _, [] => none
  | index, r :: rs =>
    let level := r.filter.baseLevel g.filter
    match bestRoute? floor rank (index + 1) rs with
    | some (i, l) => if floor ≤ level ∧ level ≤ rank ∧ l < level then some (index, level) else some (i, l)
    | none => if floor ≤ level ∧ level ≤ rank then some (index, level) else none

/-- The one route for a rank when no channels are in use. -/
def flatRoute? (rank : Nat) : Option Nat :=
  (g.bestRoute? (g.filter.floor.getD 0) rank 0 g.routes).map (·.1)

/-- The process may log at all: the configuration asks for its role or for none. -/
def admitsRole : Bool :=
  match g.requiredRole with
  | some role => role == g.role
  | none => true

/-- The text of a message key in the language of a route, or in the global one. -/
def message? (route : Option String) (key : String) : Option String :=
  let lang := match route.bind g.route? with
    | some r => g.langFor r
    | none => g.lang
  g.catalog.lookup? lang key

end Generation

/-- One attempt to give a record to a route. -/
structure Delivery where
  /-- The place of the route. -/
  route : Nat
  format : Option Format
  scope : Scope
  level : Option Nat := none
  levelName : Option String := none
  tag : Option String := none
  /-- The event that is announced, if it is one. -/
  event : Option String := none

namespace Generation

variable (g : Generation)

/-- The frames in scope of a call: those of the process, of the channel, of the caller and of the call. -/
def scopeFor (channel : Option Frame) (caller : List Frame) (call : Frame) : Scope :=
  ⟨g.frame :: (channel.toList ++ caller ++ [call])⟩

/-- The format of the route at a place. -/
def formatAt? (index : Nat) : Option Format := g.routes[index]? >>= g.formatFor?

/-- The deliveries of a log call to the routes at the given places. -/
def logDeliveries (channel : Option Frame) (caller : List Frame) (rank : Nat) (text : String)
    (routes : List Nat) : List Delivery :=
  let levelName := g.levels.name? rank
  let frame := Dict.ofList ([("level#", .int rank), ("msg", .text text)] ++
    levelName.toList.map fun name => ("level", Value.text name))
  let scope := g.scopeFor channel caller frame
  routes.map fun i =>
    { route := i, format := g.formatAt? i, scope, level := some rank, levelName }

/-- The deliveries of a call with tags, tag by tag. -/
def tagDeliveries (channel : Option Frame) (caller : List Frame) (text : String) (tags : List String) :
    List Delivery :=
  tags.flatMap fun tag =>
    let frame := Dict.ofList [("level#", .int unrankedLevel), ("tag", .text tag), ("msg", .text text)]
    let scope := g.scopeFor channel caller frame
    (g.tagged tag).map fun i => { route := i, format := g.formatAt? i, scope, tag := some tag }

/-- The deliveries that announce an event: for each route every format listed for it. -/
def eventDeliveries (caller : List Frame) (event : String) : List Delivery :=
  let frame := Dict.ofList [("event", .text event), ("level#", .int unrankedLevel)]
  let scope := g.scopeFor none caller frame
  g.routes.zipIdx.flatMap fun (r, i) =>
    (g.eventFormats r event).filterMap fun name =>
      (g.formats.get? name).map fun format => { route := i, format := some format, scope, event := some event }

end Generation

end LogDispatch
