import LogDispatch.Generation
import LogDispatch.Formatter.Caching

/-! Building a generation: the configuration is checked as a whole, then route after route gets its
    transport. -/

namespace LogDispatch

/-- How a transport of some name is made. -/
inductive Factory where
  | console
  /-- Files; the streamed ones are shared through the table of handles of this number. -/
  | file (table : Nat)
  /-- The host makes the transport. -/
  | custom
  deriving DecidableEq, Repr

/-- The transports every engine has, by the names that routes give them. -/
def Factory.builtins : Dict Factory := Dict.ofList [("console", .console), ("file", .file 0)]

/-- What an engine is given besides its configuration. -/
structure Setup where
  transports : Dict Factory
  formatters : Formatters
  /-- Formats made by functions. -/
  formats : Dict Format
  vars : Frame
  role : Role
  /-- Zero in the master. -/
  workerId : Nat
  surroundings : Surroundings
  /-- Calls go through channels. -/
  modules : Bool
  /-- The console shows colours. -/
  terminal : Bool

/-- The format announced at the start when it is defined and no events are configured. -/
def startFormat : String := "start-message"

/-- A generation without the routes that are still to be made. -/
structure Draft where
  generation : Generation
  policies : NamePair
  todo : List RouteSpec

def checked {α : Type} : Except ConfigFault α → Except LogError α
  | .ok a => .ok a
  | .error fault => .error (.configuration fault)

/-- A check that an option is put to only when it is given. -/
def whenGiven {α β : Type} (check : α → Except ConfigFault β) : Option α → Except ConfigFault (Option β)
  | none => .ok none
  | some a => (check a).map some

namespace Draft

/-- The named formats: the built-in ones, those of the configuration over them, under trimmed names, and
    those of the setup over both. -/
def formats (setup : Setup) (config : Config) : Except LogError (Dict Format) := do
  let text ← Template.compile Format.textSource setup.formatters
  let configured ← config.formats.entries.mapM fun (name, source) => do
    pure (Text.trim name, Format.template (← Template.compile source setup.formatters))
  let builtin : Dict Format := Dict.ofList [(Format.defaultName, .template text), ("json", Format.json)]
  pure ((builtin.insertAll configured).merge setup.formats)

/-- The global filter. Policy and rules concern channels only. -/
def globalFilter (setup : Setup) (config : Config) (levels : LevelTable) (policies : NamePair)
    (floor : Option Nat) : Except ConfigFault GlobalFilter := do
  if setup.modules then
    let policy ← whenGiven (Policy.ofName policies) config.policy
    let includes ← RuleEntry.rulesOf levels "include" config.includes
    let excludes ← RuleEntry.rulesOf levels "exclude" config.excludes
    pure ⟨floor, policy.getD .everything, includes.getD [], excludes.getD []⟩
  else pure { floor }

/-- The global events: those configured, else the start message when its format exists. -/
def globalEvents (config : Config) (known : String → Bool) :
    Except ConfigFault (SortedDict (List String)) :=
  match config.events with
  | some events => eventFormats known events
  | none => .ok (if known startFormat then SortedDict.empty.insert "start" [startFormat] else .empty)

def requireFormat (known : String → Bool) (name : String) : Except ConfigFault String :=
  if known name then .ok name else .error (.unknownFormat name)

/-- The draft of a configuration, with all routes to be made. -/
def ofConfig (setup : Setup) (id : GenerationId) (config : Config) : Except LogError Draft := do
  let levels ← checked (match config.levels with
    | some names => LevelTable.ofNames? names
    | none => .ok default)
  let roles ← checked (NamePair.ofOption "roles" .roles config.roles)
  let policies ← checked (NamePair.ofOption "policies" .policies config.policies)
  let catalog ← checked (Catalog.ofMessages config.messages)
  let info : ProcessInfo := ⟨setup.role, roles, setup.workerId, setup.surroundings⟩
  let requiredRole ← checked (whenGiven (Role.requirement roles) config.role)
  let floor ← checked (whenGiven levels.configRank config.level)
  let lang ← checked (catalog.require (config.lang.getD ""))
  let formats ← formats setup config
  let defaultFormat ← checked (requireFormat formats.contains (config.format.getD Format.defaultName))
  let filter ← checked (globalFilter setup config levels policies floor)
  let events ← checked (globalEvents config formats.contains)
  let todo ← checked config.routesInEffect
  pure {
    generation := {
      id, name := config.name, levels, channelMode := setup.modules, role := setup.role
      requiredRole := requiredRole.join
      filter, formats, defaultFormat, lang, catalog, events
      routes := [], tags := .empty
      frame := info.frame config.vars setup.vars }
    policies, todo }

/-- The parts of a route that need no transport. -/
structure RoutePlan where
  filter : RouteFilter
  format : Option String
  lang : Option String
  events : Option (SortedDict (List String))

def plan (d : Draft) (spec : RouteSpec) : Except ConfigFault RoutePlan := do
  let g := d.generation
  let level ← whenGiven g.levels.configRank spec.level
  let policy ← whenGiven (Policy.ofName d.policies) spec.policy
  let includes ← RuleEntry.rulesOf g.levels "include" spec.includes
  let moreIncludes ← RuleEntry.rulesOf g.levels "include+" spec.moreIncludes
  let excludes ← RuleEntry.rulesOf g.levels "exclude" spec.excludes
  let moreExcludes ← RuleEntry.rulesOf g.levels "exclude+" spec.moreExcludes
  let format ← whenGiven (requireFormat g.formats.contains) spec.format
  let lang ← whenGiven g.catalog.require spec.lang
  let events ← whenGiven (eventFormats g.formats.contains) spec.events
  pure ⟨⟨level, policy, includes, moreIncludes.getD [], excludes, moreExcludes.getD []⟩, format, lang, events⟩

def addPlace (index : Nat) (tags : Dict (List Nat)) (tag : String) : Dict (List Nat) :=
  tags.insert tag ((tags.get? tag).getD [] ++ [index])

/-- The draft with one more route, whose transport has been made. -/
def attach (d : Draft) (spec : RouteSpec) (p : RoutePlan) (transport : TransportId) : Draft :=
  let g := d.generation
  let route : Route := ⟨spec.title, p.filter, p.format, p.lang, p.events, spec.tags, transport⟩
  { d with generation := { g with
      routes := g.routes ++ [route]
      tags := spec.tags.foldl (addPlace g.routes.length) g.tags } }

end Draft

end LogDispatch
