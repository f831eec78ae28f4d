import LogDispatch.Error
import LogDispatch.Json
import LogDispatch.Rule.Admission

/-! The configuration of an engine as plain data. Whether it makes sense is checked when an engine is built
    from it. -/

namespace LogDispatch

/-- A language owns a catalog of messages or follows another language. -/
inductive LangEntry where
  | alias (language : String)
  | catalog (messages : SortedDict String)

/-- An include or exclude entry: a pattern for every level, or patterns with the level each applies from. -/
inductive RuleEntry where
  | pattern (pattern : String)
  | levels (byPattern : SortedDict String)

/-- A pattern from a level on, or for every level. -/
def RuleEntry.ofLevel (pattern : String) : Option String → RuleEntry
  | none => .pattern pattern
  | some level => .levels (SortedDict.empty.insert pattern level)

/-- The formats listed for an event: a single name or a list of names. -/
inductive Handlers where
  | one (format : String)
  | many (formats : List String)

def Handlers.toList : Handlers → List String
  | .one format => [format]
  | .many formats => formats

/-- One route. `options` holds the settings of its transport. -/
structure RouteSpec where
  name : Option String := none
  transport : Option String := none
  level : Option String := none
  policy : Option String := none
  includes : Option (List RuleEntry) := none
  moreIncludes : Option (List RuleEntry) := none
  excludes : Option (List RuleEntry) := none
  moreExcludes : Option (List RuleEntry) := none
  format : Option String := none
  lang : Option String := none
  events : Option (SortedDict Handlers) := none
  tags : List String := []
  options : SortedDict Json := .empty

/-- The name of a route that is alone and has none. -/
def defaultRouteName : String := "default-route"

namespace RouteSpec

def title (r : RouteSpec) : String := r.name.getD defaultRouteName

def kind (r : RouteSpec) : String := r.transport.getD ""

/-- A transport setting that is a text. -/
def textOption? (r : RouteSpec) (key : String) : Option String :=
  (r.options.get? key).bind Json.string?

/-- A transport setting as yes or no: the texts `yes`, `true` and `1` mean yes, every number but zero does. -/
def flagOption? (r : RouteSpec) (key : String) : Option Bool :=
  match r.options.get? key with
  | some (.bool b) => some b
  | some (.string s) => some (["yes", "true", "1"].contains (Text.trim s))
  | some (.number n) => some (n.toInt? != some 0)
  | _ => none

/-- A yes-or-no setting that is off unless it is switched on. -/
def flag (r : RouteSpec) (key : String) : Bool := (r.flagOption? key).getD false

/-- A route with a name and a transport, and nothing else set. -/
def ofTransport (name transport : String) : RouteSpec := { name := some name, transport := some transport }

def withLevel (r : RouteSpec) (level : String) : RouteSpec := { r with level := some level }

def withFormat (r : RouteSpec) (format : String) : RouteSpec := { r with format := some format }

/-- One more tag, also when the route has it already. -/
def withTag (r : RouteSpec) (tag : String) : RouteSpec := { r with tags := r.tags ++ [tag] }

def withOption (r : RouteSpec) (key : String) (value : Json) : RouteSpec :=
  { r with options := r.options.insert key value.canonical }

/-- One more entry in the include list of the route. -/
def withInclude (r : RouteSpec) (entry : RuleEntry) : RouteSpec :=
  { r with includes := some (r.includes.getD [] ++ [entry]) }

end RouteSpec

structure Config where
  name : Option String := none
  levels : Option (List String) := none
  roles : Option (List String) := none
  policies : Option (List String) := none
  /-- Calls go through channels. -/
  modules : Bool := false
  messages : Option (SortedDict LangEntry) := none
  lang : Option String := none
  vars : SortedDict Json := .empty
  formats : SortedDict String := .empty
  format : Option String := none
  role : Option String := none
  level : Option String := none
  policy : Option String := none
  includes : Option (List RuleEntry) := none
  excludes : Option (List RuleEntry) := none
  events : Option (SortedDict Handlers) := none
  routes : Option (List RouteSpec) := none

namespace Config

/-- The route in effect when the configuration lists none. -/
def defaultRoute : RouteSpec :=
  { name := some defaultRouteName, transport := some "console", level := some "info" }

/-- Every route has a transport and, unless it is alone, a name. -/
def titled (alone : Bool) : Nat → List RouteSpec → Except ConfigFault (List RouteSpec)
  | _, [] => .ok []
  | index, r :: rs => do
    if r.kind = "" then throw (.noTransport index)
    let r ← match r.name with
      | some _ => pure r
      | none => if alone then pure { r with name := some defaultRouteName } else throw (.noRouteName index)
    let rs ← titled alone (index + 1) rs
    pure (r :: rs)

/-- The first route whose name an earlier one has. -/
def repeated? (seen : List (Option String)) : List RouteSpec → Option RouteSpec
  | [] => none
  | r :: rs => if r.name ∈ seen then some r else repeated? (r.name :: seen) rs

/-- The routes in effect, each with a transport and a name of its own. -/
def routesInEffect (c : Config) : Except ConfigFault (List RouteSpec) :=
  match c.routes with
  | none => titled true 0 [defaultRoute]
  | some [] => .error .noRoutes
  | some rs => do
    let rs ← titled (rs.length == 1) 0 rs
    match repeated? [] rs with
    | some r => .error (.duplicateRoute r.title)
    | none => .ok rs

end Config

/-- The rules of one entry, in byte order of the patterns. -/
def RuleEntry.rules (table : LevelTable) : RuleEntry → Except ConfigFault RuleSet
  | .pattern p => ([·]) <$> Rule.ofPattern (Text.trim p) .always
  | .levels byPattern => byPattern.entries.mapM fun (p, level) =>
    match table.rank? level with
    | some rank => Rule.ofPattern (Text.trim p) (.rank rank)
    | none => .error (.unknownRuleLevel level)

/-- The rules of a list that stands in option `option`, if the option is given. -/
def RuleEntry.rulesOf (table : LevelTable) (option : String) :
    Option (List RuleEntry) → Except ConfigFault (Option RuleSet)
  | none => .ok none
  | some entries => match entries.mapM (RuleEntry.rules table) with
    | .ok rules => .ok (some rules.flatten)
    | .error fault => .error (.inOption option fault)

/-- The formats listed for each event, events without formats left out; each format must be known. -/
def eventFormats (known : String → Bool) (events : SortedDict Handlers) :
    Except ConfigFault (SortedDict (List String)) := do
  let lists ← events.entries.filterMapM fun (event, handlers) =>
    match handlers.toList.find? (!known ·) with
    | some format => .error (.unknownEventFormat format)
    | none => .ok (if handlers.toList.isEmpty then none else some (event, handlers.toList))
  pure (.ofList lists)

end LogDispatch
