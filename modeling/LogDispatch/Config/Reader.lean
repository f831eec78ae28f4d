import LogDispatch.Config
import LogDispatch.Json.Reader

/-! Reading a configuration. A field that the configuration does not know is skipped in the configuration
    itself and kept as a transport setting in a route. A known field may not stand twice. -/

namespace LogDispatch

namespace Config

/-- Null stands for an optional field that is not set. -/
def optional? {α : Type} (read? : Json → Option α) : Json → Option (Option α)
  | .null => some none
  | j => (read? j).map some

def list? {α : Type} (read? : Json → Option α) (j : Json) : Option (List α) :=
  j.items? >>= (·.mapM read?)

/-- An object as a dictionary. The last member of a name counts, but each must be readable. -/
def dict? {α : Type} (read? : Json → Option α) (j : Json) : Option (SortedDict α) := do
  let members ← j.members?
  let entries ← members.mapM fun (k, v) => (read? v).map (k, ·)
  some (.ofList entries)

def langEntry? : Json → Option LangEntry
  | .string s => some (.alias s)
  | j => (dict? Json.string? j).map .catalog

def ruleEntry? : Json → Option RuleEntry
  | .string s => some (.pattern s)
  | j => (dict? Json.string? j).map .levels

def handlers? : Json → Option Handlers
  | .string s => some (.one s)
  | j => (list? Json.string? j).map .many

/-- The field of a name: the default when it is absent, nothing when it stands twice. -/
def field? {α : Type} (members : List (String × Json)) (name : String) (default : α)
    (read? : Json → Option α) : Option α :=
  match members.filter (·.1 == name) with
  | [] => some default
  | [(_, j)] => read? j
  | _ => none

/-- The fields of a route; all others are settings of its transport. -/
def routeFields : List String :=
  ["name", "transport", "level", "policy", "include", "include+", "exclude", "exclude+", "format", "lang",
    "events", "tags"]

def routeSpec? (j : Json) : Option RouteSpec := do
  let ms ← j.members?
  let text := optional? Json.string?
  let rules := optional? (list? ruleEntry?)
  some {
    name := ← field? ms "name" none text
    transport := ← field? ms "transport" none text
    level := ← field? ms "level" none text
    policy := ← field? ms "policy" none text
    includes := ← field? ms "include" none rules
    moreIncludes := ← field? ms "include+" none rules
    excludes := ← field? ms "exclude" none rules
    moreExcludes := ← field? ms "exclude+" none rules
    format := ← field? ms "format" none text
    lang := ← field? ms "lang" none text
    events := ← field? ms "events" none (optional? (dict? handlers?))
    tags := ← field? ms "tags" [] (list? Json.string?)
    options := .ofList ((ms.filter fun m => !routeFields.contains m.1).map fun (k, v) => (k, v.canonical)) }

/-- The fields of a configuration, in the order in which a list gives them. -/
def fields : List String :=
  ["name", "levels", "roles", "policies", "modules", "messages", "lang", "variables", "formats", "format",
    "role", "level", "policy", "include", "exclude", "events", "routes"]

def ofMembers? (ms : List (String × Json)) : Option Config := do
  let text := optional? Json.string?
  let texts := optional? (list? Json.string?)
  let rules := optional? (list? ruleEntry?)
  some {
    name := ← field? ms "name" none text
    levels := ← field? ms "levels" none texts
    roles := ← field? ms "roles" none texts
    policies := ← field? ms "policies" none texts
    modules := ← field? ms "modules" false Json.bool?
    messages := ← field? ms "messages" none (optional? (dict? langEntry?))
    lang := ← field? ms "lang" none text
    vars := ← field? ms "variables" .empty (dict? fun j => some j.canonical)
    formats := ← field? ms "formats" .empty (dict? Json.string?)
    format := ← field? ms "format" none text
    role := ← field? ms "role" none text
    level := ← field? ms "level" none text
    policy := ← field? ms "policy" none text
    includes := ← field? ms "include" none rules
    excludes := ← field? ms "exclude" none rules
    events := ← field? ms "events" none (optional? (dict? handlers?))
    routes := ← field? ms "routes" none (optional? (list? routeSpec?)) }

/-- A configuration from an object, or from a list of its fields in order. -/
def ofJson? : Json → Option Config
  | .object members => ofMembers? members
  | .array items => if items.length ≤ fields.length then ofMembers? (fields.zip items) else none
  | _ => none

/-- The members of the top object that the configuration knows. Skipped members need a readable name only. -/
def knownMembers? : List (List Json.Piece × Json.Shape) → Option (List (List Json.Piece × Json.Shape))
  | [] => some []
  | (name, shape) :: ms => do
    let key ← Json.decodeText? name
    let rest ← knownMembers? ms
    some (if fields.contains key then (name, shape) :: rest else rest)

/-- The JSON value of a configuration text, less what the configuration skips. -/
def json? (s : String) : Option Json := do
  let shape ← Json.Shape.ofText? s
  let shape ← match shape with
    | .object members => (knownMembers? members).map .object
    | other => some other
  Json.ofShape? Json.maxDepth shape

def parse (s : String) : Except LogError Config :=
  match json? s >>= ofJson? with
  | some c => .ok c
  | none => .error .malformed

/-- The configuration in the file at `path`, whose reading gave a text or failed for a reason. -/
def ofFile (path : String) : Except String String → Except LogError Config
  | .ok text => parse text
  | .error cause => .error (.operation "loading configuration" ("cannot read " ++ path) cause)

end Config

end LogDispatch
