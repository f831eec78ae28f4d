import LogDispatch.Config
import LogDispatch.Json.Printer

/-! The configuration as a JSON value, every field present and the settings of a route among its fields. -/

namespace LogDispatch

namespace Config

def optionalJson {α : Type} (write : α → Json) : Option α → Json
  | none => .null
  | some a => write a

def listJson {α : Type} (write : α → Json) (as : List α) : Json := .array (as.map write)

def dictJson {α : Type} (write : α → Json) (d : SortedDict α) : Json :=
  .object (d.entries.map fun (k, v) => (k, write v))

def langEntryJson : LangEntry → Json
  | .alias language => .string language
  | .catalog messages => dictJson .string messages

def ruleEntryJson : RuleEntry → Json
  | .pattern p => .string p
  | .levels byPattern => dictJson .string byPattern

def handlersJson : Handlers → Json
  | .one format => .string format
  | .many formats => listJson .string formats

def routeSpecJson (r : RouteSpec) : Json :=
  let text := optionalJson Json.string
  let rules := optionalJson (listJson ruleEntryJson)
  .object ([
    ("name", text r.name),
    ("transport", text r.transport),
    ("level", text r.level),
    ("policy", text r.policy),
    ("include", rules r.includes),
    ("include+", rules r.moreIncludes),
    ("exclude", rules r.excludes),
    ("exclude+", rules r.moreExcludes),
    ("format", text r.format),
    ("lang", text r.lang),
    ("events", optionalJson (dictJson handlersJson) r.events),
    ("tags", listJson .string r.tags)] ++ r.options.entries)

def toJson (c : Config) : Json :=
  let text := optionalJson Json.string
  let texts := optionalJson (listJson Json.string)
  let rules := optionalJson (listJson ruleEntryJson)
  .object [
    ("name", text c.name),
    ("levels", texts c.levels),
    ("roles", texts c.roles),
    ("policies", texts c.policies),
    ("modules", .bool c.modules),
    ("messages", optionalJson (dictJson langEntryJson) c.messages),
    ("lang", text c.lang),
    ("variables", .object c.vars.entries),
    ("formats", dictJson .string c.formats),
    ("format", text c.format),
    ("role", text c.role),
    ("level", text c.level),
    ("policy", text c.policy),
    ("include", rules c.includes),
    ("exclude", rules c.excludes),
    ("events", optionalJson (dictJson handlersJson) c.events),
    ("routes", optionalJson (listJson routeSpecJson) c.routes)]

def text (c : Config) : String := c.toJson.text

end Config

end LogDispatch
