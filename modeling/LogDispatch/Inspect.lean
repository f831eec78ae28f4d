import LogDispatch.Engine
import LogDispatch.Text.Quoted

/-! Texts for inspection: what templates, filters, generations and engines show of themselves to whoever
    debugs a program. -/

namespace LogDispatch

namespace Inspect

/-- A record with the texts of its fields. -/
def withFields (name : String) (fields : List (String × String)) : String :=
  name ++ " \x7b " ++ Text.join ", " (fields.map fun (field, text) => field ++ ": " ++ text) ++ " \x7d"

/-- A constructor with one argument. -/
def tagged (name text : String) : String := name ++ "(" ++ text ++ ")"

def option {α : Type} (inspect : α → String) : Option α → String
  | none => "None"
  | some a => tagged "Some" (inspect a)

def texts (ss : List String) : String := Text.bracketed (ss.map Text.quoted)

/-- The names of a table in byte order. -/
def names (type : String) (names : List String) : String :=
  withFields type [("names", texts ((SortedDict.ofList (names.map (·, ()))).entries.map (·.1)))]

end Inspect

open Inspect

def Args.inspect (args : Args) : String :=
  withFields "ArgMap" [("entries", Text.bracketed (args.entries.map fun (key, value) =>
    "(" ++ Text.quoted key ++ ", " ++ Text.quoted value ++ ")"))]

def Stage.inspect (s : Stage) : String :=
  withFields "Stage" [("name", Text.quoted s.name), ("args", Args.inspect s.args),
    ("known", toString s.formatter.isSome)]

def Segment.inspect : Segment → String
  | .literal s => tagged "Literal" (Text.quoted s)
  | .reference r => tagged "Variable" (withFields "VariableChunk" [
      ("name", Text.quoted r.name), ("call_args", texts r.callArgs),
      ("stages", Text.bracketed (r.stages.map Stage.inspect))])

def Template.inspect (t : Template) : String :=
  withFields "Template" [("source", Text.quoted t.source),
    ("segments", Text.bracketed (t.segments.map Segment.inspect))]

def Format.inspect : Format → String
  | .template t => tagged "Template" (Text.quoted t.source)
  | .function _ => "Function"

def Formatters.inspect (fs : Formatters) : String := names "Formatters" fs.keys

/-- The factories of an engine by name. -/
def Setup.inspectTransports (transports : Dict Factory) : String := names "TransportRegistry" transports.keys

def LevelTable.inspect (t : LevelTable) : String := withFields "LevelTable" [("names", texts t.names)]

def Role.inspect : Role → String
  | .master => "Master"
  | .worker => "Worker"

def Policy.inspect : Policy → String
  | .everything => "Everything"
  | .nothing => "Nothing"

def Threshold.inspect : Threshold → String
  | .always => "Always"
  | .rank n => tagged "Rank" (toString n)

namespace Glob

/-- Characters that a regular expression has a use for. -/
def metaChars : List Char := "\\.+*?()|[]\x7b\x7d^$#&-~".toList

def Token.expression : Token → List Char
  | .run => ['.', '*']
  | .one => ['.']
  | .char c => if metaChars.contains c then ['\\', c] else [c]

def expression (pattern : String) : String :=
  String.ofList (['^'] ++ (tokens pattern).flatMap Token.expression ++ ['$'])

end Glob

def Rule.inspectMatcher (r : Rule) : String :=
  if Glob.isWild r.pattern then tagged "Wildcard" (tagged "Regex" (Text.quoted (Glob.expression r.pattern)))
  else tagged "Exact" (Text.quoted r.pattern)

def Rule.inspect (r : Rule) : String :=
  withFields "Rule" [("pattern", Text.quoted r.pattern), ("matcher", r.inspectMatcher),
    ("threshold", r.threshold.inspect)]

def RuleSet.inspect (rules : RuleSet) : String :=
  withFields "RuleSet" [("rules", Text.bracketed (rules.map Rule.inspect))]

def RouteFilter.inspect (f : RouteFilter) : String :=
  withFields "RouteFilter" [
    ("level", option toString f.level),
    ("policy", option Policy.inspect f.policy),
    ("include", option RuleSet.inspect f.includes),
    ("include_extra", RuleSet.inspect f.moreIncludes),
    ("exclude", option RuleSet.inspect f.excludes),
    ("exclude_extra", RuleSet.inspect f.moreExcludes)]

/-- A route, whose transport is of the kind `kind`. -/
def Route.inspect (r : Route) (kind : String) : String :=
  withFields "Route" [
    ("name", Text.quoted r.name), ("transport", Text.quoted kind), ("filter", r.filter.inspect),
    ("format", option Text.quoted r.format), ("tags", texts r.tags)]

def Context.inspect (c : Context) : String :=
  withFields "TransportContext" [("levels", c.levels.inspect), ("role", c.role.inspect)]

/-- The options of a call: how many frames the caller adds, and whether someone waits for the call. -/
def Call.inspectOptions (c : Call) : String :=
  withFields "LogOptions" [("vars", toString c.caller.length), ("callback", toString c.callback.isSome)]

def Channel.inspect (c : Channel) : String :=
  withFields "Channel" [("module", Text.quoted c.module), ("shown_as", Text.quoted c.shownAs)]

namespace Engine

def kindOf (e : Engine) (t : TransportId) : String := ((e.device? t).map Device.kind).getD ""

def inspectGeneration (e : Engine) (g : Generation) : String :=
  withFields "Generation" [
    ("id", toString g.id), ("levels", g.levels.inspect), ("channel_mode", toString g.channelMode),
    ("routes", Text.bracketed (g.routes.map fun r => r.inspect (e.kindOf r.transport)))]

def inspect (e : Engine) : String :=
  withFields "Engine" [
    ("generation", (e.live.map e.inspectGeneration).getD "None"),
    ("modules", toString e.setup.modules), ("role", e.setup.role.inspect)]

end Engine

end LogDispatch
