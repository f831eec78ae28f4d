import LogDispatch.Panic
import LogDispatch.Text.Split

/-! What can go wrong, by cause, and how it is worded. -/

namespace LogDispatch

/-- A reason to refuse a configuration. -/
inductive ConfigFault where
  | emptyLevelName
  | duplicateLevel (name : String)
  | noLevels
  | unknownLevel (name : String)
  | unknownPolicy (name : String)
  | unknownRole (name : String)
  /-- An option that needs two names has another number of them. -/
  | notAPair (option : String) (given : Nat)
  | noDefaultLanguage
  | unknownLanguage (name : String)
  | unknownFormat (name : String)
  | unknownEventFormat (name : String)
  | unknownRuleLevel (name : String)
  | badPattern (pattern reason : String)
  | noRoutes
  | noTransport (index : Nat)
  | noRouteName (index : Nat)
  | duplicateRoute (name : String)
  | unknownTransport (name : String)
  | modulesChanged
  | unknownErrorLevel (name : String)
  | noFileName
  | badMode (value : String)
  | inOption (option : String) (fault : ConfigFault)
  | inRoute (route : String) (fault : ConfigFault)
  /-- A fault that a transport or a formatter words itself. -/
  | custom (component message : String)
  deriving Inhabited

/-- The part of the configuration at fault. -/
def ConfigFault.component : ConfigFault → String
  | .emptyLevelName | .duplicateLevel _ | .noLevels => "levels"
  | .unknownLevel _ => "level"
  | .unknownPolicy _ => "policy"
  | .unknownRole _ => "role"
  | .notAPair option _ => option
  | .noDefaultLanguage => "messages"
  | .unknownLanguage _ => "lang"
  | .unknownFormat _ => "format"
  | .unknownEventFormat _ => "events"
  | .unknownRuleLevel _ | .badPattern .. => "rules"
  | .noRoutes | .noTransport _ | .noRouteName _ | .duplicateRoute _ | .unknownTransport _ => "routes"
  | .modulesChanged => "modules"
  | .unknownErrorLevel _ => "console"
  | .noFileName | .badMode _ => "file"
  | .inOption _ fault | .inRoute _ fault => fault.component
  | .custom component _ => component

/-- The words every fault of a route starts with once its route is named. -/
def routeFaultStart : String := "Could not create a route"

def ConfigFault.message : ConfigFault → String
  | .emptyLevelName => "Level name cannot be empty"
  | .duplicateLevel name => "Level '" ++ name ++ "' is duplicate"
  | .noLevels => "At least one level is required"
  | .unknownLevel name => "Unknown level name '" ++ name ++ "'"
  | .unknownPolicy name => "Unknown policy name '" ++ name ++ "'"
  | .unknownRole name => "Unknown role name '" ++ name ++ "'"
  | .notAPair option given => "Option '" ++ option ++ "' needs exactly 2 names, got " ++ toString given
  | .noDefaultLanguage => "Messages should contain 'default' language"
  | .unknownLanguage name => "Cannot find language '" ++ name ++ "'"
  | .unknownFormat name | .unknownEventFormat name => "Cannot find format '" ++ name ++ "'"
  | .unknownRuleLevel name => "Bad level name '" ++ name ++ "'"
  | .badPattern pattern reason => "Bad pattern '" ++ pattern ++ "': " ++ reason
  | .noRoutes => "Option 'routes' should be a non-empty array"
  | .noTransport index => "Cannot find transport value in route " ++ toString index
  | .noRouteName index => "Cannot find route name for #" ++ toString index
  | .duplicateRoute name => "Route '" ++ name ++ "' is duplicate"
  | .unknownTransport name => "Cannot find transport '" ++ name ++ "'"
  | .modulesChanged => "Option 'modules' cannot change once the engine is running"
  | .unknownErrorLevel name => "Unknown level name '" ++ name ++ "' in option 'stderr_level'"
  | .noFileName => "Option 'file_name' is required"
  | .badMode value => "Option 'mode' is not an octal number: " ++ value
  | .inOption option fault => "Error in option '" ++ option ++ "': " ++ fault.message
  | .inRoute route fault => routeFaultStart ++ " '" ++ route ++ "': " ++ fault.message
  | .custom _ message => message

/-- A reason to reject one call before it reaches any route. -/
inductive CallFault where
  | unknownRank (rank : Nat)
  | unknownLevel (name : String)
  | noArguments
  | custom (message : String)

def CallFault.message : CallFault → String
  | .unknownRank rank => "level #" ++ toString rank ++ " not found"
  | .unknownLevel name => "level '" ++ name ++ "' not found"
  | .noArguments => "message should be a string or a non-empty argument list"
  | .custom message => message

/-- Every error that a caller can be given. -/
inductive LogError where
  /-- The system refused an operation; `cause` is its own text. -/
  | operation (doing message cause : String)
  | system (message : String)
  /-- A configuration text is no JSON, or a value has the wrong type. -/
  | malformed
  | configuration (fault : ConfigFault)
  /-- A pattern or template of the given kind cannot be read. -/
  | compile (kind source message : String)
  | invalidCall (fault : CallFault)
  | transport (route message : String)
  /-- The route let go of its acknowledgement without an answer. -/
  | abandoned (route : String)
  | multiple (errors : List LogError)
  | channelsDisabled
  | other (message : String)

instance : Inhabited LogError := ⟨.malformed⟩

namespace LogError

mutual

def message : LogError → String
  | .operation doing message _ => "IO error while " ++ doing ++ ": " ++ message
  | .system message => "IO error: " ++ message
  | .malformed => "JSON error"
  | .configuration fault => "Invalid configuration for " ++ fault.component ++ ": " ++ fault.message
  | .compile kind source message => "Cannot compile " ++ kind ++ " '" ++ source ++ "': " ++ message
  | .invalidCall fault => "Invalid log call: " ++ fault.message
  | .transport route message => "Route '" ++ route ++ "' failed: " ++ message
  | .abandoned route => "Route '" ++ route ++ "' never acknowledged the record"
  | .multiple errors => toString errors.length ++ " routes failed: " ++ Text.join "; " (messages errors)
  | .channelsDisabled => "Channels are not enabled, log through the engine instead"
  | .other message => message

def messages : List LogError → List String
  | [] => []
  | e :: es => message e :: messages es

end

/-- The text of the cause below an error, where it has one. -/
def cause? : LogError → Option String
  | .operation _ _ cause => some cause
  | .system message => some message
  | _ => none

/-- Names the option a configuration fault stands in. -/
def inOption (option : String) : LogError → LogError
  | .configuration fault => .configuration (.inOption option fault)
  | e => e

/-- Names the route a configuration fault belongs to, unless the fault already names one. -/
def inRoute (route : String) : LogError → LogError
  | .configuration fault =>
    if fault.message.startsWith routeFaultStart then .configuration fault
    else .configuration (.inRoute route fault)
  | e => e

/-- One result for the failures of all routes of a call. -/
def collapse : List LogError → Except LogError Unit
  | [] => .ok ()
  | [e] => .error e
  | es => .error (.multiple es)

end LogError

/-- What comes of making something: code that was called may panic, the settings may be at fault. -/
abbrev Making (α : Type) : Type := Except Panic (Except LogError α)

end LogDispatch
