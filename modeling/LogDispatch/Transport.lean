import LogDispatch.Console
import LogDispatch.File.Store
import LogDispatch.Generation.Draft

/-! Transports: where records go. The console and files are built in, others belong to the host. -/

namespace LogDispatch

/-- A rendered message on its way to one route. -/
structure Record where
  text : String
  level : Option Nat
  levelName : Option String
  tag : Option String
  route : String
  /-- The language of the route. -/
  lang : String
  /-- The variables the text was rendered from. -/
  scope : Scope

/-- What the maker of a transport may ask about the generation that is being built. -/
structure Context where
  levels : LevelTable
  frame : Frame
  formatters : Formatters
  role : Role

namespace Context

def scope (c : Context) : Scope := ⟨[c.frame]⟩

/-- A template rendered with the process variables. -/
def render (c : Context) (source : String) : Making String :=
  match Template.compile source c.formatters with
  | .error e => .ok (.error e)
  | .ok template => (template.render c.scope).map .ok

end Context

inductive Device where
  | console (settings : Console.Settings)
  | file (outlet : File.Outlet)
  /-- A transport of the host, of the kind that the host calls it. -/
  | custom (kind : String)

def Device.kind : Device → String
  | .console _ => "console"
  | .file _ => "file"
  | .custom kind => kind

structure Transport where
  device : Device
  isFreed : Bool := false

namespace Device

def makeConsole (c : Context) (spec : RouteSpec) : Making Device :=
  .ok ((checked (Console.Settings.ofSpec c.levels spec)).map .console)

/-- The file of a route, which may be a share in one that is open. -/
def makeFile (c : Context) (store : File.Store) (table : Nat) (spec : RouteSpec) :
    Making (File.Store × Device) :=
  match checked (File.Options.ofSpec spec) with
  | .error e => .ok (.error e)
  | .ok options => match c.render (options.nameFor c.role) with
    | .error panic => .error panic
    | .ok (.error e) => .ok (.error e)
    | .ok (.ok path) =>
      (store.create table ⟨path⟩ options).map (·.map fun (store, outlet) => (store, .file outlet))

end Device

/-- The line that tells of a panic while a record was given to a route. -/
def Delivery.complaint (d : Delivery) (route : String) : String :=
  match d.event with
  | none => "[LOGGER ERROR] Route '" ++ route ++ "' panicked during delivery"
  | some event => "[LOGGER ERROR] Route panicked while handling event '" ++ event ++ "'"

/-- The line that tells of a panic while a transport was released. -/
def releaseComplaint (route : String) : String :=
  "[LOGGER ERROR] Route '" ++ route ++ "' panicked while releasing its transport"

/-- The text a route gives for a delivery. -/
def Delivery.text (d : Delivery) : Except Panic String :=
  match d.format with
  | some format => format.render d.scope
  | none => .ok ""

/-- The record of a delivery with its text. -/
def Delivery.record (d : Delivery) (g : Generation) (route : Route) (text : String) : Record where
  text := text
  level := d.level
  levelName := d.levelName
  tag := d.tag
  route := route.name
  lang := g.langFor route
  scope := d.scope

end LogDispatch
