import LogDispatch.Level
import LogDispatch.Scope

/-! The variables of the process, which every template can read. -/

namespace LogDispatch

/-- What a process sees of its surroundings, as it finds them at one moment. Clock and uptimes stand still in a run,
    where a process reads them anew at each use; nothing is said here about how two readings differ. -/
structure Surroundings where
  /-- What `date` reads. -/
  now : Timestamp
  platform : String
  arch : String
  family : String
  temporaryDirectory : String
  processId : Int
  workingDirectory : Option String
  environment : String → Option String
  /-- Seconds since the engine started, to the millisecond and to the nanosecond. -/
  uptime : Float
  preciseUptime : Float

/-- A process that has just started at the root of an empty system, in 1970. -/
def Surroundings.bare : Surroundings where
  now := ⟨0, 0, 0⟩
  platform := ""
  arch := ""
  family := ""
  temporaryDirectory := "/"
  processId := 0
  workingDirectory := some "/"
  environment _ := none
  uptime := 0.0
  preciseUptime := 0.0

structure ProcessInfo where
  role : Role
  roleNames : NamePair
  workerId : Nat
  surroundings : Surroundings

namespace ProcessInfo

def roleName (p : ProcessInfo) : String := p.role.nameIn p.roleNames

/-- The role name; a worker adds its number in three digits at least. -/
def roleIdent (p : ProcessInfo) : String :=
  match p.role with
  | .master => p.roleName
  | .worker => p.roleName ++ "#" ++ Calendar.padded 3 p.workerId

/-- A callable that looks at its surroundings and never fails. -/
def reading (identity : Nat) (f : List String → Option Value) : Value :=
  .callable identity fun args => .ok (f args)

def builtins (p : ProcessInfo) : Frame :=
  let s := p.surroundings
  Dict.ofList [
    ("date", reading 0 fun _ => some (.date s.now)),
    ("role", .text p.roleName),
    ("wid", .int (match p.role with | .master => 0 | .worker => p.workerId)),
    ("role-ident", .text p.roleIdent),
    ("os.platform", .text s.platform),
    ("os.arch", .text s.arch),
    ("os.type", .text s.family),
    ("os.tmpdir", .text s.temporaryDirectory),
    ("proc.pid", .int s.processId),
    ("proc.cwd", reading 1 fun _ => s.workingDirectory.map .text),
    ("proc.env", reading 2 fun args => args.head?.bind fun name => (s.environment name).map .text),
    ("proc.uptime", reading 3 fun _ => some (.float s.uptime)),
    ("proc.uptime-hr", reading 4 fun _ => some (.float s.preciseUptime))]

/-- The process frame: built-in variables, those of the configuration over them, under trimmed names, and
    those of `extra` over both. -/
def frame (p : ProcessInfo) (configured : SortedDict Json) (extra : Frame) : Frame :=
  let named := configured.entries.map fun (name, j) => (Text.trim name, Value.ofJson j)
  (p.builtins.insertAll named).merge extra

end ProcessInfo

end LogDispatch
