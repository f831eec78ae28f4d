import LogDispatch.Config
import LogDispatch.Json.Printer

/-! The settings of a file transport. -/

namespace LogDispatch.File

structure Options where
  /-- A template for the path. -/
  fileName : String
  /-- Permissions of a file that is created. -/
  mode : Nat
  /-- The file is kept open and shared by all routes that name it. -/
  stream : Bool
  /-- Each role writes a file of its own. -/
  separate : Bool
  /-- A separate streamed file is emptied when it is opened. -/
  resetFile : Bool
  masterSuffix : String
  workerSuffix : String
  /-- The writer holds a lock on the file around every batch. -/
  lock : Bool
  deriving DecidableEq, Repr

def defaultMode : Nat := 0o644

/-- A number in octal digits, with an optional plus sign, below `2 ^ 32`. -/
def octal? (s : String) : Option Nat :=
  let ds := match s.toList with
    | '+' :: ds => ds
    | ds => ds
  if ds.isEmpty || !ds.all (fun c => '0' ≤ c && c ≤ '7') then none
  else
    let n := ds.foldl (fun n c => 8 * n + (c.toNat - '0'.toNat)) 0
    if n < Nat.pow 2 32 then some n else none

/-- Permissions as octal digits in a text, or as a number whose decimal digits are read as octal ones. -/
def mode? : Json → Option Nat
  | .string s => octal? (Text.trim s)
  | .number n => n.toNat?.bind fun k => octal? (toString k)
  | _ => none

namespace Options

def ofSpec (spec : RouteSpec) : Except ConfigFault Options := do
  let fileName ← match spec.textOption? "file_name" with
    | some name => if Text.isAllBlank name then throw .noFileName else pure name
    | none => throw .noFileName
  let mode ← match spec.options.get? "mode" with
    | none => pure defaultMode
    | some j => match mode? j with
      | some mode => pure mode
      | none => throw (.badMode j.text)
  pure {
    fileName, mode
    stream := spec.flag "stream"
    separate := spec.flag "separate"
    resetFile := spec.flag "reset_file"
    masterSuffix := (spec.textOption? "master_ext").getD ".master"
    workerSuffix := (spec.textOption? "worker_ext").getD ".worker"
    lock := spec.flag "lock" }

/-- The file is emptied when it is opened to stay open. -/
def startsAnew (o : Options) : Bool := o.separate && o.resetFile

/-- The template of the path for a role. -/
def nameFor (o : Options) (role : Role) : String :=
  if o.separate then
    match role with
    | .master => o.fileName ++ o.masterSuffix
    | .worker => o.fileName ++ o.workerSuffix
  else o.fileName

end Options

end LogDispatch.File
