import LogDispatch.Dict
import LogDispatch.Text.Split
import LogDispatch.Text.Utf8

/-! The disk as file transports see it: one directory of files, the directories that lead to it, and some
    devices. Nothing else is known of what is there. -/

namespace LogDispatch.File

structure Path where
  text : String
  deriving DecidableEq, Repr

namespace Path

def pieces (p : Path) : List String := (Text.splitAll '/' p.text.toList).map String.ofList

/-- The names on the way, dots among them. -/
def names (p : Path) : List String := p.pieces.filter (· ≠ "")

/-- The pieces that lead somewhere: empty ones do not, nor does a dot behind the first piece. -/
def parts (p : Path) : List String :=
  match p.pieces with
  | [] => []
  | first :: rest => (if first = "" then [] else [first]) ++ rest.filter fun s => s ≠ "" ∧ s ≠ "."

def isAbsolute (p : Path) : Bool := p.text.toList.head? == some '/'

/-- The path ends with a slash, which asks for a directory. -/
def asksDirectory (p : Path) : Bool := p.text.toList.getLast? == some '/'

/-- The path has a zero character in it. -/
def hasNul (p : Path) : Bool := p.text.toList.contains (Char.ofNat 0)

/-- The spelling under which a file is shared. -/
def key (p : Path) : String := (if p.isAbsolute then "/" else "") ++ Text.join "/" p.parts

end Path

namespace Disk

/-- A reason why a file cannot be opened or written. -/
inductive Fault where
  | noSuchFile
  | notDirectory
  | isDirectory
  | noSpace
  | nameTooLong
  | nulInName
  deriving DecidableEq, Repr

def Fault.message : Fault → String
  | .noSuchFile => "No such file or directory (os error 2)"
  | .notDirectory => "Not a directory (os error 20)"
  | .isDirectory => "Is a directory (os error 21)"
  | .noSpace => "No space left on device (os error 28)"
  | .nameTooLong => "File name too long (os error 36)"
  | .nulInName => "file name contained an unexpected NUL byte"

/-- What stands in a file, and its permissions. -/
structure Entry where
  content : List UInt8
  mode : Nat
  deriving DecidableEq, Repr

def Entry.text (e : Entry) : String := Text.decodeUtf8 e.content

/-- A directory that a path can lead through. -/
inductive Place where
  /-- One on the way from the top to the directory of files, so many steps below the top. -/
  | along (depth : Nat)
  /-- The directory of devices. -/
  | devices
  /-- Where relative paths start, or above it. -/
  | elsewhere
  deriving DecidableEq, Repr

/-- The directory above; the top is above itself. -/
def Place.parent : Place → Place
  | .along depth => .along (depth - 1)
  | .devices => .along 0
  | .elsewhere => .elsewhere

/-- What can be opened to be written. -/
inductive Target where
  | file (name : String)
  /-- A device that takes everything and keeps nothing. -/
  | null
  /-- A device that takes nothing. -/
  | full
  deriving DecidableEq, Repr

/-- The directory of devices, below the top. -/
def devicesName : String := "dev"

/-- The devices of random numbers take what is written to them and keep none of it as it is. -/
def device? : String → Option Target
  | "null" | "zero" | "random" | "urandom" => some .null
  | "full" => some .full
  | _ => none

end Disk

/-- One directory without directories in it, and where it is. -/
structure Disk where
  root : Path
  /-- Permissions that a new file is never given. -/
  umask : Nat := 0o022
  files : Dict Disk.Entry := .empty

namespace Disk

def nameLimit : Nat := 255

/-- No path has as many bytes as this. -/
def pathLimit : Nat := 4096

/-- The directory of a name in a place, if it is known to be there. -/
def directory? (d : Disk) : Place → String → Option Place
  | .along depth, name =>
    if d.root.parts[depth]? = some name then some (.along (depth + 1))
    else if depth = 0 ∧ name = devicesName then some .devices
    else none
  | _, _ => none

/-- What can be opened under a name in a place. A file need not be there. -/
def target? (d : Disk) : Place → String → Option Target
  | .along depth, name => if depth = d.root.parts.length then some (.file name) else none
  | .devices, name => device? name
  | .elsewhere, _ => none

/-- Something stands under a name where a directory is looked for. -/
def isOccupied (d : Disk) (p : Place) (name : String) : Bool :=
  match d.target? p name with
  | some (.file name) => d.files.contains name
  | some _ => true
  | none => false

def enter (d : Disk) (p : Place) (name : String) : Except Fault Place :=
  if name = "." then .ok p
  else if name = ".." then .ok p.parent
  else if nameLimit < name.utf8ByteSize then .error .nameTooLong
  else match d.directory? p name with
    | some place => .ok place
    | none => .error (if d.isOccupied p name then .notDirectory else .noSuchFile)

/-- What the last name of a path means. -/
def lookUp (d : Disk) (p : Place) (name : String) : Except Fault Target :=
  if name = "." ∨ name = ".." then .error .isDirectory
  else if nameLimit < name.utf8ByteSize then .error .nameTooLong
  else match d.directory? p name, d.target? p name with
    | some _, _ => .error .isDirectory
    | none, some target => .ok target
    | none, none => .error .noSuchFile

/-- What a path leads to. All names but the last must lead through directories. -/
def find (d : Disk) (p : Path) : Except Fault Target :=
  if p.hasNul then .error .nulInName
  else if p.text = "" then .error .noSuchFile
  else if pathLimit ≤ p.text.utf8ByteSize then .error .nameTooLong
  else match p.names.getLast? with
    | none => .error .isDirectory
    | some last => do
      let place ← p.names.dropLast.foldlM d.enter (if p.isAbsolute then .along 0 else .elsewhere)
      if p.asksDirectory then throw .isDirectory
      d.lookUp place last

def grant (d : Disk) (mode : Nat) : Nat :=
  let asked := mode &&& 0o777
  asked ^^^ (asked &&& d.umask)

/-- Opens a file to write at its end, or to write it anew. It is created when it is not there. -/
def openFile (d : Disk) (p : Path) (mode : Nat) (anew : Bool) : Except Fault (Disk × Target) := do
  let target ← d.find p
  match target with
  | .file name =>
    let entry := match d.files.get? name with
      | some entry => if anew then { entry with content := [] } else entry
      | none => ⟨[], d.grant mode⟩
    pure ({ d with files := d.files.insert name entry }, target)
  | _ => pure (d, target)

/-- The content with bytes written over it from a place on. A gap before the place is filled with zeros. -/
def overwrite (content : List UInt8) (start : Nat) (bytes : List UInt8) : List UInt8 :=
  content.take start ++ List.replicate (start - content.length) 0 ++ bytes ++
    content.drop (start + bytes.length)

/-- Writes bytes to something open, from a place on or at the end. -/
def write (d : Disk) (target : Target) (start : Option Nat) (bytes : List UInt8) : Except Fault Disk :=
  match target with
  | .null => .ok d
  | .full => .error .noSpace
  | .file name => match d.files.get? name with
    | none => .ok d
    | some entry =>
      let content := overwrite entry.content (start.getD entry.content.length) bytes
      .ok { d with files := d.files.insert name { entry with content } }

end Disk

end LogDispatch.File
