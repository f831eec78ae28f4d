import LogDispatch.File.Options
import LogDispatch.File.Writer
import LogDispatch.Text.Quoted

/-! The files of an engine: the disk, the writers, and the tables in which streamed files are shared. The
    first transport that streams to a path opens the file, the last one that is released closes it. -/

namespace LogDispatch.File

/-- A streamed file: its writer, and how many transports share it. -/
structure Shared where
  writer : WriterId
  listeners : Nat
  deriving DecidableEq, Repr

/-- The streamed files of one table, by the key of their paths. -/
abbrev Handles := Dict Shared

/-- A streamed file that a transport shares: the table and the key. -/
structure Share where
  table : Nat
  key : String
  deriving DecidableEq, Repr

/-- A file transport. It shares a streamed file, or has a writer of its own. -/
structure Outlet where
  writer : WriterId
  share : Option Share
  isReleased : Bool := false
  deriving DecidableEq, Repr

/-- The writer that a transport takes a sender to. There is none after its release. -/
def Outlet.sender? (o : Outlet) : Option WriterId := if o.isReleased then none else some o.writer

structure Store where
  disk : Disk
  writers : List Writer := []
  tables : Nat → Handles := fun _ => .empty

namespace Store

def setWriter (s : Store) (w : WriterId) (writer : Writer) : Store :=
  { s with writers := s.writers.set w writer }

def setTable (s : Store) (table : Nat) (handles : Handles) : Store :=
  { s with tables := fun n => if n = table then handles else s.tables n }

def addWriter (s : Store) (sink : Sink) (lock : Bool) : Store × WriterId :=
  ({ s with writers := s.writers ++ [{ sink, lock }] }, s.writers.length)

/-- How many files a table holds open. -/
def openCount (s : Store) (table : Nat) : Nat := (s.tables table).size

def listeners (s : Store) (table : Nat) (path : Path) : Nat :=
  match (s.tables table).get? path.key with
  | some shared => shared.listeners
  | none => 0

/-- The error of a streamed file that cannot be opened. -/
def cannotOpen (path : Path) (fault : Disk.Fault) : LogError :=
  .operation "opening log file" ("cannot open " ++ path.text) fault.message

/-- A share in a streamed file. The options of the one who opens it decide how it is opened and locked. -/
def acquire (s : Store) (table : Nat) (path : Path) (o : Options) : Except LogError (Store × Outlet) :=
  let share : Share := ⟨table, path.key⟩
  match (s.tables table).get? path.key with
  | some shared =>
    let shared := { shared with listeners := shared.listeners + 1 }
    .ok (s.setTable table ((s.tables table).insert path.key shared), ⟨shared.writer, some share, false⟩)
  | none => match s.disk.openFile path o.mode o.startsAnew with
    | .error fault => .error (cannotOpen path fault)
    | .ok (disk, target) =>
      let position := if o.startsAnew then some 0 else none
      let (s, w) := { s with disk }.addWriter (.stream target position) o.lock
      .ok (s.setTable table ((s.tables table).insert path.key ⟨w, 1⟩), ⟨w, some share, false⟩)

/-- The panic of a writer of its own for a path with a zero character: the thread of a writer is named for
    its path, and a name cannot hold one. -/
def unnameable (path : Path) : Panic :=
  let name := Text.encodeUtf8 ("route-file:" ++ path.text)
  ⟨"thread name may not contain interior null bytes: NulError(" ++ toString (name.takeWhile (· != 0)).length ++
    ", " ++ Text.bracketed (name.map fun b => toString b.toNat) ++ ")"⟩

def create (s : Store) (table : Nat) (path : Path) (o : Options) : Making (Store × Outlet) :=
  if o.stream then .ok (s.acquire table path o)
  else if path.hasNul then .error (unnameable path)
  else
    let (s, w) := s.addWriter (.reopening path o.mode) o.lock
    .ok (.ok (s, ⟨w, none, false⟩))

/-- A line for a writer. Whoever has a sender finds the writer at work, even after its file has been let go of. -/
def send (s : Store) (w : WriterId) (job : Job) : Store :=
  match s.writers[w]? with
  | some writer => s.setWriter w (writer.push job)
  | none => s

def closeWriter (s : Store) (w : WriterId) : Store :=
  match s.writers[w]? with
  | some writer => s.setWriter w writer.close
  | none => s

/-- Lets go of the file of a transport; the writer is named if it is closed by that. -/
def release (s : Store) (outlet : Outlet) : Store × Option WriterId :=
  match outlet.share with
  | none => (s.closeWriter outlet.writer, some outlet.writer)
  | some share =>
    let handles := s.tables share.table
    match handles.get? share.key with
    | none => (s, none)
    | some shared =>
      if 1 < shared.listeners then
        let shared := { shared with listeners := shared.listeners - 1 }
        (s.setTable share.table (handles.insert share.key shared), none)
      else ((s.setTable share.table (handles.erase share.key)).closeWriter shared.writer, some shared.writer)

/-- Takes a batch of `n` lines from a writer. -/
def take? (s : Store) (w : WriterId) (n : Nat) : Option (Store × List Job) := do
  let writer ← s.writers[w]?
  let (batch, writer) ← writer.take? n
  some (s.setWriter w writer, batch)

def write (s : Store) (w : WriterId) (batch : List Job) : Store × Except Disk.Fault Unit :=
  match s.writers[w]? with
  | none => (s, .ok ())
  | some writer => match writer.sink.write s.disk batch with
    | .ok (disk, sink) => ({ s with disk }.setWriter w { writer with sink }, .ok ())
    | .error fault => (s, .error fault)

/-- The batch of a writer has been answered for. -/
def rest (s : Store) (w : WriterId) : Store :=
  match s.writers[w]? with
  | some writer => s.setWriter w writer.rest
  | none => s

/-- The size of the largest batch that can be taken from a writer now. -/
def ready (s : Store) (w : WriterId) : Nat :=
  match s.writers[w]? with
  | some writer => if writer.isServing then 0 else min batchLimit writer.queue.length
  | none => 0

end Store

/-- The answer for a line of a batch that was written or not. -/
def answerFor (route : String) : Except Disk.Fault Unit → Answer
  | .ok () => .written
  | .error fault => .failed (.transport route fault.message)

end LogDispatch.File
