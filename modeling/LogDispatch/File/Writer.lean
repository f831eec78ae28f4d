import LogDispatch.Completion
import LogDispatch.File.Disk

/-! Writers. A writer has a queue of lines for one file, takes them in batches, writes a batch, and answers
    for every line of it. -/

namespace LogDispatch

/-- A line to be written, and the acknowledgement it owes. -/
structure File.Job where
  text : String
  ack : AckId
  deriving DecidableEq, Repr

abbrev WriterId := Nat

namespace File

/-- Lines written at a time at most. -/
def batchLimit : Nat := 50

/-- Where the batches of a writer go. -/
inductive Sink where
  /-- A file that stays open. It is written at its end; if it was opened to be written anew, from the place
      that the writer has come to. -/
  | stream (target : Disk.Target) (position : Option Nat)
  /-- A file that is opened for every batch, and created by the first. -/
  | reopening (path : Path) (mode : Nat)

structure Writer where
  sink : Sink
  /-- The writer holds an exclusive lock on the file around every batch. -/
  lock : Bool
  queue : List Job := []
  /-- A batch has been taken and not all its lines are answered for. -/
  isServing : Bool := false
  /-- No more senders are taken; lines come only by those that were taken before. -/
  isClosed : Bool := false

/-- The bytes of a batch: every line with its end. -/
def batchBytes (batch : List Job) : List UInt8 :=
  batch.flatMap fun job => Text.encodeUtf8 job.text ++ [10]

/-- Writes a batch: all of it, or nothing. -/
def Sink.write (s : Sink) (d : Disk) (batch : List Job) : Except Disk.Fault (Disk × Sink) :=
  let bytes := batchBytes batch
  match s with
  | .stream target position => do
    let d ← d.write target position bytes
    pure (d, .stream target (position.map (· + bytes.length)))
  | .reopening path mode => do
    let (d, target) ← d.openFile path mode false
    pure (← d.write target none bytes, s)

namespace Writer

def push (w : Writer) (job : Job) : Writer := { w with queue := w.queue ++ [job] }

def close (w : Writer) : Writer := { w with isClosed := true }

/-- Takes the first `n` lines as a batch, unless another batch is under way. A batch has between one line
    and `batchLimit`. -/
def take? (w : Writer) (n : Nat) : Option (List Job × Writer) :=
  if !w.isServing && 0 < n && n ≤ min batchLimit w.queue.length then
    some (w.queue.take n, { w with queue := w.queue.drop n, isServing := true })
  else none

def rest (w : Writer) : Writer := { w with isServing := false }

end Writer

end File

end LogDispatch
