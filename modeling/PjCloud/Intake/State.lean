import Mathlib.Logic.Function.Basic
import PjCloud.Intake.Translate

/-!
# The daemon's threads

The state that the SQS producer (`s3_event_producer`), the worker (`worker_loop`) and the audit coordinator
(`AuditCoordinator._run`) share, and where each of them is. A `Pc` is the point before the next atomic
section: an operation on a queue, a section under a lock, or a test of the stop event.

`SqsBatch`, `EventRecord`, `AuditItem` and `IntakeGate` are the source's. A batch, an audit item and a message
have the number of their creation or arrival, since the source compares them by identity. The fields after
`stop` in `State` are history.
-/

namespace PjCloud.Intake

/-- A message as `receive_message` returns it. -/
structure Msg where
  body : Option String
  receiptHandle : Option String
  deriving DecidableEq, Repr

/-- One event to handle, with the batch of its message. -/
structure EventRecord where
  kind : Kind
  key : String
  batch : Nat
  deriving DecidableEq, Repr

/-- The records of one message that are not through yet. -/
structure SqsBatch where
  msg : Nat
  pairs : List (Kind × String)
  remaining : Nat
  deriving DecidableEq, Repr

/-- The result of an audit. -/
inductive AuditOutcome where
  | ok
  | failed
  | cancelled
  deriving DecidableEq, Repr

/-- The state of an audit item. -/
inductive AuditState where
  | pending
  | running
  | finished (result : AuditOutcome)
  deriving DecidableEq, Repr

/-- An audit item. `scheduled` if the coordinator's own loop has made it, not a caller of `request_due`. -/
structure AuditItem where
  scheduled : Bool := false
  state : AuditState := .pending
  deriving DecidableEq, Repr

/-- What the work queue holds. An `other` item is a tag edit or a `WatchEvent`. -/
inductive WorkItem where
  | event (rec : EventRecord)
  | audit (item : Nat)
  | other
  deriving DecidableEq, Repr

structure IntakeGate where
  paused : Bool := false
  recordsBuffered : Nat := 0
  batchesOutstanding : Nat := 0
  deriving DecidableEq, Repr

/-- Where the producer is. `final` marks the ack sweep after the loop. -/
inductive ProducerPc where
  | head
  | draining (final : Bool)
  | acking (final : Bool) (batch : Nat)
  | acked (final : Bool) (batch : Nat)
  | testPaused
  | testBuffered
  | idle
  | receiving
  | processing (msgs : List Nat)
  | putting (recs : List EventRecord) (msgs : List Nat)
  | backoff
  | exited
  deriving DecidableEq, Repr

/-- Where the worker is. `counted` and `done` are the two stretches of `record_terminal` after the
countdown of the batch. -/
inductive WorkerPc where
  | idle
  | getting
  | holding (item : WorkItem)
  | auditing (item : Nat)
  | handling (rec : EventRecord)
  | terminal (rec : EventRecord)
  | counted (rec : EventRecord) (last : Bool)
  | done (batch : Nat) (last : Bool)
  | exited
  deriving DecidableEq, Repr

/-- Where the coordinator is. `leave` if it returns after the `finally` blocks. -/
inductive CoordPc where
  | timer
  | draining
  | enqueue
  | putting (item : Nat)
  | fetching
  | waiting (item : Nat)
  | clearing (item : Nat) (leave : Bool)
  | resuming (leave : Bool)
  | ending
  | lastClearing (item : Nat)
  | exited
  deriving DecidableEq, Repr

/-- The state of the daemon. -/
structure State where
  gate : IntakeGate := {}
  workQ : List WorkItem := []
  ackQ : List Nat := []
  batches : Nat → SqsBatch := fun _ => ⟨0, [], 0⟩
  nbatches : Nat := 0
  items : Nat → AuditItem := fun _ => {}
  nitems : Nat := 0
  current : Option Nat := none
  queuedOrRunning : Bool := false
  requests : List Nat := []
  producer : ProducerPc := .head
  worker : WorkerPc := .idle
  coord : CoordPc := .timer
  stop : Bool := false
  msgs : List Msg := []
  outstanding : List Nat := []
  handled : List EventRecord := []
  lost : List EventRecord := []
  deletes : List Nat := []

def WorkItem.record : WorkItem → Option EventRecord
  | .event rec => some rec
  | _ => none

def records (items : List WorkItem) : List EventRecord := items.filterMap WorkItem.record

def ProducerPc.hand : ProducerPc → List EventRecord
  | .putting recs _ => recs
  | _ => []

/-- The record that the worker has taken and not handled. -/
def WorkerPc.hand : WorkerPc → List EventRecord
  | .holding item => item.record.toList
  | .handling rec => [rec]
  | _ => []

def WorkerPc.terminals : WorkerPc → List EventRecord
  | .terminal rec => [rec]
  | _ => []

def WorkerPc.counting : WorkerPc → List EventRecord
  | .counted rec _ => [rec]
  | _ => []

/-- The batch that the worker is about to put on the ack queue. -/
def WorkerPc.finishing : WorkerPc → List Nat
  | .counted rec true => [rec.batch]
  | .done batch true => [batch]
  | _ => []

/-- The batch that the producer has taken from the ack queue. -/
def ProducerPc.acks : ProducerPc → List Nat
  | .acking _ batch => [batch]
  | .acked _ batch => [batch]
  | _ => []

namespace State
variable (s : State)

def unhandled : List EventRecord := s.producer.hand ++ records s.workQ ++ s.worker.hand

def live : List EventRecord := s.unhandled ++ s.worker.terminals ++ s.worker.counting

/-- The batches that wait for their `DeleteMessage`. -/
def acks : List Nat := s.worker.finishing ++ s.ackQ ++ s.producer.acks

end State

end PjCloud.Intake
