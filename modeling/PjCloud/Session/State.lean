import PjCloud.Session.Retain
import PjCloud.Session.Registry

/-!
# Server state

The state of one streaming session on the server together with every goroutine that can touch it:

* the connections (`server/internal/ws/conn.go`, `server.go`), each with its two outgoing channels, its
  write loop, its read loop and its `subs` entry for the session;
* the attachments, one for each `OpenSession` handler that got as far as this session
  (`handlers_session.go`): the handler, the `subHandle` it makes and the `Consumer` it spawns;
* the producer goroutine and the producer side of `SessionState`;
* the teardown that whoever removes the session from the registry has to run.

Goroutines are program counters. `pending` is the batch of the `flush` that is under way. The last five
fields of `State` are history, which no step reads: the batches written to the ledger, those that entered
the retain buffer, the terminal frames queued so far, the connections that are inside `handleCancel`
between its `Lookup` and its `Cancel`, and the connection whose consumer was bound when the producer's
failure cancelled the session.
-/

namespace PjCloud.Session
variable {μ : Type}

/-- Why a stream ended (`EosReason`). -/
inductive EosReason where
  | complete
  | cancelled
  | error
  deriving DecidableEq, Repr

/-- The error codes the session handlers use (`ErrorCode`). -/
inductive ErrorCode where
  | resourceLimit
  | resumeNotPossible
  | s3Unavailable
  deriving DecidableEq, Repr

/-- The frames a session sends (`ServerMessage`). `openSession` and `openError` answer a request,
    the others carry the subscription id. -/
inductive Frame (μ : Type) where
  | openSession
  | openError (code : ErrorCode) (message : String)
  | batch (env : BatchEnvelope μ)
  | progress (messagesSent bytesSent : Nat)
  | eos (reason : EosReason) (totalMessagesSent totalBytesSent : Nat)
  | error (code : ErrorCode) (message : String)
  deriving DecidableEq, Repr

/-- The frames that end a stream. -/
def Frame.terminal : Frame μ → Bool
  | .eos _ _ _ => true
  | .error _ _ => true
  | _ => false

def Frame.batch? : Frame μ → Option (BatchEnvelope μ)
  | .batch env => some env
  | _ => none

/-- Where a connection's read loop is: `handleCancel` and `detachAll` run on it. -/
inductive ReadPc where
  | reading
  | cancelLooked
  | cancelSent
  | cancelUntracked
  | cancelRemoved
  | detaching (gen : Option Nat)
  | detached
  | closed
  deriving DecidableEq, Repr

/-- One connection (`conn` and `connState`). `polled` says that the write loop has seen an empty
    priority channel and stands in its second `select`; `wire` is what it has written. -/
structure Conn (μ : Type) where
  priorityCh : List (Frame μ) := []
  bulkCh : List (Frame μ) := []
  wire : List (Frame μ) := []
  polled : Bool := false
  writing : Bool := true
  done : Bool := false
  sub : Option Nat := none
  read : ReadPc := .reading

def priorityChanCap : Nat := 64

def bulkChanCap : Nat := 16

/-- The capacity of `SessionState.AckCh`. -/
def ackChanCap : Nat := 8

/-- Why `Consumer.Run` returned: a failed write (`Detached`), a cancelled context, the end of
    `drainAndEos`, or a recovered panic. -/
inductive Cause where
  | writeFailed
  | cancelled
  | eos
  | panicked
  deriving DecidableEq, Repr

/-- Where an attachment is, from its handler's first effect on the session to the end of its consumer.
    `bound` still owes the replaced consumer its cancellation. -/
inductive Pc where
  | unused
  | registered
  | looked
  | reattached
  | pruned
  | replied
  | bound (prev : Option Nat)
  | takenOver
  | running
  | draining
  | stopped (why : Cause)
  | untracking (why : Cause)
  | cancelling (why : Cause)
  | exited (why : Cause)
  | refused
  deriving DecidableEq, Repr

/-- The consumer's outstanding `Next`: none, waiting, or a batch that has been fetched. -/
inductive Slot (μ : Type) where
  | idle
  | waiting
  | ready (env : BatchEnvelope μ)
  deriving DecidableEq, Repr

/-- No `Next` is outstanding. -/
def Slot.isIdle : Slot μ → Bool
  | .idle => true
  | _ => false

/-- A `Next` is waiting for a batch. -/
def Slot.isWaiting : Slot μ → Bool
  | .waiting => true
  | _ => false

def Slot.isReady : Slot μ → Bool
  | .ready _ => true
  | _ => false

@[simp] lemma Slot.isIdle_iff {x : Slot μ} : x.isIdle = true ↔ x = .idle := by
  cases x <;> simp [isIdle]

@[simp] lemma Slot.isWaiting_iff {x : Slot μ} : x.isWaiting = true ↔ x = .waiting := by
  cases x <;> simp [isWaiting]

@[simp] lemma Slot.isReady_iff {x : Slot μ} : x.isReady = true ↔ ∃ env, x = .ready env := by
  cases x <;> simp [isReady]

/-- An `OpenSession` handler with its `subHandle` and `Consumer`. `sent` is history. -/
structure Attachment (μ : Type) where
  conn : Nat := 0
  startAfterSeq : Nat := 0
  pc : Pc := .unused
  gen : Nat := 0
  detaching : Bool := false
  cancelled : Bool := false
  lastSeq : Nat := 0
  slot : Slot μ := .idle
  messagesSent : Nat := 0
  bytesSent : Nat := 0
  sent : List Nat := []

/-- What `flush` makes a batch of: the builder's messages, the source file, the marshaled size. -/
structure Batch (μ : Type) where
  sourceFileID : Nat
  bytes : Nat
  msgs : List μ
  deriving DecidableEq, Repr

/-- The envelope that `flush` appends. -/
def Batch.envelope (b : Batch μ) (seq : Nat) : BatchEnvelope μ where
  seq := seq
  sourceFileID := b.sourceFileID
  bytes := b.bytes
  messages := b.msgs.length
  payload := b.msgs

/-- Where the producer goroutine is. In `appending` it is at the `Retain.Append` of a `flush`;
    `failed` up to `failedReported` is its stream-fatal path. -/
inductive ProducerPc where
  | idle
  | running
  | appending
  | failed
  | failedUntracked
  | failedCancelled
  | failedReported
  | ended
  | closed
  deriving DecidableEq, Repr

/-- How `Producer.Run` ended. -/
inductive Outcome where
  | exhausted
  | failed
  | panicked
  deriving DecidableEq, Repr

/-- Who called `Registry.Cancel`, or removed the session by `evictFire`. -/
inductive Caller where
  | conn (c : Nat)
  | consumer (a : Nat)
  | producer
  | timer
  | shutdown
  deriving DecidableEq, Repr

/-- The rest of `Registry.teardown`, which its caller runs outside the registry lock. -/
inductive Teardown where
  | idle
  | cancelConsumer (by_ : Caller)
  | cancelProducer (by_ : Caller)
  | closeRetain (by_ : Caller)
  deriving DecidableEq, Repr

/-- The teardown is under way on behalf of this caller. -/
def Teardown.ownedBy (t : Teardown) (k : Caller) : Bool :=
  match t with
  | .idle => false
  | .cancelConsumer b => b = k
  | .cancelProducer b => b = k
  | .closeRetain b => b = k

/-- One session on the server. -/
structure State (μ : Type) where
  entry : Entry
  teardown : Teardown
  retain : RetainBuffer μ
  ackCh : List Nat
  ledger : List SeqCumulative
  prodCancelled : Bool
  producerDone : Bool
  producer : ProducerPc
  pending : Option (BatchEnvelope μ)
  nextSeq : Nat
  todo : List (Batch μ)
  opener : Nat
  conns : Nat → Conn μ
  atts : Nat → Attachment μ
  natts : Nat
  recorded : List (BatchEnvelope μ)
  appended : List (BatchEnvelope μ)
  terminal : List (Nat × Frame μ)
  cancels : List Nat
  holder : Option Nat

/-- Before the session is opened: the plan's batches are still to be produced. -/
def State.start (opts : RetainOpts) (plan : List (Batch μ)) : State μ where
  entry := .fresh
  teardown := .idle
  retain := .newRetainBuffer opts
  ackCh := []
  ledger := []
  prodCancelled := false
  producerDone := false
  producer := .idle
  pending := none
  nextSeq := 0
  todo := plan
  opener := 0
  conns := fun _ => {}
  atts := fun _ => {}
  natts := 0
  recorded := []
  appended := []
  terminal := []
  cancels := []
  holder := none

/-- `SendPriority` does not block on this connection. -/
def Conn.canSendPriority (c : Conn μ) : Bool :=
  c.done || decide (c.priorityCh.length < priorityChanCap)

/-- `SendBulk` does not block on this connection. -/
def Conn.canSendBulk (c : Conn μ) : Bool :=
  c.done || decide (c.bulkCh.length < bulkChanCap)

/-- `SendPriority`: a finished connection refuses the frame. -/
def Conn.sendPriority (c : Conn μ) (f : Frame μ) : Conn μ :=
  if c.done then c else { c with priorityCh := c.priorityCh ++ [f] }

/-- `SendBulk` on a connection that is not finished. -/
def Conn.pushBulk (c : Conn μ) (f : Frame μ) : Conn μ :=
  { c with bulkCh := c.bulkCh ++ [f] }

/-- The connections after `SendPriority` on `c`. -/
def sendPriority (conns : Nat → Conn μ) (c : Nat) (f : Frame μ) : Nat → Conn μ :=
  Function.update conns c ((conns c).sendPriority f)

/-- The log of terminal frames after `SendPriority` on `c`. -/
def logTerminal (conns : Nat → Conn μ) (log : List (Nat × Frame μ)) (c : Nat) (f : Frame μ) :
    List (Nat × Frame μ) :=
  if (conns c).done || !f.terminal then log else log ++ [(c, f)]

def cancelAtt (atts : Nat → Attachment μ) : Option Nat → Nat → Attachment μ
  | none => atts
  | some k => Function.update atts k { atts k with cancelled := true }

end PjCloud.Session
