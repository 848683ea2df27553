import PjCloud.Intake.State
import PjCloud.Lib.Machine

/-!
# The steps of the daemon

Each action is one atomic section of one of the three threads, or something that happens to them: a caller of
`request_due`, another producer of work items, and the stop signal. What the outside decides (what SQS returns,
whether a handler raises, how an audit ends) is in the action.
-/

namespace PjCloud.Intake
open Lib

/-- What the daemon is set up with. `gated` if there is an event tier, so that audits pause it. -/
structure Setup where
  library : Library
  maxBufferedRecords : Nat := 256
  gated : Bool := true

/-- The steps of `s3_event_producer`. -/
inductive ProducerAct where
  | check
  | takeAck
  | acksEmpty
  | delete
  | batchAcked
  | testPaused
  | testBuffered
  | wake
  | receive (msgs : List Msg)
  | receiveFails
  | process
  | put
  | retry
  deriving DecidableEq, Repr

/-- The steps of `worker_loop`. -/
inductive WorkerAct where
  | check
  | take
  | timeout
  | dispatch
  | finishAudit (result : AuditOutcome)
  | handle (raises : Bool)
  | countDown
  | recordDone
  | putAck
  deriving DecidableEq, Repr

/-- The steps of `AuditCoordinator._run`. -/
inductive CoordAct where
  | due
  | drained
  | drainStopped
  | enqueue
  | put
  | fetch
  | observe
  | giveUp
  | clear
  | resume
  | stopped
  | lastCancel
  | lastClear
  deriving DecidableEq, Repr

/-- All steps. `requestDue` and `requestPut` are the two halves of a call of `request_due`. -/
inductive Action where
  | producer (act : ProducerAct)
  | worker (act : WorkerAct)
  | coord (act : CoordAct)
  | requestDue
  | requestPut
  | otherWork
  | stop
  deriving DecidableEq, Repr

variable (cfg : Setup)

/-! ## The producer -/

/-- When the producer can act. -/
def producerGuard (s : State) : ProducerAct → Bool
  | .check => decide (s.producer = .head)
  | .takeAck =>
    match s.producer with
    | .draining _ => !s.ackQ.isEmpty
    | _ => false
  | .acksEmpty =>
    match s.producer with
    | .draining _ => s.ackQ.isEmpty
    | _ => false
  | .delete =>
    match s.producer with
    | .acking .. => true
    | _ => false
  | .batchAcked =>
    match s.producer with
    | .acked .. => true
    | _ => false
  | .testPaused => decide (s.producer = .testPaused)
  | .testBuffered => decide (s.producer = .testBuffered)
  | .wake => decide (s.producer = .idle)
  | .receive _ => decide (s.producer = .receiving)
  | .receiveFails => decide (s.producer = .receiving)
  | .process =>
    match s.producer with
    | .processing _ => true
    | _ => false
  | .put =>
    match s.producer with
    | .putting .. => true
    | _ => false
  | .retry => decide (s.producer = .backoff)

def eventRecords (pairs : List (Kind × String)) (batch : Nat) : List EventRecord :=
  pairs.map fun (kind, key) => ⟨kind, key, batch⟩

/-- `_process_message` for the message `m`, with the messages after it. -/
def processMessage (s : State) (m : Nat) (rest : List Nat) : State :=
  match s.msgs[m]? with
  | none => { s with producer := .processing rest }
  | some msg =>
    if msg.receiptHandle.isNone then
      -- the `KeyError` ends the iteration, and the messages after it are not looked at
      { s with producer := .backoff }
    else
      match translateBody cfg.library (msg.body.getD "{}") with
      | .error _ => { s with producer := .processing rest }
      | .ok [] => { s with producer := .processing rest, deletes := s.deletes ++ [m] }
      | .ok pairs =>
        { s with
          batches := Function.update s.batches s.nbatches ⟨m, pairs, pairs.length⟩
          nbatches := s.nbatches + 1
          gate := { s.gate with
            batchesOutstanding := s.gate.batchesOutstanding + 1
            recordsBuffered := s.gate.recordsBuffered + pairs.length }
          outstanding := s.outstanding ++ [s.nbatches]
          producer := .putting (eventRecords pairs s.nbatches) rest }

/-- What the producer does. -/
def producerExec (s : State) : ProducerAct → State
  | .check => { s with producer := .draining s.stop }
  | .takeAck =>
    match s.producer, s.ackQ with
    | .draining final, b :: rest => { s with producer := .acking final b, ackQ := rest }
    | _, _ => s
  | .acksEmpty =>
    match s.producer with
    | .draining final => { s with producer := if final then .exited else .testPaused }
    | _ => s
  | .delete =>
    match s.producer with
    | .acking final b =>
      { s with producer := .acked final b, deletes := s.deletes ++ [(s.batches b).msg] }
    | _ => s
  | .batchAcked =>
    match s.producer with
    | .acked final b =>
      { s with
        producer := .draining final
        gate := { s.gate with batchesOutstanding := s.gate.batchesOutstanding - 1 }
        outstanding := s.outstanding.erase b }
    | _ => s
  | .testPaused => { s with producer := if s.gate.paused then .idle else .testBuffered }
  | .testBuffered =>
    { s with
      producer := if s.gate.recordsBuffered ≥ cfg.maxBufferedRecords then .idle else .receiving }
  | .wake => { s with producer := .head }
  | .receive msgs =>
    { s with
      msgs := s.msgs ++ msgs
      producer := .processing (List.range' s.msgs.length msgs.length) }
  | .receiveFails => { s with producer := .backoff }
  | .process =>
    match s.producer with
    | .processing [] => { s with producer := .head }
    | .processing (m :: rest) => processMessage cfg s m rest
    | _ => s
  | .put =>
    match s.producer with
    | .putting [] msgs => { s with producer := .processing msgs }
    | .putting (rec :: recs) msgs =>
      { s with workQ := s.workQ ++ [.event rec], producer := .putting recs msgs }
    | _ => s
  | .retry => { s with producer := if s.stop then .draining true else .head }

/-! ## The worker -/

/-- When the worker can act. An audit is cancelled only by the stop event. -/
def workerGuard (s : State) : WorkerAct → Bool
  | .check => decide (s.worker = .idle)
  | .take => decide (s.worker = .getting) && !s.workQ.isEmpty
  | .timeout => decide (s.worker = .getting) && s.workQ.isEmpty
  | .dispatch =>
    match s.worker with
    | .holding _ => true
    | _ => false
  | .finishAudit result =>
    match s.worker with
    | .auditing _ => decide (result = .cancelled → s.stop = true)
    | _ => false
  | .handle _ =>
    match s.worker with
    | .handling _ => true
    | _ => false
  | .countDown =>
    match s.worker with
    | .terminal _ => true
    | _ => false
  | .recordDone =>
    match s.worker with
    | .counted .. => true
    | _ => false
  | .putAck =>
    match s.worker with
    | .done .. => true
    | _ => false

def AuditItem.cancelIfPending (item : AuditItem) : AuditItem :=
  if item.state = .pending then { item with state := .finished .cancelled } else item

/-- `start`, if it succeeds. -/
def AuditItem.start (item : AuditItem) : Option AuditItem :=
  if item.state = .pending then some { item with state := .running } else none

def AuditItem.finish (item : AuditItem) (result : AuditOutcome) : AuditItem :=
  match item.state with
  | .finished _ => item
  | _ => { item with state := .finished result }

/-- What the worker does with an item after it has taken it. -/
def dispatch (s : State) : WorkItem → State
  | .event rec =>
    if s.stop then { s with worker := .exited, lost := s.lost ++ [rec] }
    else { s with worker := .handling rec }
  | .audit i =>
    if s.stop then
      { s with worker := .exited, items := Function.update s.items i (s.items i).cancelIfPending }
    else
      match (s.items i).start with
      | some item => { s with worker := .auditing i, items := Function.update s.items i item }
      | none => { s with worker := .idle }
  | .other => { s with worker := if s.stop then .exited else .idle }

/-- What the worker does. -/
def workerExec (s : State) : WorkerAct → State
  | .check => { s with worker := if s.stop then .exited else .getting }
  | .take =>
    match s.workQ with
    | item :: rest => { s with worker := .holding item, workQ := rest }
    | [] => s
  | .timeout => { s with worker := .idle }
  | .dispatch =>
    match s.worker with
    | .holding item => dispatch s item
    | _ => s
  | .finishAudit result =>
    match s.worker with
    | .auditing i =>
      { s with worker := .idle, items := Function.update s.items i ((s.items i).finish result) }
    | _ => s
  | .handle raises =>
    match s.worker with
    | .handling rec =>
      if raises then { s with worker := .idle, lost := s.lost ++ [rec] }
      else { s with worker := .terminal rec, handled := s.handled ++ [rec] }
    | _ => s
  | .countDown =>
    match s.worker with
    | .terminal rec =>
      let batch := s.batches rec.batch
      if batch.remaining = 0 then
        { s with worker := .idle }
      else
        { s with
          worker := .counted rec (batch.remaining = 1)
          batches := Function.update s.batches rec.batch { batch with remaining := batch.remaining - 1 } }
    | _ => s
  | .recordDone =>
    match s.worker with
    | .counted rec last =>
      { s with
        worker := .done rec.batch last
        gate := { s.gate with recordsBuffered := s.gate.recordsBuffered - 1 } }
    | _ => s
  | .putAck =>
    match s.worker with
    | .done b last => { s with worker := .idle, ackQ := if last then s.ackQ ++ [b] else s.ackQ }
    | _ => s

/-! ## The coordinator -/

/-- When the coordinator can act. -/
def coordGuard (s : State) : CoordAct → Bool
  | .due => decide (s.coord = .timer) && !s.stop
  | .drained => decide (s.coord = .draining) && decide (s.gate.batchesOutstanding = 0)
  | .drainStopped => decide (s.coord = .draining) && s.stop
  | .enqueue => decide (s.coord = .enqueue)
  | .put =>
    match s.coord with
    | .putting _ => true
    | _ => false
  | .fetch => decide (s.coord = .fetching)
  | .observe =>
    match s.coord with
    | .waiting i =>
      match (s.items i).state with
      | .finished _ => true
      | _ => false
    | _ => false
  | .giveUp =>
    match s.coord with
    | .waiting i =>
      match (s.items i).state with
      | .finished _ => false
      | _ => s.stop
    | _ => false
  | .clear =>
    match s.coord with
    | .clearing .. => true
    | _ => false
  | .resume =>
    match s.coord with
    | .resuming _ => true
    | _ => false
  | .stopped => decide (s.coord = .timer) && s.stop
  | .lastCancel => decide (s.coord = .ending)
  | .lastClear =>
    match s.coord with
    | .lastClearing _ => true
    | _ => false

/-- The section of `_enqueue_if_idle` under the lock, where it makes an item. -/
def newItem (s : State) (scheduled : Bool) : State :=
  { s with
    items := Function.update s.items s.nitems { scheduled := scheduled }
    nitems := s.nitems + 1
    current := some s.nitems
    queuedOrRunning := true }

def clearActive (s : State) (i : Nat) : State :=
  if s.current = some i then { s with current := none, queuedOrRunning := false } else s

/-- What the coordinator does. -/
def coordExec (s : State) : CoordAct → State
  | .due =>
    if cfg.gated then { s with coord := .draining, gate := { s.gate with paused := true } }
    else { s with coord := .enqueue }
  | .drained => { s with coord := .enqueue }
  | .drainStopped => { s with coord := .resuming true }
  | .enqueue =>
    if s.stop || s.queuedOrRunning then { s with coord := .fetching }
    else { newItem s true with coord := .putting s.nitems }
  | .put =>
    match s.coord with
    | .putting i => { s with coord := .waiting i, workQ := s.workQ ++ [.audit i] }
    | _ => s
  | .fetch =>
    match s.current with
    | some i => { s with coord := .waiting i }
    | none => { s with coord := .resuming true }
  | .observe =>
    match s.coord with
    | .waiting i => { s with coord := .clearing i (decide ((s.items i).state = .finished .cancelled)) }
    | _ => s
  | .giveUp =>
    match s.coord with
    | .waiting i =>
      { s with
        coord := .clearing i true
        items := Function.update s.items i (s.items i).cancelIfPending }
    | _ => s
  | .clear =>
    match s.coord with
    | .clearing i leave => { clearActive s i with coord := .resuming leave }
    | _ => s
  | .resume =>
    match s.coord with
    | .resuming leave =>
      { s with
        coord := if leave then .exited else .timer
        gate := { s.gate with paused := if cfg.gated then false else s.gate.paused } }
    | _ => s
  | .stopped => { s with coord := .ending }
  | .lastCancel =>
    match s.current with
    | some i =>
      { s with
        coord := .lastClearing i
        items := Function.update s.items i (s.items i).cancelIfPending }
    | none => { s with coord := .exited }
  | .lastClear =>
    match s.coord with
    | .lastClearing i => { clearActive s i with coord := .exited }
    | _ => s

/-! ## The daemon -/

/-- When an action can be taken. -/
def guard (s : State) : Action → Bool
  | .producer act => producerGuard s act
  | .worker act => workerGuard s act
  | .coord act => coordGuard s act
  | .requestDue => true
  | .requestPut => !s.requests.isEmpty
  | .otherWork => true
  | .stop => true

/-- What an action does. -/
def exec (s : State) : Action → State
  | .producer act => producerExec cfg s act
  | .worker act => workerExec s act
  | .coord act => coordExec cfg s act
  | .requestDue =>
    if s.stop || s.queuedOrRunning then s
    else { newItem s false with requests := s.requests ++ [s.nitems] }
  | .requestPut =>
    match s.requests with
    | i :: rest => { s with requests := rest, workQ := s.workQ ++ [.audit i] }
    | [] => s
  | .otherWork => { s with workQ := s.workQ ++ [.other] }
  | .stop => { s with stop := true }

/-- The daemon, from its start. -/
def daemon : Machine State Action where
  init s := s = {}
  guard := guard
  exec := exec cfg

end PjCloud.Intake
