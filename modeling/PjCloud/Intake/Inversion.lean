import PjCloud.Intake.Step

/-!
# What a step of the daemon can do

Each thread's steps as a relation between the states before and after, with one constructor for each way a
section can go. The invariants go by these and never open the guards and effects.
-/

namespace PjCloud.Intake
open Lib
variable {cfg : Setup} {s s' : State}

/-- What the producer can do. -/
inductive ProducerStep (cfg : Setup) (s : State) : ProducerAct → State → Prop where
  | check : s.producer = .head → ProducerStep cfg s .check { s with producer := .draining s.stop }
  | takeAck {final b rest} : s.producer = .draining final → s.ackQ = b :: rest →
      ProducerStep cfg s .takeAck { s with producer := .acking final b, ackQ := rest }
  | acksEmpty {final} : s.producer = .draining final → s.ackQ = [] →
      ProducerStep cfg s .acksEmpty { s with producer := if final then .exited else .testPaused }
  | delete {final b} : s.producer = .acking final b → ProducerStep cfg s .delete
      { s with producer := .acked final b, deletes := s.deletes ++ [(s.batches b).msg] }
  | batchAcked {final b} : s.producer = .acked final b → ProducerStep cfg s .batchAcked
      { s with
        producer := .draining final
        gate := { s.gate with batchesOutstanding := s.gate.batchesOutstanding - 1 }
        outstanding := s.outstanding.erase b }
  | paused : s.producer = .testPaused → s.gate.paused = true →
      ProducerStep cfg s .testPaused { s with producer := .idle }
  | unpaused : s.producer = .testPaused → s.gate.paused = false →
      ProducerStep cfg s .testPaused { s with producer := .testBuffered }
  | full : s.producer = .testBuffered → s.gate.recordsBuffered ≥ cfg.maxBufferedRecords →
      ProducerStep cfg s .testBuffered { s with producer := .idle }
  | room : s.producer = .testBuffered → s.gate.recordsBuffered < cfg.maxBufferedRecords →
      ProducerStep cfg s .testBuffered { s with producer := .receiving }
  | wake : s.producer = .idle → ProducerStep cfg s .wake { s with producer := .head }
  | receive {msgs} : s.producer = .receiving → ProducerStep cfg s (.receive msgs)
      { s with
        msgs := s.msgs ++ msgs
        producer := .processing (List.range' s.msgs.length msgs.length) }
  | receiveFails : s.producer = .receiving →
      ProducerStep cfg s .receiveFails { s with producer := .backoff }
  | processed : s.producer = .processing [] → ProducerStep cfg s .process { s with producer := .head }
  | missing {m rest} : s.producer = .processing (m :: rest) → s.msgs[m]? = none →
      ProducerStep cfg s .process { s with producer := .processing rest }
  | noReceipt {m rest msg} : s.producer = .processing (m :: rest) → s.msgs[m]? = some msg →
      msg.receiptHandle = none → ProducerStep cfg s .process { s with producer := .backoff }
  | malformed {m rest msg e} : s.producer = .processing (m :: rest) → s.msgs[m]? = some msg →
      translateBody cfg.library (msg.body.getD "{}") = .error e →
      ProducerStep cfg s .process { s with producer := .processing rest }
  | irrelevant {m rest msg} : s.producer = .processing (m :: rest) → s.msgs[m]? = some msg →
      translateBody cfg.library (msg.body.getD "{}") = .ok [] → ProducerStep cfg s .process
      { s with producer := .processing rest, deletes := s.deletes ++ [m] }
  | batch {m rest msg pairs} : s.producer = .processing (m :: rest) → s.msgs[m]? = some msg →
      translateBody cfg.library (msg.body.getD "{}") = .ok pairs → pairs ≠ [] →
      ProducerStep cfg s .process
      { s with
        batches := Function.update s.batches s.nbatches ⟨m, pairs, pairs.length⟩
        nbatches := s.nbatches + 1
        gate := { s.gate with
          batchesOutstanding := s.gate.batchesOutstanding + 1
          recordsBuffered := s.gate.recordsBuffered + pairs.length }
        outstanding := s.outstanding ++ [s.nbatches]
        producer := .putting (eventRecords pairs s.nbatches) rest }
  | putEnd {msgs} : s.producer = .putting [] msgs →
      ProducerStep cfg s .put { s with producer := .processing msgs }
  | put {rec recs msgs} : s.producer = .putting (rec :: recs) msgs → ProducerStep cfg s .put
      { s with workQ := s.workQ ++ [.event rec], producer := .putting recs msgs }
  | retry : s.producer = .backoff →
      ProducerStep cfg s .retry { s with producer := if s.stop then .draining true else .head }

lemma producer_step {act : ProducerAct} (can : producerGuard s act = true) :
    ProducerStep cfg s act (producerExec cfg s act) := by
  cases act with
  | check => exact .check (of_decide_eq_true can)
  | takeAck =>
    simp only [producerGuard] at can
    split at can
    · rename_i final draining
      obtain ⟨b, rest, queue⟩ := List.exists_cons_of_ne_nil (by simpa using can)
      simp only [producerExec, draining, queue]
      exact .takeAck draining queue
    · cases can
  | acksEmpty =>
    simp only [producerGuard] at can
    split at can
    · rename_i final draining
      simp only [producerExec, draining]
      exact .acksEmpty draining (by simpa using can)
    · cases can
  | delete =>
    simp only [producerGuard] at can
    split at can
    · rename_i final b acking
      simp only [producerExec, acking]
      exact .delete acking
    · cases can
  | batchAcked =>
    simp only [producerGuard] at can
    split at can
    · rename_i final b acked
      simp only [producerExec, acked]
      exact .batchAcked acked
    · cases can
  | testPaused =>
    have here : s.producer = .testPaused := of_decide_eq_true can
    simp only [producerExec]
    cases paused : s.gate.paused with
    | true => exact .paused here paused
    | false => exact .unpaused here paused
  | testBuffered =>
    have here : s.producer = .testBuffered := of_decide_eq_true can
    simp only [producerExec]
    split
    · rename_i full
      exact .full here full
    · rename_i room
      exact .room here (by omega)
  | wake => exact .wake (of_decide_eq_true can)
  | receive msgs => exact .receive (of_decide_eq_true can)
  | receiveFails => exact .receiveFails (of_decide_eq_true can)
  | process =>
    simp only [producerGuard] at can
    split at can
    · rename_i msgs processing
      simp only [producerExec, processing]
      cases msgs with
      | nil => exact .processed processing
      | cons m rest =>
        dsimp only [processMessage]
        split
        · rename_i missing
          exact .missing processing missing
        · rename_i msg found
          split
          · rename_i none
            exact .noReceipt processing found (by simpa using none)
          · split
            · rename_i e malformed
              exact .malformed processing found malformed
            · rename_i irrelevant
              exact .irrelevant processing found irrelevant
            · rename_i pairs some translated
              exact .batch processing found translated some
    · cases can
  | put =>
    simp only [producerGuard] at can
    split at can
    · rename_i recs msgs putting
      simp only [producerExec, putting]
      cases recs with
      | nil => exact .putEnd putting
      | cons rec rest => exact .put putting
    · cases can
  | retry => exact .retry (of_decide_eq_true can)

/-- What the worker can do. -/
inductive WorkerStep (s : State) : WorkerAct → State → Prop where
  | checkStop : s.worker = .idle → s.stop = true → WorkerStep s .check { s with worker := .exited }
  | check : s.worker = .idle → s.stop = false → WorkerStep s .check { s with worker := .getting }
  | take {item rest} : s.worker = .getting → s.workQ = item :: rest →
      WorkerStep s .take { s with worker := .holding item, workQ := rest }
  | timeout : s.worker = .getting → s.workQ = [] → WorkerStep s .timeout { s with worker := .idle }
  | drop {rec} : s.worker = .holding (.event rec) → s.stop = true →
      WorkerStep s .dispatch { s with worker := .exited, lost := s.lost ++ [rec] }
  | begin {rec} : s.worker = .holding (.event rec) → s.stop = false →
      WorkerStep s .dispatch { s with worker := .handling rec }
  | dropAudit {i} : s.worker = .holding (.audit i) → s.stop = true → WorkerStep s .dispatch
      { s with worker := .exited, items := Function.update s.items i (s.items i).cancelIfPending }
  | startAudit {i} : s.worker = .holding (.audit i) → s.stop = false → (s.items i).state = .pending →
      WorkerStep s .dispatch
      { s with
        worker := .auditing i
        items := Function.update s.items i { s.items i with state := .running } }
  | skipAudit {i} : s.worker = .holding (.audit i) → s.stop = false → (s.items i).state ≠ .pending →
      WorkerStep s .dispatch { s with worker := .idle }
  | other : s.worker = .holding .other →
      WorkerStep s .dispatch { s with worker := if s.stop then .exited else .idle }
  | finishAudit {i result} : s.worker = .auditing i → (result = .cancelled → s.stop = true) →
      WorkerStep s (.finishAudit result)
      { s with worker := .idle, items := Function.update s.items i ((s.items i).finish result) }
  | raises {rec} : s.worker = .handling rec →
      WorkerStep s (.handle true) { s with worker := .idle, lost := s.lost ++ [rec] }
  | handle {rec} : s.worker = .handling rec →
      WorkerStep s (.handle false) { s with worker := .terminal rec, handled := s.handled ++ [rec] }
  | counted {rec} : s.worker = .terminal rec → (s.batches rec.batch).remaining = 0 →
      WorkerStep s .countDown { s with worker := .idle }
  | countDown {rec} : s.worker = .terminal rec → 0 < (s.batches rec.batch).remaining →
      WorkerStep s .countDown
      { s with
        worker := .counted rec ((s.batches rec.batch).remaining = 1)
        batches := Function.update s.batches rec.batch
          { s.batches rec.batch with remaining := (s.batches rec.batch).remaining - 1 } }
  | recordDone {rec last} : s.worker = .counted rec last → WorkerStep s .recordDone
      { s with
        worker := .done rec.batch last
        gate := { s.gate with recordsBuffered := s.gate.recordsBuffered - 1 } }
  | putAck {b last} : s.worker = .done b last → WorkerStep s .putAck
      { s with worker := .idle, ackQ := if last then s.ackQ ++ [b] else s.ackQ }

lemma worker_step {act : WorkerAct} (can : workerGuard s act = true) :
    WorkerStep s act (workerExec s act) := by
  cases act with
  | check =>
    have idle : s.worker = .idle := of_decide_eq_true can
    simp only [workerExec]
    split
    · rename_i stop
      exact .checkStop idle stop
    · rename_i go
      exact .check idle (by simpa using go)
  | take =>
    simp only [workerGuard, Bool.and_eq_true, decide_eq_true_eq] at can
    obtain ⟨item, rest, queue⟩ := List.exists_cons_of_ne_nil (by simpa using can.2)
    simp only [workerExec, queue]
    exact .take can.1 queue
  | timeout =>
    simp only [workerGuard, Bool.and_eq_true, decide_eq_true_eq] at can
    exact .timeout can.1 (by simpa using can.2)
  | dispatch =>
    simp only [workerGuard] at can
    split at can
    · rename_i item holding
      simp only [workerExec, holding]
      cases item with
      | event rec =>
        cases stop : s.stop with
        | true => simpa [dispatch, stop] using WorkerStep.drop holding stop
        | false => simpa [dispatch, stop] using WorkerStep.begin holding stop
      | audit i =>
        cases stop : s.stop with
        | true => simpa [dispatch, stop] using WorkerStep.dropAudit holding stop
        | false =>
          by_cases pending : (s.items i).state = .pending
          · simpa [dispatch, stop, AuditItem.start, pending] using
              WorkerStep.startAudit holding stop pending
          · simpa [dispatch, stop, AuditItem.start, pending] using
              WorkerStep.skipAudit holding stop pending
      | other => exact .other holding
    · cases can
  | finishAudit result =>
    simp only [workerGuard] at can
    split at can
    · rename_i i auditing
      simp only [workerExec, auditing]
      exact .finishAudit auditing (of_decide_eq_true can)
    · cases can
  | handle raises =>
    simp only [workerGuard] at can
    split at can
    · rename_i rec handling
      cases raises with
      | true => simpa [workerExec, handling] using WorkerStep.raises handling
      | false => simpa [workerExec, handling] using WorkerStep.handle handling
    · cases can
  | countDown =>
    simp only [workerGuard] at can
    split at can
    · rename_i rec terminal
      simp only [workerExec, terminal]
      split
      · rename_i zero
        exact .counted terminal zero
      · rename_i more
        exact .countDown terminal (Nat.pos_of_ne_zero more)
    · cases can
  | recordDone =>
    simp only [workerGuard] at can
    split at can
    · rename_i rec last counted
      simp only [workerExec, counted]
      exact .recordDone counted
    · cases can
  | putAck =>
    simp only [workerGuard] at can
    split at can
    · rename_i b last done
      simp only [workerExec, done]
      exact .putAck done
    · cases can

/-- What the coordinator can do. -/
inductive CoordStep (cfg : Setup) (s : State) : CoordAct → State → Prop where
  | pause : s.coord = .timer → s.stop = false → cfg.gated = true →
      CoordStep cfg s .due { s with coord := .draining, gate := { s.gate with paused := true } }
  | due : s.coord = .timer → s.stop = false → cfg.gated = false →
      CoordStep cfg s .due { s with coord := .enqueue }
  | drained : s.coord = .draining → s.gate.batchesOutstanding = 0 →
      CoordStep cfg s .drained { s with coord := .enqueue }
  | drainStopped : s.coord = .draining → s.stop = true →
      CoordStep cfg s .drainStopped { s with coord := .resuming true }
  | coalesce : s.coord = .enqueue → (s.stop = true ∨ s.queuedOrRunning = true) →
      CoordStep cfg s .enqueue { s with coord := .fetching }
  | enqueue : s.coord = .enqueue → s.stop = false → s.queuedOrRunning = false →
      CoordStep cfg s .enqueue { newItem s true with coord := .putting s.nitems }
  | put {i} : s.coord = .putting i →
      CoordStep cfg s .put { s with coord := .waiting i, workQ := s.workQ ++ [.audit i] }
  | fetch {i} : s.coord = .fetching → s.current = some i →
      CoordStep cfg s .fetch { s with coord := .waiting i }
  | fetchNone : s.coord = .fetching → s.current = none →
      CoordStep cfg s .fetch { s with coord := .resuming true }
  | observe {i result} : s.coord = .waiting i → (s.items i).state = .finished result →
      CoordStep cfg s .observe { s with coord := .clearing i (decide (result = .cancelled)) }
  | giveUp {i} : s.coord = .waiting i → s.stop = true → (∀ result, (s.items i).state ≠ .finished result) →
      CoordStep cfg s .giveUp
      { s with
        coord := .clearing i true
        items := Function.update s.items i (s.items i).cancelIfPending }
  | clear {i leave} : s.coord = .clearing i leave →
      CoordStep cfg s .clear { clearActive s i with coord := .resuming leave }
  | resume {leave} : s.coord = .resuming leave → CoordStep cfg s .resume
      { s with
        coord := if leave then .exited else .timer
        gate := { s.gate with paused := if cfg.gated then false else s.gate.paused } }
  | stopped : s.coord = .timer → s.stop = true → CoordStep cfg s .stopped { s with coord := .ending }
  | lastCancel {i} : s.coord = .ending → s.current = some i → CoordStep cfg s .lastCancel
      { s with
        coord := .lastClearing i
        items := Function.update s.items i (s.items i).cancelIfPending }
  | lastNone : s.coord = .ending → s.current = none →
      CoordStep cfg s .lastCancel { s with coord := .exited }
  | lastClear {i} : s.coord = .lastClearing i →
      CoordStep cfg s .lastClear { clearActive s i with coord := .exited }

lemma coord_step {act : CoordAct} (can : coordGuard s act = true) :
    CoordStep cfg s act (coordExec cfg s act) := by
  cases act with
  | due =>
    simp only [coordGuard, Bool.and_eq_true, decide_eq_true_eq, Bool.not_eq_true'] at can
    cases gated : cfg.gated with
    | true => simpa [coordExec, gated] using CoordStep.pause can.1 can.2 gated
    | false => simpa [coordExec, gated] using CoordStep.due can.1 can.2 gated
  | drained =>
    simp only [coordGuard, Bool.and_eq_true, decide_eq_true_eq] at can
    exact .drained can.1 can.2
  | drainStopped =>
    simp only [coordGuard, Bool.and_eq_true, decide_eq_true_eq] at can
    exact .drainStopped can.1 can.2
  | enqueue =>
    have here : s.coord = .enqueue := of_decide_eq_true can
    simp only [coordExec]
    split
    · rename_i busy
      exact .coalesce here (by simpa using busy)
    · rename_i idle
      simp only [Bool.or_eq_true, not_or, Bool.not_eq_true] at idle
      exact .enqueue here idle.1 idle.2
  | put =>
    simp only [coordGuard] at can
    split at can
    · rename_i i putting
      simp only [coordExec, putting]
      exact .put putting
    · cases can
  | fetch =>
    have here : s.coord = .fetching := of_decide_eq_true can
    simp only [coordExec]
    split
    · rename_i i current
      exact .fetch here current
    · rename_i none
      exact .fetchNone here none
  | observe =>
    simp only [coordGuard] at can
    split at can
    · rename_i i waiting
      split at can
      · rename_i result finished
        simp only [coordExec, waiting, finished, AuditState.finished.injEq]
        exact .observe waiting finished
      · cases can
    · cases can
  | giveUp =>
    simp only [coordGuard] at can
    split at can
    · rename_i i waiting
      split at can
      · cases can
      · rename_i unfinished
        simp only [coordExec, waiting]
        exact .giveUp waiting can unfinished
    · cases can
  | clear =>
    simp only [coordGuard] at can
    split at can
    · rename_i i leave clearing
      simp only [coordExec, clearing]
      exact .clear clearing
    · cases can
  | resume =>
    simp only [coordGuard] at can
    split at can
    · rename_i leave resuming
      simp only [coordExec, resuming]
      exact .resume resuming
    · cases can
  | stopped =>
    simp only [coordGuard, Bool.and_eq_true, decide_eq_true_eq] at can
    exact .stopped can.1 can.2
  | lastCancel =>
    have here : s.coord = .ending := of_decide_eq_true can
    simp only [coordExec]
    split
    · rename_i i current
      exact .lastCancel here current
    · rename_i none
      exact .lastNone here none
  | lastClear =>
    simp only [coordGuard] at can
    split at can
    · rename_i i clearing
      simp only [coordExec, clearing]
      exact .lastClear clearing
    · cases can

/-- What the daemon can do. -/
inductive Step (cfg : Setup) (s : State) : Action → State → Prop where
  | producer {act s'} : ProducerStep cfg s act s' → Step cfg s (.producer act) s'
  | worker {act s'} : WorkerStep s act s' → Step cfg s (.worker act) s'
  | coord {act s'} : CoordStep cfg s act s' → Step cfg s (.coord act) s'
  | requestBusy : (s.stop = true ∨ s.queuedOrRunning = true) → Step cfg s .requestDue s
  | requestDue : s.stop = false → s.queuedOrRunning = false →
      Step cfg s .requestDue { newItem s false with requests := s.requests ++ [s.nitems] }
  | requestPut {i rest} : s.requests = i :: rest →
      Step cfg s .requestPut { s with requests := rest, workQ := s.workQ ++ [.audit i] }
  | otherWork : Step cfg s .otherWork { s with workQ := s.workQ ++ [.other] }
  | stop : Step cfg s .stop { s with stop := true }

lemma daemon_step {a : Action} (can : (daemon cfg).guard s a = true) :
    Step cfg s a ((daemon cfg).exec s a) := by
  cases a with
  | producer act => exact .producer (producer_step can)
  | worker act => exact .worker (worker_step can)
  | coord act => exact .coord (coord_step can)
  | requestDue =>
    dsimp only [daemon, exec]
    split
    · rename_i busy
      exact .requestBusy (by simpa using busy)
    · rename_i idle
      simp only [Bool.or_eq_true, not_or, Bool.not_eq_true] at idle
      exact .requestDue idle.1 idle.2
  | requestPut =>
    have some : s.requests ≠ [] := by simpa [daemon, guard] using can
    obtain ⟨i, rest, queue⟩ := List.exists_cons_of_ne_nil some
    simp only [daemon, exec, queue]
    exact .requestPut queue
  | otherWork => exact .otherWork
  | stop => exact .stop

/-- The invariant rule of the daemon. -/
lemma Reach.invariant_step {ok : State → Action → Bool} {Inv : State → Prop} (start : Inv {})
    (step : ∀ {s a s'}, ((daemon cfg).only ok).Reach s → Inv s → ok s a = true → Step cfg s a s' → Inv s')
    (rch : ((daemon cfg).only ok).Reach s) : Inv s := by
  apply Machine.Reach.invariant _ _ rch
  · rintro _ rfl
    exact start
  · intro s a rch inv can
    obtain ⟨can, meets⟩ := Machine.only_guard.mp can
    exact step rch inv meets (daemon_step can)

end PjCloud.Intake
