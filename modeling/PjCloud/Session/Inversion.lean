import PjCloud.Session.Step

/-!
# Inversion of server steps

`Step n s a s'` lists what the action `a` can do to `s`, one constructor for each branch of the
functions in `Session/Step.lean`, with the guard and the branch condition as premises.
`Step.of_guard` says that the machine does nothing else. Invariants are proved by cases on `Step`.
-/

namespace PjCloud.Session
open PjCloud.Lib
variable {μ : Type}

/-- Everything an action can do. -/
inductive Step (n : Nat) (s : State μ) : Action → State μ → Prop where
  | openFreshFull {c k} :
    s.entry.life = .unregistered → n ≤ k → (s.conns c).canSendPriority = true →
    Step n s (.openFresh c k)
      { s with conns := sendPriority s.conns c (.openError .resourceLimit Entry.errAtCapacity) }
  | openFresh {c k} :
    s.entry.life = .unregistered → k < n →
    Step n s (.openFresh c k)
      { s with
        entry := { s.entry with life := .registered }
        opener := c
        atts := Function.update s.atts s.natts { conn := c, pc := .registered }
        natts := s.natts + 1 }
  | openResumeMissing {c m} :
    s.entry.life ≠ .registered → (s.conns c).canSendPriority = true →
    Step n s (.openResume c m)
      { s with
        conns := sendPriority s.conns c
          (.openError .resumeNotPossible "session evicted or never existed") }
  | openResumeBeyond {c m} :
    s.entry.life = .registered → highestAppendedSeq s.ledger < m →
    (s.conns c).canSendPriority = true →
    Step n s (.openResume c m)
      { s with
        conns := sendPriority s.conns c
          (.openError .resumeNotPossible (beyondWatermark m (highestAppendedSeq s.ledger))) }
  | openResume {c m} :
    s.entry.life = .registered → m ≤ highestAppendedSeq s.ledger →
    Step n s (.openResume c m)
      { s with
        atts := Function.update s.atts s.natts { conn := c, startAfterSeq := m, pc := .looked }
        natts := s.natts + 1 }
  | poll {c} :
    (s.conns c).writing = true → (s.conns c).priorityCh = [] → (s.conns c).polled = false →
    Step n s (.conn c .poll)
      { s with conns := Function.update s.conns c { s.conns c with polled := true } }
  | writePriority {c f fs} :
    (s.conns c).writing = true → (s.conns c).priorityCh = f :: fs →
    Step n s (.conn c .writePriority)
      { s with
        conns := Function.update s.conns c
          { s.conns c with
            priorityCh := fs, wire := (s.conns c).wire ++ [f], polled := false } }
  | writeBulk {c f fs} :
    (s.conns c).writing = true → (s.conns c).polled = true → (s.conns c).bulkCh = f :: fs →
    Step n s (.conn c .writeBulk)
      { s with
        conns := Function.update s.conns c
          { s.conns c with bulkCh := fs, wire := (s.conns c).wire ++ [f], polled := false } }
  | writeFailPriority {c f fs} :
    (s.conns c).writing = true → (s.conns c).priorityCh = f :: fs →
    Step n s (.conn c (.writeFail false))
      { s with
        conns := Function.update s.conns c
          { s.conns c with priorityCh := fs, writing := false, done := true } }
  | writeFailBulk {c f fs} :
    (s.conns c).writing = true → (s.conns c).polled = true → (s.conns c).bulkCh = f :: fs →
    Step n s (.conn c (.writeFail true))
      { s with
        conns := Function.update s.conns c
          { s.conns c with bulkCh := fs, writing := false, done := true } }
  | ackTaken {c t} :
    (s.conns c).read = .reading → s.entry.life ≠ .unregistered → s.ackCh.length < ackChanCap →
    Step n s (.conn c (.ack t true)) { s with ackCh := s.ackCh ++ [t] }
  | ackDropped {c t found} :
    (s.conns c).read = .reading → (found = true → ackChanCap ≤ s.ackCh.length) →
    (found = false → s.entry.life ≠ .registered) →
    Step n s (.conn c (.ack t found)) s
  | cancelLookup {c} :
    (s.conns c).read = .reading → s.entry.life = .registered →
    Step n s (.conn c .cancelLookup)
      { s with
        conns := Function.update s.conns c { s.conns c with read := .cancelLooked }
        cancels := c :: s.cancels }
  | cancelSend {c} :
    (s.conns c).read = .cancelLooked → (s.conns c).canSendPriority = true →
    Step n s (.conn c .cancelSend)
      { s with
        conns := Function.update s.conns c
          { (s.conns c).sendPriority (.eos .cancelled 0 0) with read := .cancelSent }
        terminal := logTerminal s.conns s.terminal c (.eos .cancelled 0 0) }
  | cancelUntrack {c} :
    (s.conns c).read = .cancelSent →
    Step n s (.conn c .cancelUntrack)
      { s with
        conns := Function.update s.conns c
          { s.conns c with sub := none, read := .cancelUntracked } }
  | cancelRemove {c} :
    (s.conns c).read = .cancelUntracked → s.entry.life = .registered →
    Step n s (.conn c .cancelRemove)
      { s with
        entry := s.entry.remove
        teardown := .cancelConsumer (.conn c)
        conns := Function.update s.conns c { s.conns c with read := .cancelRemoved }
        cancels := s.cancels.erase c }
  | cancelGone {c} :
    (s.conns c).read = .cancelUntracked → s.entry.life ≠ .registered →
    Step n s (.conn c .cancelRemove)
      { s with
        conns := Function.update s.conns c { s.conns c with read := .cancelRemoved }
        cancels := s.cancels.erase c }
  | cancelReturn {c} :
    (s.conns c).read = .cancelRemoved → s.teardown.ownedBy (.conn c) = false →
    Step n s (.conn c .cancelReturn)
      { s with conns := Function.update s.conns c { s.conns c with read := .reading } }
  | readEndIdle {c} :
    (s.conns c).read = .reading → (s.conns c).sub = none →
    Step n s (.conn c .readEnd)
      { s with conns := Function.update s.conns c { s.conns c with read := .detaching none } }
  | readEnd {c a} :
    (s.conns c).read = .reading → (s.conns c).sub = some a →
    Step n s (.conn c .readEnd)
      { s with
        conns := Function.update s.conns c
          { s.conns c with read := .detaching (some (s.atts a).gen) }
        atts := Function.update s.atts a { s.atts a with detaching := true } }
  | detachNone {c} :
    (s.conns c).read = .detaching none →
    Step n s (.conn c .detach)
      { s with conns := Function.update s.conns c { s.conns c with read := .detached } }
  | detachStale {c gen} :
    (s.conns c).read = .detaching (some gen) →
    (s.entry.life = .registered → s.entry.consumerGen ≠ gen) →
    Step n s (.conn c .detach)
      { s with conns := Function.update s.conns c { s.conns c with read := .detached } }
  | detach {c gen} :
    (s.conns c).read = .detaching (some gen) → s.entry.life = .registered →
    s.entry.consumerGen = gen →
    Step n s (.conn c .detach)
      { s with
        entry := { s.entry with consumerCancel := none }.armEvictLocked
        atts := cancelAtt s.atts s.entry.consumerCancel
        conns := Function.update s.conns c { s.conns c with read := .detached } }
  | closeDone {c} :
    (s.conns c).read = .detached →
    Step n s (.conn c .closeDone)
      { s with
        conns := Function.update s.conns c { s.conns c with read := .closed, done := true } }
  | timerFire {k} :
    s.entry.evictAt = some k →
    Step n s (.registry .timerFire) { s with entry := s.entry.timerFire }
  | evictStale {k} :
    k ∈ s.entry.fired → (s.entry.life = .registered → s.entry.evictEpoch ≠ k) →
    Step n s (.registry (.evictFire k))
      { s with entry := { s.entry with fired := s.entry.fired.erase k } }
  | evictFire {k} :
    k ∈ s.entry.fired → s.entry.life = .registered → s.entry.evictEpoch = k →
    Step n s (.registry (.evictFire k))
      { s with
        entry := { s.entry with fired := s.entry.fired.erase k }.remove
        teardown := .cancelConsumer .timer }
  | cancelAll :
    s.entry.life = .registered →
    Step n s (.registry .cancelAll)
      { s with entry := s.entry.remove, teardown := .cancelConsumer .shutdown }
  | cancelConsumer {k} :
    s.teardown = .cancelConsumer k →
    Step n s (.registry .teardown)
      { s with
        entry := { s.entry with consumerCancel := none }
        atts := cancelAtt s.atts s.entry.consumerCancel
        teardown := .cancelProducer k }
  | cancelProducer {k} :
    s.teardown = .cancelProducer k →
    Step n s (.registry .teardown) { s with prodCancelled := true, teardown := .closeRetain k }
  | closeRetain {k} :
    s.teardown = .closeRetain k →
    Step n s (.registry .teardown) { s with retain := s.retain.close, teardown := .idle }
  | reattachMissing {a} :
    (s.atts a).pc = .looked → s.entry.life ≠ .registered →
    (s.conns (s.atts a).conn).canSendPriority = true →
    Step n s (.opening a .reattach)
      { s with
        conns := sendPriority s.conns (s.atts a).conn
          (.openError .resumeNotPossible Entry.errSessionMissing)
        atts := Function.update s.atts a { s.atts a with pc := .refused } }
  | reattach {a} :
    (s.atts a).pc = .looked → s.entry.life = .registered →
    Step n s (.opening a .reattach)
      { s with
        entry := { s.entry with evictAt := none, evictEpoch := s.entry.evictEpoch + 1 }
        atts := Function.update s.atts a { s.atts a with pc := .reattached } }
  | prune {a} :
    (s.atts a).pc = .reattached →
    Step n s (.opening a .prune)
      { s with
        retain := s.retain.prune (s.atts a).startAfterSeq
        atts := Function.update s.atts a { s.atts a with pc := .pruned } }
  | reply {a} :
    ((s.atts a).pc = .pruned ∨ (s.atts a).pc = .registered) →
    (s.conns (s.atts a).conn).canSendPriority = true →
    Step n s (.opening a .reply)
      { s with
        conns := sendPriority s.conns (s.atts a).conn .openSession
        atts := Function.update s.atts a { s.atts a with pc := .replied } }
  | bindMissing {a} :
    (s.atts a).pc = .replied → s.entry.life ≠ .registered →
    Step n s (.opening a .bind)
      { s with
        atts := Function.update s.atts a { s.atts a with pc := .refused, cancelled := true } }
  | bind {a} :
    (s.atts a).pc = .replied → s.entry.life = .registered →
    Step n s (.opening a .bind)
      { s with
        entry := { s.entry with consumerCancel := some a, consumerGen := s.entry.consumerGen + 1 }
        atts := Function.update s.atts a
          { s.atts a with pc := .bound s.entry.consumerCancel, gen := s.entry.consumerGen + 1 } }
  | takeover {a prev} :
    (s.atts a).pc = .bound prev →
    Step n s (.opening a .takeover)
      { s with
        atts := Function.update (cancelAtt s.atts prev) a
          { cancelAtt s.atts prev a with pc := .takenOver } }
  | track {a} :
    (s.atts a).pc = .takenOver →
    Step n s (.opening a .track)
      { s with
        conns := Function.update s.conns (s.atts a).conn
          { s.conns (s.atts a).conn with sub := some a }
        atts := Function.update s.atts a
          { s.atts a with
            pc := .running
            lastSeq := (s.atts a).startAfterSeq
            slot := .waiting
            messagesSent := (countersThrough s.ledger (s.atts a).startAfterSeq).1
            bytesSent := (countersThrough s.ledger (s.atts a).startAfterSeq).2 } }
  | fetch {a env} :
    ((s.atts a).pc = .running ∧ (s.atts a).slot = .waiting ∨
      (s.atts a).pc = .draining ∧ (s.atts a).slot = .idle) →
    s.retain.next? (s.atts a).lastSeq = some env →
    Step n s (.consumer a .fetch)
      { s with atts := Function.update s.atts a { s.atts a with slot := .ready env } }
  | fetchFail {a} :
    (s.atts a).pc = .running → (s.atts a).slot = .waiting →
    s.retain.next? (s.atts a).lastSeq = none →
    (s.retain.closed = true ∨ (s.atts a).cancelled = true) →
    Step n s (.consumer a .fetchFail)
      { s with atts := Function.update s.atts a { s.atts a with slot := .idle } }
  | ackPrune {a t ts} :
    ((s.atts a).pc = .running ∨ (s.atts a).pc = .draining ∧ (s.atts a).slot = .idle) →
    s.ackCh = t :: ts →
    Step n s (.consumer a .ack) { s with ackCh := ts, retain := s.retain.prune t }
  | progressFail {a} :
    (s.atts a).pc = .running → (s.conns (s.atts a).conn).done = true →
    Step n s (.consumer a .progress)
      { s with atts := Function.update s.atts a { s.atts a with pc := .stopped .writeFailed } }
  | progress {a} :
    (s.atts a).pc = .running → (s.conns (s.atts a).conn).done = false →
    (s.conns (s.atts a).conn).canSendPriority = true →
    Step n s (.consumer a .progress)
      { s with
        conns := sendPriority s.conns (s.atts a).conn
          (.progress (s.atts a).messagesSent (s.atts a).bytesSent) }
  | sendFail {a env} :
    ((s.atts a).pc = .running ∨ (s.atts a).pc = .draining) → (s.atts a).slot = .ready env →
    (s.conns (s.atts a).conn).done = true →
    Step n s (.consumer a .send)
      { s with atts := Function.update s.atts a { s.atts a with pc := .stopped .writeFailed } }
  | send {a env} :
    ((s.atts a).pc = .running ∨ (s.atts a).pc = .draining) → (s.atts a).slot = .ready env →
    (s.conns (s.atts a).conn).done = false → (s.conns (s.atts a).conn).canSendBulk = true →
    Step n s (.consumer a .send)
      { s with
        conns := Function.update s.conns (s.atts a).conn
          ((s.conns (s.atts a).conn).pushBulk (.batch env))
        atts := Function.update s.atts a
          { s.atts a with
            lastSeq := env.seq
            slot := if (s.atts a).pc = .running then .waiting else .idle
            messagesSent := (s.atts a).messagesSent + env.messages
            bytesSent := (s.atts a).bytesSent + env.bytes
            sent := (s.atts a).sent ++ [env.seq] } }
  | ctxDone {a} :
    (s.atts a).pc = .running → (s.atts a).cancelled = true →
    Step n s (.consumer a .ctxDone)
      { s with atts := Function.update s.atts a { s.atts a with pc := .stopped .cancelled } }
  | producerDoneCancelled {a} :
    (s.atts a).pc = .running → s.producerDone = true → (s.atts a).cancelled = true →
    Step n s (.consumer a .producerDone)
      { s with atts := Function.update s.atts a { s.atts a with pc := .stopped .cancelled } }
  | producerDone {a} :
    (s.atts a).pc = .running → s.producerDone = true → (s.atts a).cancelled = false →
    Step n s (.consumer a .producerDone)
      { s with atts := Function.update s.atts a { s.atts a with pc := .draining, slot := .idle } }
  | eos {a} :
    (s.atts a).pc = .draining → (s.atts a).slot = .idle →
    s.retain.next? (s.atts a).lastSeq = none →
    (s.conns (s.atts a).conn).canSendPriority = true →
    Step n s (.consumer a .eos)
      { s with
        conns := sendPriority s.conns (s.atts a).conn
          (.eos .complete (s.atts a).messagesSent (s.atts a).bytesSent)
        terminal := logTerminal s.conns s.terminal (s.atts a).conn
          (.eos .complete (s.atts a).messagesSent (s.atts a).bytesSent)
        atts := Function.update s.atts a { s.atts a with pc := .stopped .eos } }
  | panic {a} :
    ((s.atts a).pc = .running ∨ (s.atts a).pc = .draining) →
    Step n s (.consumer a .panic)
      { s with atts := Function.update s.atts a { s.atts a with pc := .stopped .panicked } }
  | dispose {a why} :
    (s.atts a).pc = .stopped why →
    Step n s (.consumer a .dispose)
      { s with
        atts := Function.update s.atts a { s.atts a with pc := disposition (s.atts a) why } }
  | untrack {a why} :
    (s.atts a).pc = .untracking why →
    Step n s (.consumer a .untrack)
      { s with
        conns := Function.update s.conns (s.atts a).conn
          { s.conns (s.atts a).conn with sub := none }
        atts := Function.update s.atts a { s.atts a with pc := .cancelling why } }
  | consumerCancel {a why} :
    (s.atts a).pc = .cancelling why → s.entry.life = .registered →
    Step n s (.consumer a .cancel)
      { s with
        entry := s.entry.remove
        teardown := .cancelConsumer (.consumer a)
        atts := Function.update s.atts a { s.atts a with pc := .exited why } }
  | consumerGone {a why} :
    (s.atts a).pc = .cancelling why → s.entry.life ≠ .registered →
    Step n s (.consumer a .cancel)
      { s with atts := Function.update s.atts a { s.atts a with pc := .exited why } }
  | spawn :
    s.producer = .idle → (s.atts 0).pc.spawned = true →
    Step n s (.producer .spawn) { s with producer := .running }
  | record {b bs} :
    s.producer = .running → s.todo = b :: bs →
    Step n s (.producer .record)
      { s with
        todo := bs
        nextSeq := s.nextSeq + 1
        ledger := recordAppend s.ledger (s.nextSeq + 1) b.msgs.length b.bytes
        recorded := s.recorded ++ [b.envelope (s.nextSeq + 1)]
        producer := .appending
        pending := some (b.envelope (s.nextSeq + 1)) }
  | append {env} :
    s.producer = .appending → s.pending = some env → s.retain.full env = false →
    Step n s (.producer .append)
      { s with
        retain := s.retain.append env
        appended := if s.retain.closed then s.appended else s.appended ++ [env]
        producer := .running
        pending := none }
  | finish {how} :
    s.producer = .running → (how = .exhausted → s.todo = []) →
    Step n s (.producer (.finish how))
      { s with producer := if streamFatal s.prodCancelled how then .failed else .ended }
  | producerUntrack :
    s.producer = .failed →
    Step n s (.producer .untrack)
      { s with
        conns := Function.update s.conns s.opener { s.conns s.opener with sub := none }
        producer := .failedUntracked }
  | producerCancel :
    s.producer = .failedUntracked → s.entry.life = .registered →
    Step n s (.producer .cancel)
      { s with
        entry := s.entry.remove
        teardown := .cancelConsumer .producer
        producer := .failedCancelled
        holder := s.entry.consumerCancel.map (fun a => (s.atts a).conn) }
  | producerGone :
    s.producer = .failedUntracked → s.entry.life ≠ .registered →
    Step n s (.producer .cancel) { s with producer := .failedCancelled, holder := none }
  | producerError :
    s.producer = .failedCancelled → s.teardown.ownedBy .producer = false →
    (s.conns s.opener).canSendPriority = true →
    Step n s (.producer .error)
      { s with
        conns := sendPriority s.conns s.opener (.error .s3Unavailable "stream failed")
        terminal := logTerminal s.conns s.terminal s.opener (.error .s3Unavailable "stream failed")
        producer := .failedReported }
  | producerEos :
    s.producer = .failedReported → (s.conns s.opener).canSendPriority = true →
    Step n s (.producer .eos)
      { s with
        conns := sendPriority s.conns s.opener (.eos .error 0 0)
        terminal := logTerminal s.conns s.terminal s.opener (.eos .error 0 0)
        producer := .ended }
  | close :
    s.producer = .ended →
    Step n s (.producer .close) { s with producerDone := true, producer := .closed }

namespace Step
variable {n : Nat} {s : State μ}

/-- `Lookup` finds exactly the registered sessions. -/
lemma lookup_iff {e : Entry} : e.lookup = true ↔ e.life = .registered := by
  simp [Entry.lookup]

lemma of_connGuard {c act} (h : connGuard s c act = true) :
    Step n s (.conn c act) (connExec s c act) := by
  cases act with
  | poll =>
    simp only [connGuard, Bool.and_eq_true, List.isEmpty_iff, Bool.not_eq_true'] at h
    exact .poll h.1.1 h.1.2 h.2
  | writePriority =>
    simp only [connGuard, Bool.and_eq_true] at h
    obtain ⟨hw, hp⟩ := h
    cases hq : (s.conns c).priorityCh with
    | nil => simp [hq] at hp
    | cons f fs => simpa [connExec, hq] using Step.writePriority (n := n) hw hq
  | writeBulk =>
    simp only [connGuard, Bool.and_eq_true] at h
    obtain ⟨⟨hw, hp⟩, hb⟩ := h
    cases hq : (s.conns c).bulkCh with
    | nil => simp [hq] at hb
    | cons f fs => simpa [connExec, hq] using Step.writeBulk (n := n) hw hp hq
  | writeFail bulk =>
    cases bulk with
    | false =>
      simp only [connGuard, Bool.and_eq_true, Bool.false_eq_true, if_false] at h
      cases hq : (s.conns c).priorityCh with
      | nil => simp [hq] at h
      | cons f fs => simpa [connExec, hq] using Step.writeFailPriority (n := n) h.1 hq
    | true =>
      simp only [connGuard, Bool.and_eq_true, if_true] at h
      cases hq : (s.conns c).bulkCh with
      | nil => simp [hq] at h
      | cons f fs => simpa [connExec, hq] using Step.writeFailBulk (n := n) h.1 h.2.1 hq
  | ack t found =>
    simp only [connGuard, Bool.and_eq_true, decide_eq_true_eq] at h
    simp only [connExec]
    split
    case isTrue hf =>
      simp only [Bool.and_eq_true, decide_eq_true_eq] at hf
      obtain ⟨rfl, hroom⟩ := hf
      exact .ackTaken h.1 (by simpa using h.2) hroom
    case isFalse hf =>
      refine .ackDropped h.1 (by simpa using hf) fun hfound => ?_
      simpa [hfound, Entry.lookup] using h.2
  | cancelLookup =>
    simp only [connGuard, Bool.and_eq_true, decide_eq_true_eq, lookup_iff] at h
    exact .cancelLookup h.1 h.2
  | cancelSend =>
    simp only [connGuard, Bool.and_eq_true, decide_eq_true_eq] at h
    exact .cancelSend h.1 h.2
  | cancelUntrack =>
    simp only [connGuard, decide_eq_true_eq] at h
    exact .cancelUntrack h
  | cancelRemove =>
    simp only [connGuard, decide_eq_true_eq] at h
    by_cases hl : s.entry.life = .registered
    · simpa [connExec, Entry.cancel, Entry.lookup, hl] using Step.cancelRemove (n := n) h hl
    · simpa [connExec, Entry.cancel, Entry.lookup, hl] using Step.cancelGone (n := n) h hl
  | cancelReturn =>
    simp only [connGuard, Bool.and_eq_true, decide_eq_true_eq, Bool.not_eq_true'] at h
    exact .cancelReturn h.1 h.2
  | readEnd =>
    simp only [connGuard, decide_eq_true_eq] at h
    cases hs : (s.conns c).sub with
    | none => simpa [connExec, hs] using Step.readEndIdle (n := n) h hs
    | some a => simpa [connExec, hs] using Step.readEnd (n := n) h hs
  | detach =>
    cases hr : (s.conns c).read with
    | detaching gen =>
      cases gen with
      | none => simpa [connExec, hr] using Step.detachNone (n := n) hr
      | some gen =>
        by_cases hl : s.entry.life = .registered
        · by_cases hg : s.entry.consumerGen = gen
          · simpa [connExec, hr, Entry.detach, Entry.lookup, hl, hg] using
              Step.detach (n := n) hr hl hg
          · simpa [connExec, hr, Entry.detach, Entry.lookup, hl, hg, cancelAtt] using
              Step.detachStale (n := n) hr (fun _ => hg)
        · simpa [connExec, hr, Entry.detach, Entry.lookup, hl, cancelAtt] using
            Step.detachStale (n := n) hr (fun h => absurd h hl)
    | _ => simp [connGuard, hr] at h
  | closeDone =>
    simp only [connGuard, decide_eq_true_eq] at h
    exact .closeDone h

lemma of_registryGuard {act} (h : registryGuard s act = true) :
    Step n s (.registry act) (registryExec s act) := by
  cases act with
  | timerFire =>
    obtain ⟨k, hk⟩ := Option.isSome_iff_exists.mp h
    exact .timerFire hk
  | evictFire k =>
    simp only [registryGuard, decide_eq_true_eq] at h
    by_cases hk : s.entry.evictEpoch = k
    · by_cases hl : s.entry.life = .registered
      · simpa [registryExec, Entry.evictFire, Entry.lookup, hk, hl] using
          Step.evictFire (n := n) h hl hk
      · simpa [registryExec, Entry.evictFire, Entry.lookup, hk, hl] using
          Step.evictStale (n := n) h (fun h => absurd h hl)
    · simpa [registryExec, Entry.evictFire, hk] using Step.evictStale (n := n) h (fun _ => hk)
  | cancelAll =>
    have hl := lookup_iff.mp h
    simpa [registryExec, Entry.cancel, Entry.lookup, hl] using Step.cancelAll (n := n) hl
  | teardown =>
    cases ht : s.teardown with
    | idle => simp [registryGuard, ht] at h
    | cancelConsumer k => simpa [registryExec, ht] using Step.cancelConsumer (n := n) ht
    | cancelProducer k => simpa [registryExec, ht] using Step.cancelProducer (n := n) ht
    | closeRetain k => simpa [registryExec, ht] using Step.closeRetain (n := n) ht

lemma of_openGuard {a act} (h : openGuard s a act = true) :
    Step n s (.opening a act) (openExec s a act) := by
  cases act with
  | reattach =>
    simp only [openGuard, Bool.and_eq_true, Bool.or_eq_true, decide_eq_true_eq, lookup_iff] at h
    by_cases hl : s.entry.life = .registered
    · simpa [openExec, Entry.reattach, Entry.lookup, hl] using Step.reattach (n := n) h.1 hl
    · simpa [openExec, Entry.reattach, Entry.lookup, hl] using
        Step.reattachMissing (n := n) h.1 hl (h.2.resolve_left hl)
  | prune =>
    simp only [openGuard, decide_eq_true_eq] at h
    exact .prune h
  | reply =>
    simp only [openGuard, Bool.and_eq_true, Bool.or_eq_true, decide_eq_true_eq] at h
    exact .reply h.1 h.2
  | bind =>
    simp only [openGuard, decide_eq_true_eq] at h
    by_cases hl : s.entry.life = .registered
    · simpa [openExec, Entry.bindConsumerChecked, Entry.lookup, hl] using
        Step.bind (n := n) h hl
    · simpa [openExec, Entry.bindConsumerChecked, Entry.lookup, hl] using
        Step.bindMissing (n := n) h hl
  | takeover =>
    cases hp : (s.atts a).pc with
    | bound prev => simpa [openExec, hp] using Step.takeover (n := n) hp
    | _ => simp [openGuard, hp] at h
  | track =>
    simp only [openGuard, decide_eq_true_eq] at h
    exact .track h

lemma consuming_iff {pc : Pc} : pc.consuming = true ↔ pc = .running ∨ pc = .draining := by
  cases pc <;> simp [Pc.consuming]

lemma of_consumerGuard {a act} (h : consumerGuard s a act = true) :
    Step n s (.consumer a act) (consumerExec s a act) := by
  cases act with
  | fetch =>
    simp only [consumerGuard, Bool.and_eq_true, Bool.or_eq_true, decide_eq_true_eq,
      Slot.isWaiting_iff, Slot.isIdle_iff] at h
    obtain ⟨env, he⟩ := Option.isSome_iff_exists.mp h.2
    simpa [consumerExec, he] using Step.fetch (n := n) h.1 he
  | fetchFail =>
    simp only [consumerGuard, Bool.and_eq_true, Bool.or_eq_true, decide_eq_true_eq,
      Slot.isWaiting_iff, Option.isNone_iff_eq_none] at h
    exact .fetchFail h.1.1.1 h.1.1.2 h.1.2 h.2
  | ack =>
    simp only [consumerGuard, Bool.and_eq_true, Bool.or_eq_true, decide_eq_true_eq,
      Slot.isIdle_iff] at h
    cases hq : s.ackCh with
    | nil => simp [hq] at h
    | cons t ts => simpa [consumerExec, hq] using Step.ackPrune (n := n) h.1 hq
  | progress =>
    simp only [consumerGuard, Bool.and_eq_true, decide_eq_true_eq] at h
    cases hd : (s.conns (s.atts a).conn).done with
    | true => simpa [consumerExec, hd] using Step.progressFail (n := n) h.1 hd
    | false => simpa [consumerExec, hd] using Step.progress (n := n) h.1 hd h.2
  | send =>
    simp only [consumerGuard, Bool.and_eq_true, Slot.isReady_iff, consuming_iff] at h
    obtain ⟨⟨hc, env, he⟩, hs⟩ := h
    cases hd : (s.conns (s.atts a).conn).done with
    | true => simpa [consumerExec, execSend, he, hd] using Step.sendFail (n := n) hc he hd
    | false => simpa [consumerExec, execSend, he, hd] using Step.send (n := n) hc he hd hs
  | ctxDone =>
    simp only [consumerGuard, Bool.and_eq_true, decide_eq_true_eq] at h
    exact .ctxDone h.1 h.2
  | producerDone =>
    simp only [consumerGuard, Bool.and_eq_true, decide_eq_true_eq] at h
    cases hc : (s.atts a).cancelled with
    | true =>
      simpa [consumerExec, hc] using Step.producerDoneCancelled (n := n) h.1 h.2 hc
    | false => simpa [consumerExec, hc] using Step.producerDone (n := n) h.1 h.2 hc
  | eos =>
    simp only [consumerGuard, Bool.and_eq_true, decide_eq_true_eq, Slot.isIdle_iff,
      Option.isNone_iff_eq_none] at h
    exact .eos h.1.1.1 h.1.1.2 h.1.2 h.2
  | panic => exact .panic (consuming_iff.mp h)
  | dispose =>
    cases hp : (s.atts a).pc with
    | stopped why => simpa [consumerExec, hp] using Step.dispose (n := n) hp
    | _ => simp [consumerGuard, hp] at h
  | untrack =>
    cases hp : (s.atts a).pc with
    | untracking why => simpa [consumerExec, hp] using Step.untrack (n := n) hp
    | _ => simp [consumerGuard, hp] at h
  | cancel =>
    cases hp : (s.atts a).pc with
    | cancelling why =>
      by_cases hl : s.entry.life = .registered
      · simpa [consumerExec, hp, Entry.cancel, Entry.lookup, hl] using
          Step.consumerCancel (n := n) hp hl
      · simpa [consumerExec, hp, Entry.cancel, Entry.lookup, hl] using
          Step.consumerGone (n := n) hp hl
    | _ => simp [consumerGuard, hp] at h

lemma of_producerGuard {act} (h : producerGuard s act = true) :
    Step n s (.producer act) (producerExec s act) := by
  cases act with
  | spawn =>
    simp only [producerGuard, Bool.and_eq_true, decide_eq_true_eq] at h
    exact .spawn h.1 h.2
  | record =>
    simp only [producerGuard, Bool.and_eq_true, decide_eq_true_eq] at h
    cases ht : s.todo with
    | nil => simp [ht] at h
    | cons b bs => simpa [producerExec, ht] using Step.record (n := n) h.1 ht
  | append =>
    cases hp : s.pending with
    | none => simp [producerGuard, hp] at h
    | some env =>
      simp only [producerGuard, hp, Bool.and_eq_true, decide_eq_true_eq, Bool.not_eq_true'] at h
      simpa [producerExec, hp] using Step.append (n := n) h.1 hp h.2
  | finish how =>
    simp only [producerGuard, Bool.and_eq_true, Bool.or_eq_true, decide_eq_true_eq,
      List.isEmpty_iff] at h
    exact .finish h.1 (fun hh => h.2.resolve_left (fun hne => hne hh))
  | untrack =>
    simp only [producerGuard, decide_eq_true_eq] at h
    exact .producerUntrack h
  | cancel =>
    simp only [producerGuard, decide_eq_true_eq] at h
    by_cases hl : s.entry.life = .registered
    · simpa [producerExec, Entry.cancel, Entry.lookup, hl] using
        Step.producerCancel (n := n) h hl
    · simpa [producerExec, Entry.cancel, Entry.lookup, hl] using Step.producerGone (n := n) h hl
  | error =>
    simp only [producerGuard, Bool.and_eq_true, decide_eq_true_eq, Bool.not_eq_true'] at h
    exact .producerError h.1.1 h.1.2 h.2
  | eos =>
    simp only [producerGuard, Bool.and_eq_true, decide_eq_true_eq] at h
    exact .producerEos h.1 h.2
  | close =>
    simp only [producerGuard, decide_eq_true_eq] at h
    exact .close h

/-- The machine does nothing but the listed steps. -/
theorem of_guard {a} (h : guard n s a = true) : Step n s a (exec n s a) := by
  cases a with
  | openFresh c k =>
    simp only [guard, Bool.and_eq_true, Bool.or_eq_true, decide_eq_true_eq] at h
    by_cases hk : n ≤ k
    · simpa [exec, execOpenFresh, Entry.register, hk] using
        Step.openFreshFull h.1 hk (h.2.resolve_left (Nat.not_lt.mpr hk))
    · simpa [exec, execOpenFresh, Entry.register, hk] using
        Step.openFresh (c := c) h.1 (Nat.lt_of_not_le hk)
  | openResume c m =>
    simp only [guard, Bool.and_eq_true, Bool.or_eq_true, decide_eq_true_eq, lookup_iff] at h
    by_cases hl : s.entry.life = .registered
    · by_cases hm : highestAppendedSeq s.ledger < m
      · simpa [exec, execOpenResume, Entry.lookup, hl, hm] using
          Step.openResumeBeyond (n := n) hl hm (h.resolve_left (fun h => Nat.not_le.mpr hm h.2))
      · simpa [exec, execOpenResume, Entry.lookup, hl, hm] using
          Step.openResume (n := n) (c := c) hl (Nat.le_of_not_lt hm)
    · simpa [exec, execOpenResume, Entry.lookup, hl] using
        Step.openResumeMissing (n := n) (m := m) hl (h.resolve_left (fun h => hl h.1))
  | conn c act => exact of_connGuard h
  | registry act => exact of_registryGuard h
  | opening a act => exact of_openGuard h
  | consumer a act => exact of_consumerGuard h
  | producer act => exact of_producerGuard h

end Step

/-- The invariant rule of the server, over the runs whose steps all meet `ok`. -/
lemma only_invariant {n : Nat} {ok : State μ → Action → Bool} (Inv : State μ → Prop)
    (hinit : ∀ opts plan, Inv (State.start opts plan))
    (hstep : ∀ s a s', ((server n).only ok).Reach s → ok s a = true → Step n s a s' →
      Inv s → Inv s')
    {s} (rch : ((server n).only ok).Reach s) : Inv s := by
  refine rch.invariant ?_ ?_
  · rintro s ⟨opts, plan, rfl⟩
    exact hinit opts plan
  · intro s a rch inv hg
    obtain ⟨hg, hok⟩ := Machine.only_guard.mp hg
    exact hstep s a _ rch hok (.of_guard hg) inv

/-- The invariant rule of the server, over all runs. -/
lemma server_invariant {n : Nat} (Inv : State μ → Prop)
    (hinit : ∀ opts plan, Inv (State.start opts plan))
    (hstep : ∀ s a s', (server n).Reach s → Step n s a s' → Inv s → Inv s')
    {s} (rch : (server n).Reach s) : Inv s := by
  refine rch.invariant ?_ ?_
  · rintro s ⟨opts, plan, rfl⟩
    exact hinit opts plan
  · intro s a rch inv hg
    exact hstep s a _ rch (.of_guard hg) inv

lemma replay_reach {n : Nat} {opts plan as} {p : State μ → Bool}
    (e : ((server n).replay (State.start opts plan) as).any p = true) :
    ∃ s, (server n).Reach s ∧ p s = true :=
  Machine.Reach.replay_any (.init ⟨opts, plan, rfl⟩) e

/-- A property tested at the end of a replayed run whose steps all meet `ok`. -/
lemma replay_only_reach {n : Nat} {ok : State μ → Action → Bool} {opts plan as}
    {p : State μ → Bool}
    (e : (((server n).only ok).replay (State.start opts plan) as).any p = true) :
    ∃ s, ((server n).only ok).Reach s ∧ p s = true :=
  Machine.Reach.replay_any (.init ⟨opts, plan, rfl⟩) e

end PjCloud.Session
