import Mathlib.Logic.Function.Basic
import PjCloud.Lib.Machine
import PjCloud.Session.State

/-!
# Server steps

The machine of one session on the server. Every action is one atomic section of the source: a critical
section under a mutex, a channel operation, or the call of a cancel function. A blocking operation is
an action whose guard is the condition under which it does not block. Requests of clients
(`openFresh`, `openResume`, `ack`, `cancelLookup`) and the end of a connection (`readEnd`) are actions
too, so the machine has every interleaving of any number of connections.

An attachment is numbered by the order in which its handler first touched the session; number `0` is
therefore the one of `openFresh`.
-/

namespace PjCloud.Session
open PjCloud.Lib
variable {μ : Type}

/-- What the goroutines of one connection do. -/
inductive ConnAct where
  | poll
  | writePriority
  | writeBulk
  | writeFail (bulk : Bool)
  | ack (throughSeq : Nat) (found : Bool)
  | cancelLookup
  | cancelSend
  | cancelUntrack
  | cancelRemove
  | cancelReturn
  | readEnd
  | detach
  | closeDone
  deriving DecidableEq, Repr

/-- What eviction timers, shutdown and the teardown of a removed session do. -/
inductive RegistryAct where
  | timerFire
  | evictFire (epoch : Nat)
  | cancelAll
  | teardown
  deriving DecidableEq, Repr

/-- What an `OpenSession` handler does after its first effect. -/
inductive OpenAct where
  | reattach
  | prune
  | reply
  | bind
  | takeover
  | track
  deriving DecidableEq, Repr

/-- What a consumer does, including the disposition after `Consumer.Run`. -/
inductive ConsumerAct where
  | fetch
  | fetchFail
  | ack
  | progress
  | send
  | ctxDone
  | producerDone
  | eos
  | panic
  | dispose
  | untrack
  | cancel
  deriving DecidableEq, Repr

/-- What the producer goroutine does. -/
inductive ProducerAct where
  | spawn
  | record
  | append
  | finish (how : Outcome)
  | untrack
  | cancel
  | error
  | eos
  | close
  deriving DecidableEq, Repr

/-- The actions of the server. -/
inductive Action where
  | openFresh (c active : Nat)
  | openResume (c cursor : Nat)
  | conn (c : Nat) (act : ConnAct)
  | registry (act : RegistryAct)
  | opening (a : Nat) (act : OpenAct)
  | consumer (a : Nat) (act : ConsumerAct)
  | producer (act : ProducerAct)
  deriving DecidableEq, Repr

/-! ## Connections -/

/-- When a connection can act (`runWriteLoop`, `handleAck`, `handleCancel`, `detachAll`). -/
def connGuard (s : State μ) (c : Nat) : ConnAct → Bool
  | .poll => (s.conns c).writing && (s.conns c).priorityCh.isEmpty && !(s.conns c).polled
  | .writePriority => (s.conns c).writing && !(s.conns c).priorityCh.isEmpty
  | .writeBulk => (s.conns c).writing && (s.conns c).polled && !(s.conns c).bulkCh.isEmpty
  | .writeFail bulk =>
    (s.conns c).writing &&
      if bulk then (s.conns c).polled && !(s.conns c).bulkCh.isEmpty
      else !(s.conns c).priorityCh.isEmpty
  | .ack _ found =>
    decide ((s.conns c).read = .reading) &&
      if found then decide (s.entry.life ≠ .unregistered) else !s.entry.lookup
  | .cancelLookup => decide ((s.conns c).read = .reading) && s.entry.lookup
  | .cancelSend => decide ((s.conns c).read = .cancelLooked) && (s.conns c).canSendPriority
  | .cancelUntrack => decide ((s.conns c).read = .cancelSent)
  | .cancelRemove => decide ((s.conns c).read = .cancelUntracked)
  | .cancelReturn =>
    decide ((s.conns c).read = .cancelRemoved) && !s.teardown.ownedBy (.conn c)
  | .readEnd => decide ((s.conns c).read = .reading)
  | .detach =>
    match (s.conns c).read with
    | .detaching _ => true
    | _ => false
  | .closeDone => decide ((s.conns c).read = .detached)

/-- The state after a connection has acted. -/
def connExec (s : State μ) (c : Nat) : ConnAct → State μ
  | .poll => { s with conns := Function.update s.conns c { s.conns c with polled := true } }
  | .writePriority =>
    { s with
      conns := Function.update s.conns c
        { s.conns c with
          priorityCh := (s.conns c).priorityCh.tail
          wire := (s.conns c).wire ++ (s.conns c).priorityCh.head?.toList
          polled := false } }
  | .writeBulk =>
    { s with
      conns := Function.update s.conns c
        { s.conns c with
          bulkCh := (s.conns c).bulkCh.tail
          wire := (s.conns c).wire ++ (s.conns c).bulkCh.head?.toList
          polled := false } }
  | .writeFail bulk =>
    { s with
      conns := Function.update s.conns c
        { s.conns c with
          priorityCh := if bulk then (s.conns c).priorityCh else (s.conns c).priorityCh.tail
          bulkCh := if bulk then (s.conns c).bulkCh.tail else (s.conns c).bulkCh
          writing := false
          done := true } }
  -- a lookup that found the session may be followed by its removal; a full channel drops the ack
  | .ack n found =>
    if found && decide (s.ackCh.length < ackChanCap) then { s with ackCh := s.ackCh ++ [n] } else s
  | .cancelLookup =>
    { s with
      conns := Function.update s.conns c { s.conns c with read := .cancelLooked }
      cancels := c :: s.cancels }
  | .cancelSend =>
    { s with
      conns := Function.update s.conns c
        { (s.conns c).sendPriority (.eos .cancelled 0 0) with read := .cancelSent }
      terminal := logTerminal s.conns s.terminal c (.eos .cancelled 0 0) }
  | .cancelUntrack =>
    { s with
      conns := Function.update s.conns c { s.conns c with sub := none, read := .cancelUntracked } }
  | .cancelRemove =>
    { s with
      entry := s.entry.cancel.1
      teardown := if s.entry.cancel.2 then .cancelConsumer (.conn c) else s.teardown
      conns := Function.update s.conns c { s.conns c with read := .cancelRemoved }
      cancels := s.cancels.erase c }
  | .cancelReturn =>
    { s with conns := Function.update s.conns c { s.conns c with read := .reading } }
  -- the snapshot of `detachAll`: flag the tracked handle and remember its generation
  | .readEnd =>
    match (s.conns c).sub with
    | none =>
      { s with conns := Function.update s.conns c { s.conns c with read := .detaching none } }
    | some a =>
      { s with
        conns := Function.update s.conns c
          { s.conns c with read := .detaching (some (s.atts a).gen) }
        atts := Function.update s.atts a { s.atts a with detaching := true } }
  | .detach =>
    match (s.conns c).read with
    | .detaching (some gen) =>
      { s with
        entry := (s.entry.detach gen).1
        atts := cancelAtt s.atts (s.entry.detach gen).2
        conns := Function.update s.conns c { s.conns c with read := .detached } }
    | _ => { s with conns := Function.update s.conns c { s.conns c with read := .detached } }
  | .closeDone =>
    { s with
      conns := Function.update s.conns c { s.conns c with read := .closed, done := true } }

/-! ## Registry timers and teardown -/

/-- When the registry's timers and the teardown can act. -/
def registryGuard (s : State μ) : RegistryAct → Bool
  | .timerFire => s.entry.evictAt.isSome
  | .evictFire epoch => decide (epoch ∈ s.entry.fired)
  | .cancelAll => s.entry.lookup
  | .teardown => decide (s.teardown ≠ .idle)

/-- The state after a timer, `CancelAll` or the teardown has acted. -/
def registryExec (s : State μ) : RegistryAct → State μ
  | .timerFire => { s with entry := s.entry.timerFire }
  | .evictFire epoch =>
    { s with
      entry := (s.entry.evictFire epoch).1
      teardown := if (s.entry.evictFire epoch).2 then .cancelConsumer .timer else s.teardown }
  | .cancelAll =>
    { s with
      entry := s.entry.cancel.1
      teardown := if s.entry.cancel.2 then .cancelConsumer .shutdown else s.teardown }
  -- `teardown`: cancel the consumer, then the producer, then close the retain buffer
  | .teardown =>
    match s.teardown with
    | .idle => s
    | .cancelConsumer k =>
      { s with
        entry := { s.entry with consumerCancel := none }
        atts := cancelAtt s.atts s.entry.consumerCancel
        teardown := .cancelProducer k }
    | .cancelProducer k => { s with prodCancelled := true, teardown := .closeRetain k }
    | .closeRetain _ => { s with retain := s.retain.close, teardown := .idle }

/-! ## Handlers -/

/-- `Register` and, at capacity, the refusal (`openFresh`, part e). -/
def execOpenFresh (maxConcurrent : Nat) (s : State μ) (c active : Nat) : State μ :=
  match s.entry.register maxConcurrent active with
  | .error message =>
    { s with conns := sendPriority s.conns c (.openError .resourceLimit message) }
  | .ok entry =>
    { s with
      entry := entry
      opener := c
      atts := Function.update s.atts s.natts { conn := c, pc := .registered }
      natts := s.natts + 1 }

def beyondWatermark (cursor high : Nat) : String :=
  s!"resume_after_seq {cursor} is beyond the produced watermark {high}"

/-- The lookup and the cursor check of `openResume`. -/
def execOpenResume (s : State μ) (c cursor : Nat) : State μ :=
  if !s.entry.lookup then
    { s with
      conns := sendPriority s.conns c
        (.openError .resumeNotPossible "session evicted or never existed") }
  else if cursor > highestAppendedSeq s.ledger then
    { s with
      conns := sendPriority s.conns c
        (.openError .resumeNotPossible (beyondWatermark cursor (highestAppendedSeq s.ledger))) }
  else
    { s with
      atts := Function.update s.atts s.natts { conn := c, startAfterSeq := cursor, pc := .looked }
      natts := s.natts + 1 }

/-- When a handler can go on. -/
def openGuard (s : State μ) (a : Nat) : OpenAct → Bool
  | .reattach =>
    decide ((s.atts a).pc = .looked) &&
      (s.entry.lookup || (s.conns (s.atts a).conn).canSendPriority)
  | .prune => decide ((s.atts a).pc = .reattached)
  | .reply =>
    (decide ((s.atts a).pc = .pruned) || decide ((s.atts a).pc = .registered)) &&
      (s.conns (s.atts a).conn).canSendPriority
  | .bind => decide ((s.atts a).pc = .replied)
  | .takeover =>
    match (s.atts a).pc with
    | .bound _ => true
    | _ => false
  | .track => decide ((s.atts a).pc = .takenOver)

/-- The state after a handler has acted (`openResume`, `openFresh`, `spawnConsumer`). -/
def openExec (s : State μ) (a : Nat) : OpenAct → State μ
  | .reattach =>
    match s.entry.reattach with
    | .error message =>
      { s with
        conns := sendPriority s.conns (s.atts a).conn (.openError .resumeNotPossible message)
        atts := Function.update s.atts a { s.atts a with pc := .refused } }
    | .ok entry =>
      { s with
        entry := entry
        atts := Function.update s.atts a { s.atts a with pc := .reattached } }
  | .prune =>
    { s with
      retain := s.retain.prune (s.atts a).startAfterSeq
      atts := Function.update s.atts a { s.atts a with pc := .pruned } }
  | .reply =>
    { s with
      conns := sendPriority s.conns (s.atts a).conn .openSession
      atts := Function.update s.atts a { s.atts a with pc := .replied } }
  | .bind =>
    match s.entry.bindConsumerChecked a with
    | none =>
      { s with atts := Function.update s.atts a { s.atts a with pc := .refused, cancelled := true } }
    | some (entry, gen, prev) =>
      { s with
        entry := entry
        atts := Function.update s.atts a { s.atts a with pc := .bound prev, gen := gen } }
  | .takeover =>
    match (s.atts a).pc with
    | .bound prev =>
      { s with
        atts := Function.update (cancelAtt s.atts prev) a
          { cancelAtt s.atts prev a with pc := .takenOver } }
    | _ => s
  -- `trackSubscription`, the counters from the ledger, and the consumer's first `requestNext`
  | .track =>
    { s with
      conns := Function.update s.conns (s.atts a).conn
        { s.conns (s.atts a).conn with sub := some a }
      atts := Function.update s.atts a
        { s.atts a with
          pc := .running
          lastSeq := (s.atts a).startAfterSeq
          slot := .waiting
          messagesSent := (countersThrough s.ledger (s.atts a).startAfterSeq).1
          bytesSent := (countersThrough s.ledger (s.atts a).startAfterSeq).2 } }

/-! ## Consumers -/

/-- The consumer is in `Run`'s loop or in `drainAndEos`. -/
def Pc.consuming : Pc → Bool
  | .running => true
  | .draining => true
  | _ => false

/-- When a consumer can act (`Consumer.Run`, `drainAndEos`, the goroutine of `spawnConsumer`). -/
def consumerGuard (s : State μ) (a : Nat) : ConsumerAct → Bool
  | .fetch =>
    ((decide ((s.atts a).pc = .running) && (s.atts a).slot.isWaiting) ||
        (decide ((s.atts a).pc = .draining) && (s.atts a).slot.isIdle)) &&
      (s.retain.next? (s.atts a).lastSeq).isSome
  | .fetchFail =>
    decide ((s.atts a).pc = .running) && (s.atts a).slot.isWaiting &&
      (s.retain.next? (s.atts a).lastSeq).isNone && (s.retain.closed || (s.atts a).cancelled)
  | .ack =>
    (decide ((s.atts a).pc = .running) ||
        (decide ((s.atts a).pc = .draining) && (s.atts a).slot.isIdle)) &&
      !s.ackCh.isEmpty
  | .progress => decide ((s.atts a).pc = .running) && (s.conns (s.atts a).conn).canSendPriority
  | .send =>
    (s.atts a).pc.consuming && (s.atts a).slot.isReady &&
      (s.conns (s.atts a).conn).canSendBulk
  | .ctxDone => decide ((s.atts a).pc = .running) && (s.atts a).cancelled
  | .producerDone => decide ((s.atts a).pc = .running) && s.producerDone
  | .eos =>
    decide ((s.atts a).pc = .draining) && (s.atts a).slot.isIdle &&
      (s.retain.next? (s.atts a).lastSeq).isNone && (s.conns (s.atts a).conn).canSendPriority
  | .panic => (s.atts a).pc.consuming
  | .dispose =>
    match (s.atts a).pc with
    | .stopped _ => true
    | _ => false
  | .untrack =>
    match (s.atts a).pc with
    | .untracking _ => true
    | _ => false
  | .cancel =>
    match (s.atts a).pc with
    | .cancelling _ => true
    | _ => false

/-- `sendBatch` of a fetched batch. -/
def execSend (s : State μ) (a : Nat) (env : BatchEnvelope μ) : State μ :=
  if (s.conns (s.atts a).conn).done then
    { s with atts := Function.update s.atts a { s.atts a with pc := .stopped .writeFailed } }
  else
    { s with
      conns := Function.update s.conns (s.atts a).conn
        ((s.conns (s.atts a).conn).pushBulk (.batch env))
      atts := Function.update s.atts a
        { s.atts a with
          lastSeq := env.seq
          slot := if (s.atts a).pc = .running then .waiting else .idle
          messagesSent := (s.atts a).messagesSent + env.messages
          bytesSent := (s.atts a).bytesSent + env.bytes
          sent := (s.atts a).sent ++ [env.seq] } }

/-- The disposition of a consumer whose `Run` has returned (the `switch` of `spawnConsumer`). -/
def disposition (x : Attachment μ) (why : Cause) : Pc :=
  match why with
  | .panicked => .untracking why
  | .writeFailed => .exited why
  | _ => if x.detaching then .exited why else if x.cancelled then .exited why else .untracking why

/-- The state after a consumer has acted. -/
def consumerExec (s : State μ) (a : Nat) : ConsumerAct → State μ
  | .fetch =>
    match s.retain.next? (s.atts a).lastSeq with
    | some env => { s with atts := Function.update s.atts a { s.atts a with slot := .ready env } }
    | none => s
  | .fetchFail => { s with atts := Function.update s.atts a { s.atts a with slot := .idle } }
  | .ack =>
    match s.ackCh with
    | n :: rest => { s with ackCh := rest, retain := s.retain.prune n }
    | [] => s
  | .progress =>
    if (s.conns (s.atts a).conn).done then
      { s with atts := Function.update s.atts a { s.atts a with pc := .stopped .writeFailed } }
    else
      { s with
        conns := sendPriority s.conns (s.atts a).conn
          (.progress (s.atts a).messagesSent (s.atts a).bytesSent) }
  | .send =>
    match (s.atts a).slot with
    | .ready env => execSend s a env
    | _ => s
  | .ctxDone =>
    { s with atts := Function.update s.atts a { s.atts a with pc := .stopped .cancelled } }
  -- a consumer whose own context is cancelled leaves the terminal frame to whoever cancelled it
  | .producerDone =>
    if (s.atts a).cancelled then
      { s with atts := Function.update s.atts a { s.atts a with pc := .stopped .cancelled } }
    else
      { s with atts := Function.update s.atts a { s.atts a with pc := .draining, slot := .idle } }
  | .eos =>
    { s with
      conns := sendPriority s.conns (s.atts a).conn
        (.eos .complete (s.atts a).messagesSent (s.atts a).bytesSent)
      terminal := logTerminal s.conns s.terminal (s.atts a).conn
        (.eos .complete (s.atts a).messagesSent (s.atts a).bytesSent)
      atts := Function.update s.atts a { s.atts a with pc := .stopped .eos } }
  | .panic =>
    { s with atts := Function.update s.atts a { s.atts a with pc := .stopped .panicked } }
  | .dispose =>
    match (s.atts a).pc with
    | .stopped why =>
      { s with
        atts := Function.update s.atts a { s.atts a with pc := disposition (s.atts a) why } }
    | _ => s
  | .untrack =>
    match (s.atts a).pc with
    | .untracking why =>
      { s with
        conns := Function.update s.conns (s.atts a).conn
          { s.conns (s.atts a).conn with sub := none }
        atts := Function.update s.atts a { s.atts a with pc := .cancelling why } }
    | _ => s
  | .cancel =>
    match (s.atts a).pc with
    | .cancelling why =>
      { s with
        entry := s.entry.cancel.1
        teardown := if s.entry.cancel.2 then .cancelConsumer (.consumer a) else s.teardown
        atts := Function.update s.atts a { s.atts a with pc := .exited why } }
    | _ => s

/-! ## Producer -/

/-- The handler of `openFresh` has returned from `spawnConsumer`. -/
def Pc.spawned : Pc → Bool
  | .running => true
  | .draining => true
  | .stopped _ => true
  | .untracking _ => true
  | .cancelling _ => true
  | .exited _ => true
  | .refused => true
  | _ => false

/-- When the producer goroutine can act. -/
def producerGuard (s : State μ) : ProducerAct → Bool
  | .spawn => decide (s.producer = .idle) && (s.atts 0).pc.spawned
  | .record => decide (s.producer = .running) && !s.todo.isEmpty
  | .append =>
    match s.pending with
    | some env => decide (s.producer = .appending) && !s.retain.full env
    | none => false
  | .finish how =>
    decide (s.producer = .running) && (decide (how ≠ .exhausted) || s.todo.isEmpty)
  | .untrack => decide (s.producer = .failed)
  | .cancel => decide (s.producer = .failedUntracked)
  | .error =>
    decide (s.producer = .failedCancelled) && !s.teardown.ownedBy .producer &&
      (s.conns s.opener).canSendPriority
  | .eos => decide (s.producer = .failedReported) && (s.conns s.opener).canSendPriority
  | .close => decide (s.producer = .ended)

/-- `streamFatal`: a panic, or an error while the producer's context is live. -/
def streamFatal (prodCancelled : Bool) : Outcome → Bool
  | .exhausted => false
  | .failed => !prodCancelled
  | .panicked => true

/-- The state after the producer goroutine has acted. -/
def producerExec (s : State μ) : ProducerAct → State μ
  | .spawn => { s with producer := .running }
  -- `flush` writes the ledger before the batch becomes visible
  | .record =>
    match s.todo with
    | b :: rest =>
      { s with
        todo := rest
        nextSeq := s.nextSeq + 1
        ledger := recordAppend s.ledger (s.nextSeq + 1) b.msgs.length b.bytes
        recorded := s.recorded ++ [b.envelope (s.nextSeq + 1)]
        producer := .appending
        pending := some (b.envelope (s.nextSeq + 1)) }
    | [] => s
  | .append =>
    match s.pending with
    | some env =>
      { s with
        retain := s.retain.append env
        appended := if s.retain.closed then s.appended else s.appended ++ [env]
        producer := .running
        pending := none }
    | none => s
  | .finish how =>
    { s with producer := if streamFatal s.prodCancelled how then .failed else .ended }
  | .untrack =>
    { s with
      conns := Function.update s.conns s.opener { s.conns s.opener with sub := none }
      producer := .failedUntracked }
  | .cancel =>
    { s with
      entry := s.entry.cancel.1
      teardown := if s.entry.cancel.2 then .cancelConsumer .producer else s.teardown
      producer := .failedCancelled
      holder :=
        if s.entry.lookup then s.entry.consumerCancel.map (fun a => (s.atts a).conn) else none }
  | .error =>
    { s with
      conns := sendPriority s.conns s.opener (.error .s3Unavailable "stream failed")
      terminal := logTerminal s.conns s.terminal s.opener (.error .s3Unavailable "stream failed")
      producer := .failedReported }
  | .eos =>
    { s with
      conns := sendPriority s.conns s.opener (.eos .error 0 0)
      terminal := logTerminal s.conns s.terminal s.opener (.eos .error 0 0)
      producer := .ended }
  | .close => { s with producerDone := true, producer := .closed }

/-! ## The machine -/

/-- When an action can be taken. Only a refusal has to wait for room in the priority channel. -/
def guard (maxConcurrent : Nat) (s : State μ) : Action → Bool
  | .openFresh c active =>
    decide (s.entry.life = .unregistered) &&
      (decide (active < maxConcurrent) || (s.conns c).canSendPriority)
  | .openResume c cursor =>
    (s.entry.lookup && decide (cursor ≤ highestAppendedSeq s.ledger)) ||
      (s.conns c).canSendPriority
  | .conn c act => connGuard s c act
  | .registry act => registryGuard s act
  | .opening a act => openGuard s a act
  | .consumer a act => consumerGuard s a act
  | .producer act => producerGuard s act

/-- The state after an action. -/
def exec (maxConcurrent : Nat) (s : State μ) : Action → State μ
  | .openFresh c active => execOpenFresh maxConcurrent s c active
  | .openResume c cursor => execOpenResume s c cursor
  | .conn c act => connExec s c act
  | .registry act => registryExec s act
  | .opening a act => openExec s a act
  | .consumer a act => consumerExec s a act
  | .producer act => producerExec s act

/-- The server as a machine, for any retain caps, any plan and any session limit. -/
def server (maxConcurrent : Nat) : Machine (State μ) Action where
  init s := ∃ opts plan, s = State.start opts plan
  guard := guard maxConcurrent
  exec := exec maxConcurrent

end PjCloud.Session
