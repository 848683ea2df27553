import PjCloud.Lib.Machine
import PjCloud.Pull.Tee

/-!
# A pull

`FetchWorker::pull` of `fetch_worker.cpp`, from the start of the cache tee to its end, and the same part of
`pullTopicsAsync`, which is the pull without ceilings. The pull thread, the writer thread of the tee and those that
cancel go in any order; each step is one critical section, one answer of the server or the host, or one operation on a
file. A cancel is two steps: the flag is set, and then the tee is told to abort, if it is known by then.
-/

namespace PjCloud.Pull
open Lib

/-- `SessionEos` -/
inductive Eos where
  | unset
  | complete
  | cancelled
  | error
  deriving DecidableEq, Repr

inductive TeeOutcome where
  | none
  | finalized
  | existingValid
  | failed
  | aborted
  deriving DecidableEq, Repr

/-- `PullTerminal` -/
inductive Terminal where
  | complete
  | failed
  | cancelled
  deriving DecidableEq, Repr

/-- What a pull is limited to; nothing where it is zero. `announces` is whether it tells of its dataset. -/
structure Request where
  maxTransferBytes : Nat := 0
  maxTransferDuration : Nat := 0
  announces : Bool := false
  deriving DecidableEq, Repr

namespace Request

def bytesExceeded (r : Request) (bytes : Nat) : Bool :=
  decide (0 < r.maxTransferBytes) && decide (r.maxTransferBytes < bytes)

def durationExceeded (r : Request) (elapsed : Nat) : Bool :=
  decide (0 < r.maxTransferDuration) && decide (r.maxTransferDuration < elapsed)

def durationReached (r : Request) (elapsed : Nat) : Bool :=
  decide (0 < r.maxTransferDuration) && decide (r.maxTransferDuration ≤ elapsed)

end Request

/-- Where the pull goes on after `abortAndCleanup`. -/
inductive After where
  | ready
  | decode (m : Message)
  | leave
  deriving DecidableEq, Repr

/-- Where the pull thread is. From `checking` to `ticking` it handles a message; in `draining` it waits for the writer
to end, and in `joining` as well. -/
inductive Pc where
  | begun
  | opened
  | ready
  | created
  | announced
  | streaming
  | checking (m : Message)
  | offering (m : Message)
  | refused (m : Message)
  | decoding (m : Message)
  | ticking
  | ended
  | snapped
  | draining
  | drained (ok : Bool)
  | finalizing
  | renamed
  | shutting (after : After)
  | joining (after : After)
  | done
  deriving DecidableEq, Repr

def After.pc : After → Pc
  | .ready => .ready
  | .decode m => .decoding m
  | .leave => .done

/-- A pull. `hook` is whether `requestCancel` knows the tee; `snapshot` is `cancelled_after_download`; `left` is the
terminal of a pull that did not come to its end. `delivered` are the messages that the handler was called with, and
`published` is the file that was renamed into the cache. -/
structure Fetch where
  pc : Pc := .begun
  cancelFlag : Bool := false
  hook : Bool := false
  tee : Option Tee := none
  partialFile : Option (List Message) := none
  published : Option (List Message) := none
  info : SessionInfo := ⟨0, [], []⟩
  driver : Driver := {}
  delivered : List Message := []
  received : Nat := 0
  wire : Nat := 0
  elapsed : Nat := 0
  bytesOver : Bool := false
  durationOver : Bool := false
  eos : Eos := .unset
  snapshot : Option Bool := none
  left : Option Terminal := none
  dataset : Option Nat := none
  announced : Option Nat := none
  teeOutcome : TeeOutcome := .none
  deriving DecidableEq, Repr

inductive Event where
  | openSession (info : SessionInfo)
  | openWriter (ok : Bool)
  | create (dataset : Nat)
  | announce
  | bind (ingest : Except String Unit)
  | leave (cancelled : Bool)
  | throw
  | deliver (m : Message)
  | check (bytes elapsed : Nat)
  | offer
  | inspect
  | decode (binding : Except String Unit) (pushed : Bool)
  | tick (goOn : Bool)
  | finish (eos : Eos)
  | snapshot
  | judge (bytes elapsed : Nat)
  | drain (ok : Bool)
  | settle
  | publish (ok : Bool)
  | handOff (ok : Bool)
  | shut
  | join
  | take
  | quit
  | wrote (ok : Bool)
  | cancel
  | abort
  deriving DecidableEq

namespace Fetch

@[simp] def goto (s : Fetch) (pc : Pc) : Fetch := { s with pc }

@[simp] def setTee (s : Fetch) (t : Tee) : Fetch := { s with tee := some t }

@[simp] def leave (s : Fetch) (terminal : Terminal) : Fetch :=
  { s with left := some terminal, hook := false, pc := .shutting .leave }

@[simp] def endWith (s : Fetch) (eos : Eos) : Fetch := { s with eos, pc := .ended }

/-- What `finishCacheTee` takes for complete. -/
def complete (s : Fetch) : Bool :=
  decide (s.eos = .complete) && decide (s.snapshot = some false) && !s.bytesOver && !s.durationOver

/-- `finishCacheTee` is left with an outcome. -/
@[simp] def finishTee (s : Fetch) (teeOutcome : TeeOutcome) : Fetch := { s with teeOutcome, pc := .shutting .leave }

/-- `SessionFileCache::finalize` renames the partial. -/
@[simp] def rename (s : Fetch) (file : List Message) : Fetch :=
  { s with published := some file, partialFile := none, pc := .renamed }

/-- The writer has written a message into the partial, unless its topic is not known. -/
@[simp] def append (s : Fetch) (t : Tee) (m : Message) : Fetch :=
  { s with tee := some (t.wrote m), partialFile := s.partialFile.map (· ++ onlyKnown t.known [m]) }

/-- The end of `abortAndCleanup`, and of the tee. -/
@[simp] def removeTee (s : Fetch) (t : Tee) (after : After) : Fetch :=
  { s with
    tee := none
    hook := false
    partialFile := if t.finalized then s.partialFile else none
    pc := after.pc }

/-- The final check of the ceilings. -/
@[simp] def judge (s : Fetch) (r : Request) (bytes elapsed : Nat) : Fetch :=
  { s with
    wire := bytes
    elapsed
    bytesOver := s.bytesOver || r.bytesExceeded bytes
    durationOver := s.durationOver || r.durationReached elapsed }

end Fetch

/-- Whether the pull can return or throw here. In `abortAndCleanup` it does not. -/
def Pc.throws : Pc → Bool
  | .shutting _ | .joining _ | .done => false
  | _ => true

/-- Whether the pull returns here without a download. -/
def Pc.leaves : Pc → Bool
  | .begun | .opened | .ready | .created | .announced => true
  | _ => false

/-- A step of the pull thread in front of the download. -/
def openNext (r : Request) (s : Fetch) (e : Event) : Option Fetch :=
  match e, s.pc with
  | .openSession info, .begun =>
    if info.topics = [] then none
    else if r.bytesExceeded info.estimatedChunkBytes then some ({ s with info, bytesOver := true }.leave .failed)
    else some { s with info, pc := .opened }
  | .openWriter ok, .opened =>
    match s.tee with
    | none => some (s.goto .ready)
    | some t =>
      if ok then some { s with tee := some (t.openWriter s.info.known), partialFile := some [], pc := .ready }
      else some { s with partialFile := none, hook := false, teeOutcome := .failed, pc := .shutting .ready }
  | .create dataset, .ready => some { s with dataset := some dataset, pc := .created }
  | .announce, .created => some { s with announced := if r.announces then s.dataset else none, pc := .announced }
  | .bind ingest, .announced =>
    let driver := Driver.bindSession s.info ingest
    if driver.hasDecodable = false ∧ s.tee = none then some ({ s with driver }.leave .failed)
    else some { s with driver, pc := .streaming }
  | .leave true, _ => if s.pc.leaves && s.cancelFlag then some (s.leave .cancelled) else none
  | .leave false, _ => if s.pc.leaves then some (s.leave .failed) else none
  | .throw, _ => if s.pc.throws then some (s.leave .failed) else none
  | _, _ => none

/-- A step of the pull thread in the download. -/
def streamNext (r : Request) (s : Fetch) (e : Event) : Option Fetch :=
  match e, s.pc with
  | .deliver m, .streaming => some { s with delivered := s.delivered ++ [m], pc := .checking m }
  | .check bytes elapsed, .checking m =>
    if s.cancelFlag then some (s.endWith .cancelled)
    else if r.bytesExceeded bytes then some ({ s with bytesOver := true, wire := bytes }.endWith .cancelled)
    else if r.durationExceeded elapsed then some ({ s with durationOver := true, elapsed }.endWith .cancelled)
    else some (s.goto (.offering m))
  | .offer, .offering m =>
    match s.tee with
    | none => some (s.goto (.decoding m))
    | some t =>
      if t.awake then
        match t.enqueue m with
        | none => some (s.goto (.refused m))
        | some t' => some ((s.setTee t').goto (.decoding m))
      else none
  | .inspect, .refused m =>
    -- Both flags only ever go up, so reading one after the other is reading them at once.
    match s.tee with
    | none => none
    | some t =>
      if t.abort && !t.failed then some (s.goto (.decoding m))
      else some { s with teeOutcome := .failed, hook := false, pc := .shutting (.decode m) }
  | .decode binding pushed, .decoding m =>
    some { s with driver := s.driver.decode m.topicId binding pushed, pc := .ticking }
  | .tick goOn, .ticking =>
    if goOn then some { s with received := s.received + 1, pc := .streaming } else some (s.endWith .cancelled)
  | .finish eos, .streaming => some (s.endWith eos)
  | _, _ => none

/-- A step of the pull thread after the download. -/
def finishNext (r : Request) (s : Fetch) (e : Event) : Option Fetch :=
  match e, s.pc with
  | .snapshot, .ended => some { s with snapshot := some s.cancelFlag, pc := .snapped }
  | .judge bytes elapsed, .snapped =>
    match s.tee with
    | none => some ((s.judge r bytes elapsed).goto .done)
    | some t => some (((s.judge r bytes elapsed).setTee t.close).goto .draining)
  | .drain ok, .draining =>
    match s.tee with
    | none => none
    | some t => if t.writer = .exited then some (s.goto (.drained (ok && !t.failed))) else none
  | .settle, .drained ok =>
    if ok = false then some (s.finishTee .failed)
    else if s.complete then some (s.goto .finalizing)
    else some (s.finishTee .aborted)
  | .publish ok, .finalizing =>
    match s.tee, s.partialFile with
    | some t, some file =>
      if ok = true ∧ statistics file = t.expected then some (s.rename file)
      else some ({ s with partialFile := none }.finishTee .failed)
    | _, _ => none
  | .handOff ok, .renamed =>
    match s.tee with
    | none => none
    | some t =>
      if ok then some ((s.setTee { t with finalized := true }).finishTee .finalized)
      else some (s.finishTee .failed)
  | .shut, .shutting after =>
    match s.tee with
    | none => some (s.goto after.pc)
    | some t => some ((s.setTee t.shut).goto (.joining after))
  | .join, .joining after =>
    match s.tee with
    | none => none
    | some t => if t.writer = .exited then some (s.removeTee t after) else none
  | _, _ => none

/-- A step of the writer thread, or of one that cancels. -/
def otherNext (s : Fetch) (e : Event) : Option Fetch :=
  match e, s.tee with
  | .take, some t => t.take.map s.setTee
  | .quit, some t => t.quit.map s.setTee
  | .wrote ok, some t =>
    match t.writer with
    | .writing m => if ok then some (s.append t m) else some (s.setTee t.failWrite)
    | _ => none
  | .cancel, _ => some { s with cancelFlag := true }
  | .abort, some t => if s.cancelFlag && s.hook then some (s.setTee t.requestAbort) else none
  | _, _ => none

def next (r : Request) (s : Fetch) (e : Event) : Option Fetch :=
  (openNext r s e).or ((streamNext r s e).or ((finishNext r s e).or (otherNext s e)))

/-- A pull starts with a tee that has begun, with one that could not begin or with none, and it may be cancelled
already. -/
def starts (s : Fetch) : Prop :=
  ∃ cancelFlag, s = { cancelFlag } ∨ s = { cancelFlag, teeOutcome := .failed } ∨
    s = { cancelFlag, tee := some {}, hook := true }

def pulls (r : Request) : Machine Fetch Event := .ofNext starts (next r)

/-! ## Steps -/

/-- What a step does, one constructor for each way it can go. -/
inductive Act (r : Request) : Fetch → Event → Fetch → Prop
  | openSession {s info} : s.pc = .begun → info.topics ≠ [] → r.bytesExceeded info.estimatedChunkBytes = false →
      Act r s (.openSession info) { s with info, pc := .opened }
  | overEstimate {s info} : s.pc = .begun → r.bytesExceeded info.estimatedChunkBytes = true →
      Act r s (.openSession info) ({ s with info, bytesOver := true }.leave .failed)
  | noTee {s ok} : s.pc = .opened → s.tee = none → Act r s (.openWriter ok) (s.goto .ready)
  | openWriter {s t} : s.pc = .opened → s.tee = some t →
      Act r s (.openWriter true) { s with tee := some (t.openWriter s.info.known), partialFile := some [], pc := .ready }
  | openFails {s t} : s.pc = .opened → s.tee = some t →
      Act r s (.openWriter false)
        { s with partialFile := none, hook := false, teeOutcome := .failed, pc := .shutting .ready }
  | create {s dataset} : s.pc = .ready → Act r s (.create dataset) { s with dataset := some dataset, pc := .created }
  | announce {s} : s.pc = .created →
      Act r s .announce { s with announced := if r.announces then s.dataset else none, pc := .announced }
  | noDecoder {s ingest} : s.pc = .announced → s.tee = none →
      Act r s (.bind ingest) ({ s with driver := Driver.bindSession s.info ingest }.leave .failed)
  | bind {s ingest} : s.pc = .announced →
      Act r s (.bind ingest) { s with driver := Driver.bindSession s.info ingest, pc := .streaming }
  | leaveCancelled {s} : s.pc.leaves = true → s.cancelFlag = true → Act r s (.leave true) (s.leave .cancelled)
  | leaveFailed {s} : s.pc.leaves = true → Act r s (.leave false) (s.leave .failed)
  | throw {s} : s.pc.throws = true → Act r s .throw (s.leave .failed)
  | deliver {s m} : s.pc = .streaming →
      Act r s (.deliver m) { s with delivered := s.delivered ++ [m], pc := .checking m }
  | checkCancelled {s m bytes elapsed} : s.pc = .checking m → s.cancelFlag = true →
      Act r s (.check bytes elapsed) (s.endWith .cancelled)
  | checkBytes {s m bytes elapsed} : s.pc = .checking m → r.bytesExceeded bytes = true →
      Act r s (.check bytes elapsed) ({ s with bytesOver := true, wire := bytes }.endWith .cancelled)
  | checkDuration {s m bytes elapsed} : s.pc = .checking m → r.durationExceeded elapsed = true →
      Act r s (.check bytes elapsed) ({ s with durationOver := true, elapsed }.endWith .cancelled)
  | checked {s m bytes elapsed} : s.pc = .checking m → Act r s (.check bytes elapsed) (s.goto (.offering m))
  | offerNone {s m} : s.pc = .offering m → s.tee = none → Act r s .offer (s.goto (.decoding m))
  | refuse {s m t} : s.pc = .offering m → s.tee = some t → Act r s .offer (s.goto (.refused m))
  | enqueue {s m t} : s.pc = .offering m → s.tee = some t → t.threaded = true →
      Act r s .offer ((s.setTee (t.push m)).goto (.decoding m))
  | keepTee {s m t} : s.pc = .refused m → s.tee = some t → t.abort = true → t.failed = false →
      Act r s .inspect (s.goto (.decoding m))
  | retireTee {s m t} : s.pc = .refused m → s.tee = some t →
      Act r s .inspect { s with teeOutcome := .failed, hook := false, pc := .shutting (.decode m) }
  | decode {s m binding pushed} : s.pc = .decoding m →
      Act r s (.decode binding pushed) { s with driver := s.driver.decode m.topicId binding pushed, pc := .ticking }
  | goOn {s} : s.pc = .ticking → Act r s (.tick true) { s with received := s.received + 1, pc := .streaming }
  | stop {s} : s.pc = .ticking → Act r s (.tick false) (s.endWith .cancelled)
  | finish {s eos} : s.pc = .streaming → Act r s (.finish eos) (s.endWith eos)
  | snapshot {s} : s.pc = .ended → Act r s .snapshot { s with snapshot := some s.cancelFlag, pc := .snapped }
  | judgeNone {s bytes elapsed} : s.pc = .snapped → s.tee = none →
      Act r s (.judge bytes elapsed) ((s.judge r bytes elapsed).goto .done)
  | judge {s t bytes elapsed} : s.pc = .snapped → s.tee = some t →
      Act r s (.judge bytes elapsed) (((s.judge r bytes elapsed).setTee t.close).goto .draining)
  | drain {s t ok} : s.pc = .draining → s.tee = some t → t.writer = .exited →
      Act r s (.drain ok) (s.goto (.drained (ok && !t.failed)))
  | settleFailed {s} : s.pc = .drained false → Act r s .settle (s.finishTee .failed)
  | settleComplete {s} : s.pc = .drained true → s.complete = true → Act r s .settle (s.goto .finalizing)
  | settleAborted {s} : s.pc = .drained true → s.complete = false → Act r s .settle (s.finishTee .aborted)
  | publish {s t file} : s.pc = .finalizing → s.tee = some t → s.partialFile = some file →
      statistics file = t.expected → Act r s (.publish true) (s.rename file)
  | reject {s t ok} : s.pc = .finalizing → s.tee = some t →
      Act r s (.publish ok) ({ s with partialFile := none }.finishTee .failed)
  | handOff {s t} : s.pc = .renamed → s.tee = some t →
      Act r s (.handOff true) ((s.setTee { t with finalized := true }).finishTee .finalized)
  | handOffFails {s t} : s.pc = .renamed → s.tee = some t → Act r s (.handOff false) (s.finishTee .failed)
  | shutNone {s after} : s.pc = .shutting after → s.tee = none → Act r s .shut (s.goto after.pc)
  | shut {s t after} : s.pc = .shutting after → s.tee = some t →
      Act r s .shut ((s.setTee t.shut).goto (.joining after))
  | join {s t after} : s.pc = .joining after → s.tee = some t → t.writer = .exited →
      Act r s .join (s.removeTee t after)
  | take {s t m rest} : s.tee = some t → t.writer = .waiting → t.queue = m :: rest →
      Act r s .take (s.setTee { t with writer := .writing m, queue := rest })
  | quit {s t} : s.tee = some t → t.writer = .waiting →
      (t.failed = true ∨ t.abort = true ∨ t.queue = [] ∧ t.closed = true) →
      Act r s .quit (s.setTee { t with writer := .exited })
  | wrote {s t m} : s.tee = some t → t.writer = .writing m → Act r s (.wrote true) (s.append t m)
  | failWrite {s t m} : s.tee = some t → t.writer = .writing m → Act r s (.wrote false) (s.setTee t.failWrite)
  | cancel {s} : Act r s .cancel { s with cancelFlag := true }
  | abort {s t} : s.tee = some t → s.cancelFlag = true → s.hook = true → Act r s .abort (s.setTee t.requestAbort)

section
variable {r : Request} {s s' : Fetch} {e : Event}

lemma act_of_openNext (step : openNext r s e = some s') : Act r s e s' := by
  unfold openNext at step
  split at step
  case h_1 info pc =>
    split at step
    · cases step
    · rename_i some
      split at step
      · rename_i above
        cases step
        exact .overEstimate pc above
      · rename_i within
        cases step
        exact .openSession pc some (Bool.not_eq_true _ ▸ within)
  case h_2 ok pc =>
    split at step
    · rename_i tee
      cases step
      exact .noTee pc tee
    · rename_i t tee
      cases ok with
      | true =>
        cases step
        exact .openWriter pc tee
      | false =>
        cases step
        exact .openFails pc tee
  case h_3 dataset pc =>
    cases step
    exact .create pc
  case h_4 pc =>
    cases step
    exact .announce pc
  case h_5 ingest pc =>
    dsimp only at step
    split at step
    · rename_i none
      cases step
      exact .noDecoder pc none.2
    · cases step
      exact .bind pc
  case h_6 =>
    split at step
    · rename_i leaves
      cases step
      exact .leaveCancelled (Bool.and_eq_true_iff.mp leaves).1 (Bool.and_eq_true_iff.mp leaves).2
    · cases step
  case h_7 =>
    split at step
    · rename_i leaves
      cases step
      exact .leaveFailed leaves
    · cases step
  case h_8 =>
    split at step
    · rename_i throws
      cases step
      exact .throw throws
    · cases step
  case h_9 => cases step

lemma act_of_streamNext (step : streamNext r s e = some s') : Act r s e s' := by
  unfold streamNext at step
  split at step
  case h_1 m pc =>
    cases step
    exact .deliver pc
  case h_2 bytes elapsed m pc =>
    split at step
    · rename_i cancelled
      cases step
      exact .checkCancelled pc cancelled
    · split at step
      · rename_i above
        cases step
        exact .checkBytes pc above
      · split at step
        · rename_i late
          cases step
          exact .checkDuration pc late
        · cases step
          exact .checked pc
  case h_3 m pc =>
    split at step
    · rename_i tee
      cases step
      exact .offerNone pc tee
    · rename_i t tee
      split at step
      · split at step
        · cases step
          exact .refuse pc tee
        · rename_i t' pushed
          obtain ⟨threaded, rfl⟩ := Tee.of_enqueue pushed
          cases step
          exact .enqueue pc tee threaded
      · cases step
  case h_4 m pc =>
    split at step
    · cases step
    · rename_i t tee
      split at step
      · rename_i aborted
        rw [Bool.and_eq_true, Bool.not_eq_true'] at aborted
        cases step
        exact .keepTee pc tee aborted.1 aborted.2
      · cases step
        exact .retireTee pc tee
  case h_5 binding pushed m pc =>
    cases step
    exact .decode pc
  case h_6 goOn pc =>
    cases goOn with
    | true =>
      cases step
      exact .goOn pc
    | false =>
      cases step
      exact .stop pc
  case h_7 eos pc =>
    cases step
    exact .finish pc
  case h_8 => cases step

lemma act_of_finishNext (step : finishNext r s e = some s') : Act r s e s' := by
  unfold finishNext at step
  split at step
  case h_1 pc =>
    cases step
    exact .snapshot pc
  case h_2 bytes elapsed pc =>
    split at step
    · rename_i tee
      cases step
      exact .judgeNone pc tee
    · rename_i t tee
      cases step
      exact .judge pc tee
  case h_3 ok pc =>
    split at step
    · cases step
    · rename_i t tee
      split at step
      · rename_i exited
        cases step
        exact .drain pc tee exited
      · cases step
  case h_4 ok pc =>
    split at step
    · rename_i failed
      cases step
      exact .settleFailed (failed ▸ pc)
    · rename_i good
      rw [Bool.not_eq_false] at good
      subst good
      split at step
      · rename_i complete
        cases step
        exact .settleComplete pc complete
      · rename_i incomplete
        cases step
        exact .settleAborted pc (Bool.not_eq_true _ ▸ incomplete)
  case h_5 ok pc =>
    split at step
    · rename_i t file tee partialFile
      split at step
      · rename_i valid
        cases step
        obtain ⟨rfl, counts⟩ := valid
        exact .publish pc tee partialFile counts
      · cases step
        exact .reject pc tee
    · cases step
  case h_6 ok pc =>
    split at step
    · cases step
    · rename_i t tee
      cases ok with
      | true =>
        cases step
        exact .handOff pc tee
      | false =>
        cases step
        exact .handOffFails pc tee
  case h_7 after pc =>
    split at step
    · rename_i tee
      cases step
      exact .shutNone pc tee
    · rename_i t tee
      cases step
      exact .shut pc tee
  case h_8 after pc =>
    split at step
    · cases step
    · rename_i t tee
      split at step
      · rename_i exited
        cases step
        exact .join pc tee exited
      · cases step
  case h_9 => cases step

lemma act_of_otherNext (step : otherNext s e = some s') : Act r s e s' := by
  unfold otherNext at step
  split at step
  case h_1 t tee =>
    obtain ⟨t', taken, rfl⟩ := Option.map_eq_some_iff.mp step
    obtain ⟨m, rest, waiting, queue, rfl⟩ := Tee.of_take taken
    exact .take tee waiting queue
  case h_2 t tee =>
    obtain ⟨t', left, rfl⟩ := Option.map_eq_some_iff.mp step
    obtain ⟨waiting, stopped, rfl⟩ := Tee.of_quit left
    exact .quit tee waiting stopped
  case h_3 ok t tee =>
    split at step
    · rename_i m writing
      cases ok with
      | true =>
        cases step
        exact .wrote tee writing
      | false =>
        cases step
        exact .failWrite tee writing
    · cases step
  case h_4 =>
    cases step
    exact .cancel
  case h_5 t tee =>
    split at step
    · rename_i told
      cases step
      exact .abort tee (Bool.and_eq_true_iff.mp told).1 (Bool.and_eq_true_iff.mp told).2
    · cases step
  case h_6 => cases step

lemma act_of_next (step : next r s e = some s') : Act r s e s' := by
  unfold next at step
  rcases Option.or_eq_some_iff.mp step with opening | ⟨-, step⟩
  · exact act_of_openNext opening
  rcases Option.or_eq_some_iff.mp step with streaming | ⟨-, step⟩
  · exact act_of_streamNext streaming
  rcases Option.or_eq_some_iff.mp step with finishing | ⟨-, other⟩
  · exact act_of_finishNext finishing
  · exact act_of_otherNext other

end
end PjCloud.Pull
