import Mathlib.Data.List.Dedup
import PjCloud.Pull.Driver

/-!
# The cache tee

The queue of `CacheTee` in `import_runtime.cpp` and its writer thread. The pull thread puts messages into the queue and
waits while it is full; the writer takes one after the other and writes it into the partial file. An abort makes both
stop: the one drops what it is given, the other leaves what is queued. What was put in is counted, so that a file that
lacks some of it can be told from one that has all.

`accepted` and `written` are the histories of the two ends of the queue. The source does not have them.
-/

namespace PjCloud.Pull

def kMaxQueuedMessages : Nat := 4096

def kMaxQueuedBytes : Nat := 32 * 1024 * 1024

/-- Where `writerLoop` is. -/
inductive Writer where
  | waiting
  | writing (m : Message)
  | exited
  deriving DecidableEq, Repr

def Writer.inHand : Writer → List Message
  | .writing m => [m]
  | _ => []

structure Tee where
  known : List Nat := []
  threaded : Bool := false
  writer : Writer := .exited
  queue : List Message := []
  closed : Bool := false
  failed : Bool := false
  abort : Bool := false
  enqueuedKnownMessages : Nat := 0
  enqueuedKnownTopics : List Nat := []
  finalized : Bool := false
  accepted : List Message := []
  written : List Message := []
  deriving DecidableEq, Repr

/-- The messages of topics that the session has. The writer skips the others. -/
def onlyKnown (known : List Nat) (ms : List Message) : List Message := ms.filter (·.topicId ∈ known)

/-- The counts of the `Statistics` record of a file. -/
def statistics (file : List Message) : Nat × Nat := (file.length, (file.map Message.topicId).dedup.length)

namespace Tee

def queuedBytes (t : Tee) : Nat := (t.queue.map fun m => m.payload.length).sum

/-- What the wait in `enqueue` waits for. -/
def awake (t : Tee) : Bool :=
  t.failed || t.closed || t.abort ||
    (decide (t.queue.length < kMaxQueuedMessages) && decide (t.queuedBytes < kMaxQueuedBytes))

@[simp] def push (t : Tee) (m : Message) : Tee :=
  { t with
    queue := t.queue ++ [m]
    accepted := t.accepted ++ [m]
    enqueuedKnownMessages := if m.topicId ∈ t.known then t.enqueuedKnownMessages + 1 else t.enqueuedKnownMessages
    enqueuedKnownTopics := if m.topicId ∈ t.known then t.enqueuedKnownTopics.insert m.topicId else t.enqueuedKnownTopics }

/-- What `enqueue` does after its wait. -/
def enqueue (t : Tee) (m : Message) : Option Tee :=
  if t.threaded = false ∨ t.failed = true ∨ t.closed = true ∨ t.abort = true then none else some (t.push m)

/-- The end of `openWriter`. -/
@[simp] def openWriter (t : Tee) (known : List Nat) : Tee := { t with known, threaded := true, writer := .waiting }

/-- The writer takes a message, if there is one and nothing has stopped it. -/
def take (t : Tee) : Option Tee :=
  match t.writer, t.queue with
  | .waiting, m :: rest =>
    if t.failed = true ∨ t.abort = true then none else some { t with writer := .writing m, queue := rest }
  | _, _ => none

def quit (t : Tee) : Option Tee :=
  if t.writer = .waiting ∧ (t.failed = true ∨ t.abort = true ∨ t.queue = [] ∧ t.closed = true) then
    some { t with writer := .exited }
  else none

@[simp] def wrote (t : Tee) (m : Message) : Tee := { t with writer := .waiting, written := t.written ++ [m] }

@[simp] def failWrite (t : Tee) : Tee := { t with writer := .exited, failed := true }

@[simp] def requestAbort (t : Tee) : Tee := { t with abort := true }

/-- The start of `drainAndClose`. -/
@[simp] def close (t : Tee) : Tee := { t with closed := true }

/-- The start of `abortAndCleanup`. -/
@[simp] def shut (t : Tee) : Tee := { t with closed := true, failed := t.failed || !t.finalized }

/-- What `finalize` expects of the file. -/
def expected (t : Tee) : Nat × Nat := (t.enqueuedKnownMessages, t.enqueuedKnownTopics.length)

section
variable {t t' : Tee} {m : Message}

lemma of_enqueue (accepted : t.enqueue m = some t') : t.threaded = true ∧ t' = t.push m := by
  unfold enqueue at accepted
  split at accepted
  · cases accepted
  · rename_i open'
    cases accepted
    exact ⟨Bool.of_not_eq_false fun none => open' (.inl none), rfl⟩

lemma of_take (taken : t.take = some t') :
    ∃ m rest, t.writer = .waiting ∧ t.queue = m :: rest ∧ t' = { t with writer := .writing m, queue := rest } := by
  unfold take at taken
  split at taken
  · rename_i m rest waiting queue
    split at taken
    · cases taken
    · cases taken
      exact ⟨m, rest, waiting, queue, rfl⟩
  · cases taken

lemma of_quit (left : t.quit = some t') : t.writer = .waiting ∧
    (t.failed = true ∨ t.abort = true ∨ t.queue = [] ∧ t.closed = true) ∧ t' = { t with writer := .exited } := by
  unfold quit at left
  split at left
  · rename_i stopped
    cases left
    exact ⟨stopped.1, stopped.2, rfl⟩
  · cases left

end

/-- As long as nothing failed, what was put in is written, in the hands of the writer or in the queue, and it is counted. -/
structure Orderly (t : Tee) : Prop where
  split : t.failed = false → t.accepted = t.written ++ t.writer.inHand ++ t.queue
  counted : t.enqueuedKnownMessages = (onlyKnown t.known t.accepted).length

variable {t : Tee} {m : Message}

lemma orderly_fresh : Orderly {} := ⟨fun _ => rfl, rfl⟩

lemma onlyKnown_append (known : List Nat) (xs ys : List Message) :
    onlyKnown known (xs ++ ys) = onlyKnown known xs ++ onlyKnown known ys := List.filter_append ..

lemma Orderly.push (orderly : t.Orderly) (m : Message) : (t.push m).Orderly := by
  refine ⟨?_, ?_⟩
  · intro sound
    change t.accepted ++ [m] = t.written ++ t.writer.inHand ++ (t.queue ++ [m])
    rw [orderly.split sound, List.append_assoc _ t.queue]
  · change (if m.topicId ∈ t.known then t.enqueuedKnownMessages + 1 else t.enqueuedKnownMessages) =
      (onlyKnown t.known (t.accepted ++ [m])).length
    rw [onlyKnown_append, List.length_append, ← orderly.counted, onlyKnown, List.filter_singleton]
    by_cases known : m.topicId ∈ t.known
    · rw [if_pos known, decide_eq_true known]
      rfl
    · rw [if_neg known, decide_eq_false known]
      rfl

lemma Orderly.openWriter (orderly : t.Orderly) (known : List Nat) (fresh : t.accepted = []) (idle : t.writer = .exited) :
    (t.openWriter known).Orderly := by
  have empty : t.enqueuedKnownMessages = 0 := by
    rw [orderly.counted, fresh]
    rfl
  refine ⟨?_, ?_⟩
  · intro sound
    have split := orderly.split sound
    rw [idle] at split
    exact split
  · change t.enqueuedKnownMessages = (onlyKnown known t.accepted).length
    rw [empty, fresh]
    rfl

lemma Orderly.take (orderly : t.Orderly) {rest : List Message} (waiting : t.writer = .waiting)
    (queue : t.queue = m :: rest) : { t with writer := .writing m, queue := rest }.Orderly := by
  refine ⟨?_, orderly.counted⟩
  intro sound
  have split := orderly.split sound
  rw [waiting, queue] at split
  change t.accepted = t.written ++ [] ++ m :: rest at split
  change t.accepted = t.written ++ [m] ++ rest
  rw [split, List.append_nil, List.append_assoc, List.singleton_append]

lemma Orderly.quit (orderly : t.Orderly) (waiting : t.writer = .waiting) : { t with writer := .exited }.Orderly := by
  refine ⟨?_, orderly.counted⟩
  intro sound
  have split := orderly.split sound
  rw [waiting] at split
  exact split

lemma Orderly.wrote (orderly : t.Orderly) (writing : t.writer = .writing m) : (t.wrote m).Orderly := by
  refine ⟨?_, orderly.counted⟩
  intro sound
  have split := orderly.split sound
  rw [writing] at split
  change t.accepted = t.written ++ [m] ++ [] ++ t.queue
  rw [split, List.append_nil]
  rfl

lemma Orderly.failWrite (orderly : t.Orderly) : t.failWrite.Orderly := ⟨nofun, orderly.counted⟩

lemma Orderly.shut (orderly : t.Orderly) : t.shut.Orderly := by
  refine ⟨?_, orderly.counted⟩
  intro sound
  exact orderly.split (Bool.or_eq_false_iff.mp sound).1

lemma Orderly.whole (orderly : t.Orderly) (sound : t.failed = false)
    (counts : statistics (onlyKnown t.known t.written) = t.expected) :
    onlyKnown t.known t.written = onlyKnown t.known t.accepted := by
  have messages : (onlyKnown t.known t.written).length = t.enqueuedKnownMessages := congrArg Prod.fst counts
  have split := congrArg (onlyKnown t.known) (orderly.split sound)
  rw [List.append_assoc, onlyKnown_append] at split
  have rest : onlyKnown t.known (t.writer.inHand ++ t.queue) = [] := by
    have sizes := congrArg List.length split
    rw [List.length_append, ← orderly.counted, messages] at sizes
    exact List.eq_nil_of_length_eq_zero (by omega)
  rw [split, rest, List.append_nil]

end Tee
end PjCloud.Pull
