import Mathlib.Algebra.Order.BigOperators.Group.List
import Mathlib.Data.List.TakeWhile
import PjCloud.Lib.Machine
import PjCloud.Session.Retain

/-!
# Waiting at the retain buffer

`Append` and `Next` of `retain.go` with what they wait for. A call holds the mutex between two waits and takes one step from
one to the next. A broadcast wakes every call that sleeps; the watcher of a call of `Next` broadcasts once, after its context is
done.
-/

namespace PjCloud.Session
open Lib

structure NextCall where
  lastSeq : Nat
  /-- The context of the call is done. -/
  cancelled : Bool
  /-- The watcher of the call has not broadcast. -/
  watching : Bool := true
  asleep : Bool := false
  deriving DecidableEq, Repr

structure Retaining (μ : Type) where
  buffer : RetainBuffer μ
  /-- The seq that the producer has come with last. -/
  latest : Option Nat := none
  /-- The batch that the producer appends, and whether it sleeps. -/
  appending : Option (BatchEnvelope μ × Bool) := none
  nexts : Nat → Option NextCall := fun _ => none

inductive RetainAct (μ : Type) where
  | append (b : BatchEnvelope μ)
  | appendTurn
  | next (i lastSeq : Nat) (cancelled : Bool)
  | nextTurn (i : Nat)
  | cancel (i : Nat)
  | watch (i : Nat)
  | prune (throughSeq : Nat)
  | close

namespace Retaining
variable {μ : Type}

def broadcast (s : Retaining μ) : Retaining μ :=
  { s with
    appending := s.appending.map fun call => (call.1, false)
    nexts := fun i => (s.nexts i).map fun c => { c with asleep := false } }

def setNext (s : Retaining μ) (i : Nat) (c : Option NextCall) : Retaining μ := { s with nexts := Function.update s.nexts i c }

/-- A call of `Next` that has the mutex goes on until it returns or sleeps. -/
def NextCall.returns (c : NextCall) (r : RetainBuffer μ) : Bool := (r.next? c.lastSeq).isSome || r.closed || c.cancelled

def guard (s : Retaining μ) : RetainAct μ → Bool
  | .append b => s.appending.isNone && s.latest.all (· < b.seq)
  | .appendTurn => s.appending.any (!·.2)
  | .next i _ _ => (s.nexts i).isNone
  | .nextTurn i => (s.nexts i).any (!·.asleep)
  | .cancel i => (s.nexts i).isSome
  | .watch i => (s.nexts i).any fun c => c.cancelled && c.watching
  | .prune _ => true
  | .close => true

def exec (s : Retaining μ) : RetainAct μ → Retaining μ
  | .append b => { s with appending := some (b, false), latest := some b.seq }
  | .appendTurn =>
    match s.appending with
    | none => s
    | some (b, _) =>
      if s.buffer.full b then { s with appending := some (b, true) }
      else if s.buffer.closed then { s with appending := none }
      else broadcast { s with buffer := s.buffer.append b, appending := none }
  | .next i lastSeq cancelled => s.setNext i (some { lastSeq, cancelled })
  | .nextTurn i => s.setNext i ((s.nexts i).bind fun c =>
      if NextCall.returns c s.buffer then none else some { c with asleep := true })
  | .cancel i => s.setNext i ((s.nexts i).map fun c => { c with cancelled := true })
  | .watch i => broadcast (s.setNext i ((s.nexts i).map fun c => { c with watching := false }))
  | .prune throughSeq =>
    if (s.buffer.queue.takeWhile fun e => decide (e.seq ≤ throughSeq)) = [] then s
    else broadcast { s with buffer := s.buffer.prune throughSeq }
  | .close => broadcast { s with buffer := s.buffer.close }

end Retaining

open Retaining

def retaining (μ : Type) (opts : RetainOpts) : Machine (Retaining μ) (RetainAct μ) where
  init s := s = { buffer := .newRetainBuffer opts }
  guard := Retaining.guard
  exec := Retaining.exec

section Sound
variable {μ : Type} {s : Retaining μ}

/-- At most one batch, or both caps hold. -/
def RetainBuffer.Capped (r : RetainBuffer μ) : Prop :=
  r.queue.length ≤ 1 ∨ r.queue.length ≤ r.opts.maxSeqs ∧ r.totalBytes ≤ r.opts.maxBytes

structure Retaining.Kept (s : Retaining μ) : Prop where
  sorted : s.buffer.queue.Pairwise fun d e => d.seq < e.seq
  counted : s.buffer.Counted
  capped : s.buffer.Capped
  below : ∀ e ∈ s.buffer.queue, ∃ n, s.latest = some n ∧ e.seq ≤ n
  fresh : ∀ b z, s.appending = some (b, z) → s.latest = some b.seq ∧ ∀ e ∈ s.buffer.queue, e.seq < b.seq
  watched : ∀ i c, s.nexts i = some c → c.watching = false → c.cancelled = true

/-- Whoever sleeps waits for something that is not there yet, and a watcher looks after its context. -/
structure Retaining.Patient (s : Retaining μ) : Prop where
  append : ∀ b, s.appending = some (b, true) → s.buffer.full b = true
  next : ∀ i c, s.nexts i = some c → c.asleep = true →
    s.buffer.next? c.lastSeq = none ∧ s.buffer.closed = false ∧ c.watching = true

lemma patient_broadcast : (broadcast s).Patient where
  append b waits := by
    simp only [broadcast, Option.map_eq_some_iff] at waits
    obtain ⟨_, _, eq⟩ := waits
    cases eq
  next i c found sleeps := by
    simp only [broadcast, Option.map_eq_some_iff] at found
    obtain ⟨_, _, rfl⟩ := found
    cases sleeps

lemma kept_broadcast (kept : s.Kept) : (broadcast s).Kept where
  __ := kept
  fresh b z waits := by
    simp only [broadcast, Option.map_eq_some_iff] at waits
    obtain ⟨⟨b', z'⟩, found, eq⟩ := waits
    obtain ⟨rfl, rfl⟩ := Prod.mk.inj eq
    exact kept.fresh _ _ found
  watched i c found := by
    simp only [broadcast, Option.map_eq_some_iff] at found
    obtain ⟨c', found, rfl⟩ := found
    exact kept.watched i c' found

lemma kept_setNext (kept : s.Kept) {i : Nat} {call : Option NextCall}
    (watched : ∀ c, call = some c → c.watching = false → c.cancelled = true) : (s.setNext i call).Kept where
  __ := kept
  watched j c found := by
    by_cases same : j = i
    · subst same
      exact watched c (by simpa [setNext] using found)
    · exact kept.watched j c (by simpa [setNext, same] using found)

lemma patient_setNext (patient : s.Patient) {i : Nat} {call : Option NextCall} (next : ∀ c, call = some c →
    c.asleep = true → s.buffer.next? c.lastSeq = none ∧ s.buffer.closed = false ∧ c.watching = true) :
    (s.setNext i call).Patient where
  append := patient.append
  next j c found := by
    by_cases same : j = i
    · subst same
      exact next c (by simpa [setNext] using found)
    · exact patient.next j c (by simpa [setNext, same] using found)

lemma kept_append {b : BatchEnvelope μ} {z : Bool} (kept : s.Kept) (calls : s.appending = some (b, z))
    (room : s.buffer.full b = false) (opened : s.buffer.closed = false) :
    Kept { s with buffer := s.buffer.append b, appending := none } := by
  obtain ⟨latest, above⟩ := kept.fresh b z calls
  have queue : (s.buffer.append b).queue = s.buffer.queue ++ [b] := by simp [RetainBuffer.append, opened]
  have bytes : (s.buffer.append b).totalBytes = s.buffer.totalBytes + b.bytes := by simp [RetainBuffer.append, opened]
  refine ⟨?_, kept.counted.append, ?_, ?_, by simp, kept.watched⟩
  · simpa [queue, List.pairwise_append, kept.sorted] using above
  · simp only [RetainBuffer.full, opened, Bool.not_false, Bool.true_and, Bool.and_eq_false_imp, Bool.not_eq_true',
      List.isEmpty_eq_false_iff, Bool.or_eq_false_iff, decide_eq_false_iff_not] at room
    simp only [RetainBuffer.Capped, queue, bytes, RetainBuffer.append_opts, List.length_append, List.length_singleton]
    by_cases empty : s.buffer.queue = []
    · simp [empty]
    · obtain ⟨seqs, bytes⟩ := room empty
      right
      omega
  · intro e mem
    rw [queue] at mem
    rcases List.mem_append.mp mem with old | new
    · exact kept.below e old
    · exact ⟨b.seq, latest, (List.mem_singleton.mp new ▸ le_rfl)⟩

lemma kept_prune (kept : s.Kept) (t : Nat) : Kept { s with buffer := s.buffer.prune t } := by
  have sublist : (s.buffer.prune t).queue.Sublist s.buffer.queue := List.dropWhile_sublist _
  have shorter := sublist.length_le
  have less : (s.buffer.prune t).totalBytes ≤ s.buffer.totalBytes := by
    have cut : 0 ≤ ((s.buffer.queue.takeWhile fun e => decide (e.seq ≤ t)).map fun e => (e.bytes : Int)).sum :=
      List.sum_nonneg (by simp)
    simp only [RetainBuffer.prune]
    omega
  refine ⟨kept.sorted.sublist sublist, kept.counted.prune t, ?_, fun e mem => kept.below e (sublist.subset mem), ?_,
    kept.watched⟩
  · have capped := kept.capped
    simp only [RetainBuffer.Capped, RetainBuffer.prune_opts] at capped ⊢
    omega
  · intro b z calls
    obtain ⟨latest, above⟩ := kept.fresh b z calls
    exact ⟨latest, fun e mem => above e (sublist.subset mem)⟩

lemma Retaining.Kept.step (kept : s.Kept) {a : RetainAct μ} (ok : s.guard a = true) : (s.exec a).Kept := by
  cases a with
  | append b =>
    simp only [Retaining.guard, Bool.and_eq_true, Option.all_eq_true, decide_eq_true_eq] at ok
    have above : ∀ e ∈ s.buffer.queue, e.seq < b.seq := by
      intro e mem
      obtain ⟨n, latest, le⟩ := kept.below e mem
      exact le.trans_lt (ok.2 n latest)
    refine ⟨kept.sorted, kept.counted, kept.capped, fun e mem => ⟨b.seq, rfl, (above e mem).le⟩, ?_, kept.watched⟩
    rintro _ _ ⟨⟩
    exact ⟨rfl, above⟩
  | appendTurn =>
    cases calls : s.appending with
    | none => simp [Retaining.guard, calls] at ok
    | some call =>
      obtain ⟨b, z⟩ := call
      simp only [Retaining.exec, calls]
      split
      · refine { kept with fresh := ?_ }
        rintro _ _ ⟨⟩
        exact kept.fresh b z calls
      · next room =>
        split
        · exact { kept with fresh := by simp }
        · next opened => exact kept_broadcast (kept_append kept calls (by simpa using room) (by simpa using opened))
  | next i lastSeq cancelled => exact kept_setNext kept (by rintro _ ⟨⟩ ⟨⟩)
  | nextTurn i =>
    apply kept_setNext kept
    intro c found
    obtain ⟨c', old, new⟩ := Option.bind_eq_some_iff.mp found
    split at new
    · cases new
    · cases new
      exact kept.watched i c' old
  | cancel i =>
    apply kept_setNext kept
    intro c found
    obtain ⟨c', old, rfl⟩ := Option.map_eq_some_iff.mp found
    exact fun _ => rfl
  | watch i =>
    apply kept_broadcast
    apply kept_setNext kept
    intro c found
    obtain ⟨c', old, rfl⟩ := Option.map_eq_some_iff.mp found
    simp only [Retaining.guard, old, Option.any_some, Bool.and_eq_true] at ok
    exact fun _ => ok.1
  | prune t =>
    simp only [Retaining.exec]
    split
    · exact kept
    · exact kept_broadcast (kept_prune kept t)
  | close => exact kept_broadcast { kept with }

lemma Retaining.Patient.step (patient : s.Patient) (kept : s.Kept) {a : RetainAct μ} : (s.exec a).Patient := by
  cases a with
  | append b => exact ⟨by rintro _ ⟨⟩, patient.next⟩
  | appendTurn =>
    cases calls : s.appending with
    | none => simpa [Retaining.exec, calls] using patient
    | some call =>
      obtain ⟨b, z⟩ := call
      simp only [Retaining.exec, calls]
      split
      · next full =>
        refine ⟨?_, patient.next⟩
        rintro _ ⟨⟩
        exact full
      · split
        · exact ⟨by simp, patient.next⟩
        · exact patient_broadcast
  | next i lastSeq cancelled => exact patient_setNext patient (by rintro _ ⟨⟩ ⟨⟩)
  | nextTurn i =>
    apply patient_setNext patient
    intro c found _
    obtain ⟨c', old, new⟩ := Option.bind_eq_some_iff.mp found
    split at new
    · cases new
    · next stays =>
      cases new
      simp only [NextCall.returns, Bool.or_eq_true, not_or, Bool.not_eq_true, Option.isSome_eq_false_iff,
        Option.isNone_iff_eq_none] at stays
      refine ⟨stays.1.1, stays.1.2, ?_⟩
      by_contra unwatched
      rw [kept.watched i c' old (by simpa using unwatched)] at stays
      exact Bool.noConfusion stays.2
  | cancel i =>
    apply patient_setNext patient
    intro c found
    obtain ⟨c', old, rfl⟩ := Option.map_eq_some_iff.mp found
    exact patient.next i c' old
  | watch i => exact patient_broadcast
  | prune t =>
    simp only [Retaining.exec]
    split
    · exact patient
    · exact patient_broadcast
  | close => exact patient_broadcast

end Sound

/-- The scan of `Next` finds the least seq above the one asked for. -/
lemma next?_least {μ : Type} {r : RetainBuffer μ} (sorted : r.queue.Pairwise fun d e => d.seq < e.seq) {lastSeq : Nat}
    {e : BatchEnvelope μ} (found : r.next? lastSeq = some e) :
    e ∈ r.queue ∧ lastSeq < e.seq ∧ ∀ d ∈ r.queue, lastSeq < d.seq → e.seq ≤ d.seq := by
  obtain ⟨above, pre, post, eq, before⟩ := List.find?_eq_some_iff_append.mp found
  refine ⟨by simp [eq], by simpa using above, ?_⟩
  intro d mem later
  rw [eq, List.pairwise_append, List.pairwise_cons] at sorted
  rw [eq, List.mem_append, List.mem_cons] at mem
  rcases mem with early | rfl | late
  · exact absurd later (by simpa using before d early)
  · exact le_rfl
  · exact (sorted.2.1.1 d late).le

/-- What leaves the queue is covered by a prune. -/
lemma leaves_by_prune {μ : Type} {s : Retaining μ} {a : RetainAct μ} {e : BatchEnvelope μ} (here : e ∈ s.buffer.queue)
    (gone : e ∉ (s.exec a).buffer.queue) : ∃ t, a = .prune t ∧ e.seq ≤ t := by
  cases a with
  | prune t =>
    simp only [Retaining.exec] at gone
    split at gone
    · exact absurd here gone
    · refine ⟨t, rfl, ?_⟩
      have split := @List.takeWhile_append_dropWhile _ (fun e : BatchEnvelope μ => decide (e.seq ≤ t)) s.buffer.queue
      rw [← split, List.mem_append] at here
      rcases here with cut | stays
      · simpa using List.mem_takeWhile_imp cut
      · exact absurd stays gone
  | appendTurn =>
    cases calls : s.appending with
    | none => simp [Retaining.exec, calls, here] at gone
    | some call =>
      simp only [Retaining.exec, calls] at gone
      split at gone
      · exact absurd here gone
      · split at gone
        · exact absurd here gone
        · next opened => simp [broadcast, RetainBuffer.append, opened, here] at gone
  | append | next | nextTurn | cancel | watch | close => exact absurd here gone

/-- The retain buffer over any interleaving of its callers. -/
theorem retain_buffer_is_sound {μ : Type} {opts : RetainOpts} {s : Retaining μ} (reach : (retaining μ opts).Reach s) :
    s.buffer.queue.Pairwise (fun d e => d.seq < e.seq) ∧
    s.buffer.totalBytes = (s.buffer.queue.map fun e => (e.bytes : Int)).sum ∧
    (s.buffer.queue.length ≤ 1 ∨
      s.buffer.queue.length ≤ s.buffer.opts.maxSeqs ∧ s.buffer.totalBytes ≤ s.buffer.opts.maxBytes) ∧
    (∀ lastSeq, (∀ e, s.buffer.next? lastSeq = some e →
        e ∈ s.buffer.queue ∧ lastSeq < e.seq ∧ ∀ d ∈ s.buffer.queue, lastSeq < d.seq → e.seq ≤ d.seq) ∧
      (s.buffer.next? lastSeq = none → ∀ d ∈ s.buffer.queue, d.seq ≤ lastSeq)) ∧
    (∀ a e, e ∈ s.buffer.queue → e ∉ (s.exec a).buffer.queue → ∃ t, a = .prune t ∧ e.seq ≤ t) ∧
    (∀ b, s.appending = some (b, true) → s.buffer.full b = true) ∧
    (∀ i c, s.nexts i = some c → c.asleep = true → NextCall.returns c s.buffer = true →
      (s.guard (.watch i)) = true) := by
  have inv : s.Kept ∧ s.Patient := by
    refine @Machine.Reach.invariant _ _ _ (fun s : Retaining μ => s.Kept ∧ s.Patient) ?_ ?_ _ reach
    · rintro _ rfl
      exact ⟨⟨.nil, .new, .inl (Nat.zero_le 1), by simp, by simp, by simp⟩, ⟨by simp, by simp⟩⟩
    · rintro s a - ⟨kept, patient⟩ ok
      exact ⟨kept.step ok, patient.step kept⟩
  obtain ⟨kept, patient⟩ := inv
  refine ⟨kept.sorted, kept.counted, kept.capped, ?_, fun a e => leaves_by_prune, patient.append, ?_⟩
  · intro lastSeq
    refine ⟨fun e found => next?_least kept.sorted found, fun none d mem => ?_⟩
    simpa using List.find?_eq_none.mp none d mem
  · intro i c found sleeps returns
    obtain ⟨none, opened, watching⟩ := patient.next i c found sleeps
    simpa [NextCall.returns, none, opened, Retaining.guard, found, watching] using returns

theorem second_append_waits : ∃ s b, (retaining Unit ⟨1, 10⟩).Reach s ∧ s.appending = some (b, true) ∧
    s.buffer.full b = true := by
  have reach := @Machine.Reach.replay _ _ (retaining Unit ⟨1, 10⟩) _ _ [.append ⟨1, 0, 5, 1, []⟩, .appendTurn,
    .append ⟨2, 0, 5, 1, []⟩, .appendTurn] (.init rfl) rfl
  exact ⟨_, _, reach, rfl, (retain_buffer_is_sound reach).2.2.2.2.2.1 _ rfl⟩

end PjCloud.Session
