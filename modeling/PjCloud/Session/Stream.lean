import PjCloud.Session.Frame

/-!
# The stream of batches

The producer numbers its batches, writes each to the ledger and then appends it; the retain buffer holds
an end piece of what has been appended. `State.low` is the number of batches pruned from its front, so
that the buffer can replay exactly the batches above `low`. These facts hold in every run
(`reach_streamInv`), whatever clients acknowledge or ask for.
-/

namespace PjCloud.Session
open PjCloud.Lib
variable {μ : Type}

def State.low (s : State μ) : Nat :=
  s.appended.length - s.retain.queue.length

/-- The ledger, the batches and the buffer agree. -/
structure StreamInv (s : State μ) : Prop where
  numbered : Numbered (·.seq) 0 s.recorded
  ledger : s.ledger = ledgerOf s.recorded
  nextSeq : s.nextSeq = s.recorded.length
  appended : s.appended <+: s.recorded
  pending : s.retain.closed = false → s.recorded = s.appended ++ s.pending.toList
  appending : ∀ env, s.pending = some env → s.producer = .appending
  queue : s.retain.queue <:+ s.appended
  counted : s.retain.Counted

namespace StreamInv
variable {n : Nat} {s s' : State μ} {a : Action}

lemma appended_numbered (inv : StreamInv s) : Numbered (·.seq) 0 s.appended :=
  inv.numbered.of_prefix inv.appended

lemma queue_eq (inv : StreamInv s) : s.retain.queue = s.appended.drop s.low :=
  List.suffix_iff_eq_drop.mp inv.queue

lemma queue_numbered (inv : StreamInv s) : Numbered (·.seq) s.low s.retain.queue := by
  have := inv.appended_numbered.drop s.low
  rwa [Nat.zero_add, ← inv.queue_eq] at this

/-- Above the low end `Next` finds the next batch, if it has been appended. -/
lemma next?_eq (inv : StreamInv s) {q} (hq : s.low ≤ q) :
    s.retain.next? q = s.appended[q]? := by
  rw [RetainBuffer.next?, inv.queue_numbered.find?_lt, inv.queue_eq, List.getElem?_drop]
  congr 1
  omega

lemma seq_of_getElem? (inv : StreamInv s) {q env} (h : s.appended[q]? = some env) :
    env.seq = q + 1 := by
  have : env.seq = 0 + 1 + q := inv.appended_numbered q env h
  omega

lemma prune_suffix {r : RetainBuffer μ} {t} : (r.prune t).queue <:+ r.queue :=
  List.dropWhile_suffix _

lemma low_prune (inv : StreamInv s) (t : Nat) :
    s.appended.length - (s.retain.prune t).queue.length = max s.low (min t s.appended.length) := by
  rw [RetainBuffer.prune_queue, inv.queue_numbered.dropWhile_le, List.length_drop]
  have := inv.queue.length_le
  unfold State.low at *
  omega

lemma frame (inv : StreamInv s)
    (hrec : (s'.recorded, s'.ledger, s'.nextSeq) = (s.recorded, s.ledger, s.nextSeq))
    (happ : (s'.appended, s'.retain, s'.pending) = (s.appended, s.retain, s.pending))
    (hp : s.producer = .appending → s'.producer = .appending) : StreamInv s' := by
  simp only [Prod.mk.injEq] at hrec happ
  obtain ⟨hr, hl, hn⟩ := hrec
  obtain ⟨ha, hq, hpend⟩ := happ
  constructor
  · rw [hr]
    exact inv.numbered
  · rw [hr, hl]
    exact inv.ledger
  · rw [hr, hn]
    exact inv.nextSeq
  · rw [hr, ha]
    exact inv.appended
  · rw [hr, ha, hq, hpend]
    exact inv.pending
  · rw [hpend]
    exact fun env he => hp (inv.appending env he)
  · rw [ha, hq]
    exact inv.queue
  · rw [hq]
    exact inv.counted

lemma step (inv : StreamInv s) (h : Step n s a s') : StreamInv s' := by
  have idle : s.producer ≠ .appending → s.pending = none := by
    intro hp
    cases e : s.pending with
    | none => rfl
    | some env => exact absurd (inv.appending env e) hp
  cases h
  case record b bs hp _ =>
    have hnone := idle (by simp [hp])
    constructor
    · apply inv.numbered.append_next
      simp only [Batch.envelope, inv.nextSeq]
      omega
    · simp only [ledgerOf_append, Batch.envelope, inv.ledger]
    · simp [inv.nextSeq]
    · exact inv.appended.trans (List.prefix_append _ _)
    · intro hc
      have := inv.pending hc
      rw [hnone] at this
      simp [this]
    · exact fun _ _ => rfl
    · exact inv.queue
    · exact inv.counted
  case append env hp he _ =>
    cases hc : s.retain.closed with
    | true =>
      have hr : s.retain.append env = s.retain := by simp [RetainBuffer.append, hc]
      constructor
      · exact inv.numbered
      · exact inv.ledger
      · exact inv.nextSeq
      · simpa [hc] using inv.appended
      · simp [hc]
      · exact (by intro _ he; cases he)
      · simpa [hc, hr] using inv.queue
      · simpa [hr] using inv.counted
    | false =>
      have hrec : s.recorded = s.appended ++ [env] := by simpa [he] using inv.pending hc
      constructor
      · exact inv.numbered
      · exact inv.ledger
      · exact inv.nextSeq
      · simp [hrec]
      · simp [hrec, hc]
      · exact (by intro _ he; cases he)
      · obtain ⟨l, hl⟩ := inv.queue
        exact ⟨l, by simp [hc, RetainBuffer.append, ← hl]⟩
      · exact inv.counted.append
  case prune b hp =>
    exact ⟨inv.numbered, inv.ledger, inv.nextSeq, inv.appended, inv.pending, inv.appending,
      prune_suffix.trans inv.queue, inv.counted.prune _⟩
  case ackPrune =>
    exact ⟨inv.numbered, inv.ledger, inv.nextSeq, inv.appended, inv.pending, inv.appending,
      prune_suffix.trans inv.queue, inv.counted.prune _⟩
  case closeRetain =>
    exact ⟨inv.numbered, inv.ledger, inv.nextSeq, inv.appended, (by intro hc; cases hc),
      inv.appending, inv.queue, inv.counted⟩
  all_goals exact inv.frame rfl rfl (by simp_all)

lemma low_cases (inv : StreamInv s) (h : Step n s a s') :
    s'.low = s.low ∧ (∀ b, a ≠ .opening b .prune ∧ a ≠ .consumer b .ack) ∨
      (∃ b, a = .opening b .prune ∧ (s.atts b).pc = .reattached ∧
        s'.low = max s.low (min (s.atts b).startAfterSeq s.appended.length)) ∨
      ∃ b t ts, a = .consumer b .ack ∧ s.ackCh = t :: ts ∧
        s'.low = max s.low (min t s.appended.length) := by
  cases h
  case append env _ _ _ =>
    refine .inl ⟨?_, fun b => ⟨(by intro e; cases e), (by intro e; cases e)⟩⟩
    cases hc : s.retain.closed with
    | true => simp [State.low, RetainBuffer.append, hc]
    | false => simp [State.low, RetainBuffer.append, hc]
  case prune b hp => exact .inr (.inl ⟨b, rfl, hp, inv.low_prune _⟩)
  case ackPrune b t ts _ hq => exact .inr (.inr ⟨b, t, ts, rfl, hq, inv.low_prune _⟩)
  all_goals exact .inl ⟨rfl, fun b => ⟨(by intro e; cases e), (by intro e; cases e)⟩⟩

lemma low_mono (inv : StreamInv s) (h : Step n s a s') : s.low ≤ s'.low := by
  obtain ⟨e, -⟩ | ⟨b, -, -, e⟩ | ⟨b, t, ts, -, -, e⟩ := inv.low_cases h <;> omega

end StreamInv

lemma Step.ackCh_cases {n : Nat} {s s' : State μ} {a} (h : Step n s a s') {t} (ht : t ∈ s'.ackCh) :
    t ∈ s.ackCh ∨ ∃ c, a = .conn c (.ack t true) := by
  cases h
  case ackTaken c u _ _ _ =>
    obtain ht | ht := List.mem_append.mp ht
    · exact .inl ht
    · cases List.mem_singleton.mp ht
      exact .inr ⟨c, rfl⟩
  case ackPrune hq => exact .inl (hq ▸ List.mem_cons_of_mem _ ht)
  all_goals exact .inl ht

/-- The ledger, the batches and the buffer agree in every run. -/
theorem reach_streamInv {n : Nat} {s : State μ} (rch : (server n).Reach s) : StreamInv s := by
  refine server_invariant StreamInv ?_ (fun _ _ _ _ h inv => inv.step h) rch
  intro opts plan
  constructor
  · exact Numbered.nil
  · rfl
  · rfl
  · exact List.prefix_refl _
  · exact fun _ => rfl
  · exact (by intro _ he; cases he)
  · exact List.suffix_refl _
  · exact RetainBuffer.Counted.new

end PjCloud.Session
