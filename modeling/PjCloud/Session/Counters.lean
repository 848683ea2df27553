import PjCloud.Session.Channel

/-!
# The totals of a stream

A consumer seeds its counters from the producer's ledger at its cursor and adds every batch it sends
(`spawnConsumer`, `sendBatch`). While it sends a gapless stretch its counters are the totals of the
batches up to the last one sent (`Tallied`), whatever earlier consumers have sent. The `Eos{COMPLETE}`
on a connection carries the counters of a consumer of that connection (`reach_completedOn`).
-/

namespace PjCloud.Session
open PjCloud.Lib
variable {μ : Type}

/-- The consumer has started to count. -/
def Pc.counting : Pc → Bool
  | .running => true
  | .draining => true
  | .stopped _ => true
  | .untracking _ => true
  | .cancelling _ => true
  | .exited _ => true
  | _ => false

/-- The counters are the totals of the batches up to the last seq sent. -/
def Tallied (s : State μ) (x : Attachment μ) : Prop :=
  x.pc.counting = true → x.lastSeq ≤ s.appended.length ∧
    (x.messagesSent, x.bytesSent) = totals (s.appended.take x.lastSeq)

namespace Tallied
variable {n b : Nat} {s s' : State μ} {a : Action} {x : Attachment μ}

lemma mono (t : Tallied s x) (happ : s.appended <+: s'.appended) : Tallied s' x := by
  intro hc
  obtain ⟨hle, e⟩ := t hc
  obtain ⟨l, hl⟩ := happ
  refine ⟨?_, ?_⟩
  · rw [← hl, List.length_append]
    omega
  · rw [← hl, List.take_append_of_le_length hle]
    exact e

lemma congr {y : Attachment μ} (t : Tallied s x)
    (hc : y.pc.counting = true → x.pc.counting = true)
    (e : (y.lastSeq, y.messagesSent, y.bytesSent) = (x.lastSeq, x.messagesSent, x.bytesSent)) :
    Tallied s y := by
  simp only [Prod.mk.injEq] at e
  obtain ⟨e1, e2, e3⟩ := e
  intro hy
  rw [e1, e2, e3]
  exact t (hc hy)

lemma seed (inv : StreamInv s) {m : Nat} (hm : m ≤ s.appended.length) :
    countersThrough s.ledger m = totals (s.appended.take m) := by
  obtain ⟨l, hl⟩ := inv.appended
  rw [inv.ledger, countersThrough_ledgerOf inv.numbered, ← hl, List.take_append_of_le_length hm]

lemma totals_take_succ {l : List (BatchEnvelope μ)} {k env} (h : l[k]? = some env) :
    totals (l.take (k + 1)) =
      ((totals (l.take k)).1 + env.messages, (totals (l.take k)).2 + env.bytes) := by
  rw [List.take_add_one, h]
  simp [totals]

lemma step (t : Tallied s (s.atts b)) (r : Replays s (s.atts b)) (inv : StreamInv s)
    (hm : (s.atts b).startAfterSeq ≤ s.appended.length) (h : Step n s a s') (hb : b < s.natts) :
    Tallied s' (s'.atts b) := by
  refine mono (s := s) ?_ h.appended_grows
  have consuming : (s.atts b).pc = .running ∨ (s.atts b).pc = .draining →
      (s.atts b).pc.counting = true := by
    intro hp
    obtain e | e := hp <;> simp [e, Pc.counting]
  by_cases ha : a.attachment = some b
  · cases a with
    | opening c act =>
      cases ha
      cases h with
      | track =>
        intro _
        simp only [Function.update_self]
        exact ⟨hm, seed inv hm⟩
      | _ =>
        intro hc
        simp [Pc.counting] at hc
    | consumer c act =>
      cases ha
      cases h with
      | ackPrune => exact t
      | progress => exact t
      | @send _ env hp he _ _ =>
        intro _
        simp only [Function.update_self]
        have hget := r.ready env he
        have hseq := inv.seq_of_getElem? hget
        have hlt := (List.getElem?_eq_some_iff.mp hget).1
        obtain ⟨-, e⟩ := t (consuming hp)
        rw [hseq, totals_take_succ hget, ← e]
        exact ⟨hlt, rfl⟩
      | fetch =>
        simp only [Function.update_self]
        exact t
      | sendFail hp =>
        simp only [Function.update_self]
        exact t.congr (fun _ => consuming hp) rfl
      | panic hp =>
        simp only [Function.update_self]
        exact t.congr (fun _ => consuming hp) rfl
      | @dispose _ why hp =>
        simp only [Function.update_self]
        exact t.congr (fun _ => by simp [hp, Pc.counting]) rfl
      | _ =>
        simp only [Function.update_self]
        exact t.congr (fun _ => by simp_all [Pc.counting]) rfl
    | _ => cases ha
  · exact t.congr (fun h' => by rwa [h.att_frame hb Attachment.pc (fun _ _ _ => rfl) ha] at h')
      (h.att_frame hb (fun x => (x.lastSeq, x.messagesSent, x.bytesSent)) (fun _ _ _ => rfl) ha)

end Tallied

def Attachment.tally (x : Attachment μ) : Nat × Nat × Nat :=
  (x.lastSeq, x.messagesSent, x.bytesSent)

lemma Step.tally_completed {n : Nat} {s s' : State μ} {a} (h : Step n s a s') {b} (hb : b < s.natts)
    (hc : (s.atts b).pc.completing = true) (hd : (s.atts b).pc ≠ .draining) :
    (s'.atts b).tally = (s.atts b).tally := by
  by_cases ha : a.attachment = some b
  · cases a with
    | opening b' act =>
      cases ha
      cases h <;> simp_all [Pc.completing, Attachment.tally]
    | consumer b' act =>
      cases ha
      cases h <;> simp_all [Pc.completing, Attachment.tally]
    | _ => cases ha
  · exact h.att_frame hb _ (fun _ _ _ => rfl) ha

/-- A consumer of the connection has completed with these totals. -/
def CompletedOn (s : State μ) (c x y : Nat) : Prop :=
  ∃ b, b < s.natts ∧ (s.atts b).conn = c ∧ (s.atts b).pc.completing = true ∧
    (s.atts b).pc ≠ .draining ∧ ((s.atts b).messagesSent, (s.atts b).bytesSent) = (x, y)

lemma CompletedOn.step {n : Nat} {s s' : State μ} {a c x y} (done : CompletedOn s c x y)
    (h : Step n s a s') : CompletedOn s' c x y := by
  obtain ⟨b, hb, hconn, hc, hd, e⟩ := done
  obtain ⟨hc', hd'⟩ := h.completed_mono hb hc hd
  refine ⟨b, Nat.lt_of_lt_of_le hb h.natts_le, ?_, hc', hd', ?_⟩
  · rw [h.att_conn hb, hconn]
  · exact (congrArg Prod.snd (h.tally_completed hb hc hd)).trans e

lemma CompletedOn.of_eos {n : Nat} {s s' : State μ} {b} (num : Numbering s)
    (h : Step n s (.consumer b .eos) s') :
    CompletedOn s' (s.atts b).conn (s.atts b).messagesSent (s.atts b).bytesSent := by
  cases h with
  | eos hp =>
    have hb : b < s.natts := num.lt (by simp [hp])
    exact ⟨b, hb, by simp, by simp [Pc.completing], by simp, by simp⟩

/-- An `Eos{COMPLETE}` on a connection is that of a consumer of the connection. -/
lemma reach_completedOn {n : Nat} {s : State μ} (rch : (server n).Reach s) {c x y : Nat} :
    .eos .complete x y ∈ (s.conns c).chans.posted → CompletedOn s c x y := by
  refine server_invariant
    (fun s => .eos .complete x y ∈ (s.conns c).chans.posted → CompletedOn s c x y) ?_ ?_ rch
  · intro opts plan hf
    nomatch hf
  · intro s a s' rch h ih hf
    obtain e | m := h.chan_cases c
    · exact (ih (e ▸ hf)).step h
    obtain hf | hp | hf := m.posted_cases hf
    · exact (ih hf).step h
    · generalize hfr : Frame.eos EosReason.complete x y = f at hp
      cases hp with
      | terminal hq =>
        cases hq with
        | complete =>
          cases hfr
          exact .of_eos (reach_numbering rch) h
        | _ => cases hfr
      | _ => cases hfr
    · cases (reach_chanInv rch c).bulk _ hf

end PjCloud.Session
