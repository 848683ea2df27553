import Mathlib.Algebra.BigOperators.Ring.Finset
import PjCloud.Download.Delivery

/-!
# Backpressure

The producer waits while the retain buffer is at its caps, the buffer is pruned by acks, and the client
acks on receipt of a batch only: the 64th since its last ack, or the first after 500 ms. When the caps
are hit before that, the client waits for a batch, the producer for an ack, and nothing is under way
(`two_batches_stick`). An ack that finds `AckCh` full is dropped, which has the same effect.

With room for 64 batches in the buffer, in number and in bytes, and no dropped ack, a download does not
get stuck (`not_stuck`): the batches in the buffer are among those since the last ack.
-/

namespace PjCloud.Download
open PjCloud.Lib PjCloud.Session
variable {μ : Type}

/-- The read loop has not ended. -/
def readAlive : ReadPc → Bool
  | .detaching _ => false
  | .detached => false
  | .closed => false
  | _ => true

/-- The producer is blocked on the caps, the client has processed every retained batch and waits in its
    frame loop on a live connection, and no ack is under way or queued. -/
def Stuck (S : System μ) : Prop :=
  S.server.producer = .appending ∧ S.server.pending.any S.server.retain.full = true ∧
    (∀ e ∈ S.server.retain.queue, e.seq ≤ S.client.lastSeq) ∧ S.client.phase = .streaming ∧
    readAlive (S.server.conns S.client.conn).read = true ∧ S.server.entry.life = .registered ∧
    S.server.ackCh = [] ∧ ∀ m ∈ S.up S.client.conn, m = .cancel

instance (S : System μ) : Decidable (Stuck S) :=
  inferInstanceAs (Decidable (_ ∧ _))

/-- No ack finds `AckCh` full. -/
def ackKept (S : System μ) : Act → Bool
  | .server (.conn _ (.ack _ true)) => decide (S.server.ackCh.length < ackChanCap)
  | _ => true

def planBytes (l : List (Batch μ)) : Nat :=
  (l.map (·.bytes)).sum

/-- The buffer has room for as many batches as the client processes before it acks. -/
def CapsSuffice (opts : RetainOpts) (plan : List (Batch μ)) : Prop :=
  (kAckEveryBatches : Int) ≤ (RetainBuffer.newRetainBuffer opts : RetainBuffer μ).opts.maxSeqs ∧
    ∀ i, (planBytes ((plan.drop i).take kAckEveryBatches) : Int) ≤
      (RetainBuffer.newRetainBuffer opts : RetainBuffer μ).opts.maxBytes

/-- The buffer has the configured caps, and what has been recorded is what the plan says. -/
structure Produced (opts : RetainOpts) (plan : List (Batch μ)) (s : State μ) : Prop where
  opts : s.retain.opts = (RetainBuffer.newRetainBuffer opts : RetainBuffer μ).opts
  bytes : s.recorded.map (·.bytes) ++ s.todo.map (·.bytes) = plan.map (·.bytes)

lemma Produced.step {opts : RetainOpts} {plan : List (Batch μ)} {n s s' a} (p : Produced opts plan s)
    (h : Step n s a s') : Produced opts plan s' := by
  cases h
  case record b bs _ ht =>
    refine ⟨p.opts, ?_⟩
    have := p.bytes
    rw [ht] at this
    simpa [Batch.envelope] using this
  case append => exact ⟨by simpa using p.opts, p.bytes⟩
  all_goals exact ⟨p.opts, p.bytes⟩

lemma reach_produced {n k : Nat} {opts : RetainOpts} {plan : List (Batch μ)} {S : System μ}
    (rch : (download n k opts plan).Reach S) : Produced opts plan S.server := by
  refine download_invariant (fun S => Produced opts plan S.server) ⟨rfl, rfl⟩ ?_ rch
  intro S a S' _ h p
  cases h with
  | server _ h => exact p.step h
  | _ => exact p

/-- The buffer has been pruned through `t`, or an ack that will do it is under way or queued. -/
def AckedThrough (S : System μ) (t : Nat) : Prop :=
  t ≤ S.server.low ∨ (∃ u ∈ S.server.ackCh, t ≤ u) ∨ ∃ u, .ack u ∈ S.up S.client.conn ∧ t ≤ u

/-- What the client has not acked, and what the handlers have pruned. -/
structure Backlog (S : System μ) : Prop where
  few : S.client.batchesSinceAck < kAckEveryBatches
  cursor : S.client.phase.waiting = true → ∀ b, b < S.server.natts →
    (S.server.atts b).conn = S.client.conn → (S.server.atts b).startAfterSeq = S.client.lastSeq
  fresh : ∀ b, b < S.server.natts → (S.server.atts b).pc = .registered →
    (S.server.atts b).startAfterSeq = 0
  pruned : ∀ b, b < S.server.natts → (S.server.atts b).pc = .pruned →
    (S.server.atts b).startAfterSeq ≤ S.server.low
  answered : ∀ c, .openSession ∈ (S.server.conns c).chans.posted →
    ∃ b, b < S.server.natts ∧ (S.server.atts b).conn = c ∧
      (S.server.atts b).startAfterSeq ≤ S.server.low
  acked : S.client.phase = .streaming → readAlive (S.server.conns S.client.conn).read = true →
    S.server.entry.life ≠ .removed →
    AckedThrough S (S.client.lastSeq - S.client.batchesSinceAck)

lemma Produced.retained_le {opts : RetainOpts} {plan : List (Batch μ)} {s : State μ}
    (p : Produced opts plan s) (inv : StreamInv s) {env : BatchEnvelope μ} {k : Nat}
    (hrec : s.recorded = s.appended ++ [env]) (hk : s.retain.queue.length < k) :
    (s.retain.queue.map (·.bytes)).sum + env.bytes ≤ planBytes ((plan.drop s.low).take k) := by
  have hlow : s.low ≤ s.appended.length := Nat.sub_le _ _
  have hdrop : s.recorded.drop s.low = s.retain.queue ++ [env] := by
    rw [hrec, List.drop_append_of_le_length hlow, ← inv.queue_eq]
  have hplan : (plan.drop s.low).map (·.bytes) =
      (s.retain.queue ++ [env]).map (·.bytes) ++ s.todo.map (·.bytes) := by
    rw [← hdrop, List.map_drop, List.map_drop, ← p.bytes, List.drop_append_of_le_length]
    simp [hrec]
    omega
  rw [planBytes, List.map_take, hplan, List.take_append, List.take_of_length_le (by simp; omega)]
  simp

/-- When the client has processed every retained batch, those are batches since its last ack. -/
lemma Backlog.retained_few {S : System μ} (bl : Backlog S) (inv : StreamInv S.server)
    (stuck : Stuck S) :
    S.server.retain.queue.length < kAckEveryBatches := by
  obtain ⟨-, -, hall, hphase, halive, hlife, hack, hup⟩ := stuck
  have hlow : S.client.lastSeq - S.client.batchesSinceAck ≤ S.server.low := by
    obtain h | ⟨u, hu, -⟩ | ⟨u, hu, -⟩ := bl.acked hphase halive (by simp [hlife])
    · exact h
    · simp [hack] at hu
    · cases hup _ hu
  have hlen := inv.queue.length_le
  have few := bl.few
  cases hq : S.server.retain.queue.getLast? with
  | none =>
    rw [List.getLast?_eq_none_iff.mp hq]
    exact Nat.zero_lt_of_lt few
  | some e =>
    have hlast := hall e (List.mem_of_getLast? hq)
    rw [List.getLast?_eq_getElem?] at hq
    have hseq : e.seq = S.server.low + 1 + (S.server.retain.queue.length - 1) :=
      inv.queue_numbered _ e hq
    have hpos := (List.getElem?_eq_some_iff.mp hq).1
    unfold State.low at hseq hlow
    omega

/-- With few batches since the last ack the caps are not hit. -/
lemma Backlog.caps_free {opts : RetainOpts} {plan : List (Batch μ)} {S : System μ} (bl : Backlog S)
    (hcaps : CapsSuffice opts plan) (inv : StreamInv S.server) (p : Produced opts plan S.server) :
    ¬ Stuck S := by
  intro stuck
  have few := bl.retained_few inv stuck
  obtain ⟨env, hpend, hfull⟩ := (Option.any_eq_true _ _).mp stuck.2.1
  simp only [RetainBuffer.full, Bool.and_eq_true, Bool.not_eq_true', Bool.or_eq_true,
    decide_eq_true_eq] at hfull
  obtain ⟨⟨hclosed, -⟩, hseqs | hbytes⟩ := hfull
  · have := hcaps.1
    rw [p.opts] at hseqs
    omega
  · have hrec : S.server.recorded = S.server.appended ++ [env] := by
      simpa [hpend] using inv.pending hclosed
    have hsum := p.retained_le inv hrec few
    have hcap := hcaps.2 S.server.low
    have hcount : S.server.retain.totalBytes = ((S.server.retain.queue.map (·.bytes)).sum : Nat) := by
      rw [inv.counted, Nat.cast_list_sum, List.map_map]
      rfl
    rw [p.opts, hcount] at hbytes
    omega

lemma upAfter_cases {S : System μ} {a u c} (ha : S.allows a = true) (hu : .ack u ∈ S.up c) :
    .ack u ∈ S.upAfter a c ∨ ∃ found, a = .conn c (.ack u found) := by
  cases a with
  | conn d act =>
    by_cases e : c = d
    · obtain rfl := e
      cases act with
      | ack t found =>
        have hhead : (S.up c).head? = some (.ack t) := by simpa [System.allows] using ha
        obtain ⟨ms, hms⟩ := List.head?_eq_some_iff.mp hhead
        rw [hms] at hu
        obtain hu | hu := List.mem_cons.mp hu
        · cases hu
          exact .inr ⟨found, rfl⟩
        · exact .inl (by simpa [System.upAfter, hms] using hu)
      | cancelLookup =>
        have hhead : (S.up c).head? = some .cancel := by simpa [System.allows] using ha
        obtain ⟨ms, hms⟩ := List.head?_eq_some_iff.mp hhead
        rw [hms] at hu
        obtain hu | hu := List.mem_cons.mp hu
        · cases hu
        · exact .inl (by simpa [System.upAfter, hms] using hu)
      | _ => exact .inl hu
    · cases act with
      | ack t found => exact .inl (by simpa [System.upAfter, Function.update_of_ne e] using hu)
      | cancelLookup => exact .inl (by simpa [System.upAfter, Function.update_of_ne e] using hu)
      | _ => exact .inl hu
  | _ => exact .inl hu

lemma ackCh_kept {n : Nat} {s s' : State μ} {a u} (h : Step n s a s') (hu : u ∈ s.ackCh) :
    u ∈ s'.ackCh ∨ ∃ b ts, a = .consumer b .ack ∧ s.ackCh = u :: ts := by
  cases h
  case ackTaken => exact .inl (List.mem_append_left _ hu)
  case ackPrune b t ts _ hq =>
    rw [hq] at hu
    obtain hu | hu := List.mem_cons.mp hu
    · cases hu
      exact .inr ⟨b, ts, rfl, hq⟩
    · exact .inl hu
  all_goals exact .inl hu

lemma AckedThrough.server {n : Nat} {S : System μ} {a s' t} (hack : AckedThrough S t)
    (curs : Cursors S) (inv : StreamInv S.server) (hok : ackKept S (.server a) = true)
    (ha : S.allows a = true) (h : Step n S.server a s') (hlife : S.server.entry.life = .registered) :
    AckedThrough { S with server := s', opens := S.opensAfter a, up := S.upAfter a } t := by
  obtain hlow | ⟨u, hu, ht⟩ | ⟨u, hu, ht⟩ := hack
  · exact .inl (Nat.le_trans hlow (inv.low_mono h))
  · obtain hu' | ⟨b, ts, rfl, hq⟩ := ackCh_kept h hu
    · exact .inr (.inl ⟨u, hu', ht⟩)
    · have hle := Nat.le_trans (curs.ackCh u hu) curs.le
      refine .inl ?_
      show t ≤ s'.low
      obtain ⟨-, hne⟩ | ⟨b, e, -⟩ | ⟨b, u', ts', -, hq', e⟩ := inv.low_cases h
      · exact absurd rfl (hne b).2
      · cases e
      · cases hq.symm.trans hq'
        omega
  · obtain hu | ⟨found, rfl⟩ := upAfter_cases ha hu
    · exact .inr (.inr ⟨u, hu, ht⟩)
    · cases h with
      | ackTaken => exact .inr (.inl ⟨u, by simp, ht⟩)
      | ackDropped _ hfull hgone =>
        cases found with
        | true =>
          have := hfull rfl
          simp only [ackKept, decide_eq_true_eq] at hok
          omega
        | false => exact absurd hlife (hgone rfl)

lemma alive_of_alive {n : Nat} {s s' : State μ} {a} (h : Step n s a s') (c : Nat)
    (hr : readAlive (s'.conns c).read = true) : readAlive (s.conns c).read = true := by
  obtain e | m := h.read_cases c
  · rwa [e] at hr
  generalize (s'.conns c).read = r at m hr
  cases m <;> simp_all [readAlive]

lemma pc_cases {n b : Nat} {s s' : State μ} {a} (h : Step n s a s') (hb : b < s.natts) :
    ((s'.atts b).pc = .registered → (s.atts b).pc = .registered) ∧
      ((s'.atts b).pc = .pruned → (s.atts b).pc = .pruned ∨ a = .opening b .prune) := by
  by_cases ha : a.attachment = some b
  · cases a with
    | opening c act =>
      cases ha
      cases h <;> simp_all
    | consumer c act =>
      cases ha
      cases h with
      | @dispose _ why =>
        obtain e | e := disposition_cases (s.atts b) why <;> simp [e]
      | _ => simp_all
    | _ => cases ha
  · rw [h.att_frame hb Attachment.pc (fun _ _ _ => rfl) ha]
    exact ⟨id, .inl⟩

lemma kAckEveryBatches_pos : 0 < kAckEveryBatches := by decide

namespace Backlog
variable {n k : Nat} {S S' : System μ}

lemma att_cases {a s'} (h : Step n S.server a s') {b} (hb : b < s'.natts) :
    (b < S.server.natts ∧ (s'.atts b).conn = (S.server.atts b).conn ∧
        (s'.atts b).startAfterSeq = (S.server.atts b).startAfterSeq) ∨
      b = S.server.natts ∧ s'.natts ≠ S.server.natts := by
  by_cases hb' : b < S.server.natts
  · have := h.att_origin hb'
    simp only [Attachment.origin, Prod.mk.injEq] at this
    exact .inl ⟨hb', this⟩
  · obtain e | ⟨e, -⟩ := h.natts_cases <;> exact .inr (by omega)

lemma server {a s'} (bl : Backlog S) (d : Delivery S) (rch : (Session.server n).Reach S.server)
    (hok : ackKept S (.server a) = true) (ha : S.allows a = true) (h : Step n S.server a s') :
    Backlog { S with server := s', opens := S.opensAfter a, up := S.upAfter a } := by
  have num := reach_numbering rch
  have inv := reach_streamInv rch
  have rises := inv.low_mono h
  constructor
  · exact bl.few
  · intro hp b hb hc
    have hp : S.client.phase.waiting = true := hp
    obtain ⟨hb', ec, es⟩ | ⟨rfl, hn⟩ := att_cases h hb
    · exact es.trans (bl.cursor hp b hb' (ec.symm.trans hc))
    · have harm : S.client.phase.armed = true := by
        cases e : S.client.phase <;> simp_all [Phase.waiting, Phase.armed]
      obtain ⟨pc, -, e⟩ := (d.current harm).new_cursor ha h hn hc
      exact congrArg Attachment.startAfterSeq e
  · intro b hb hp
    obtain ⟨hb', -, es⟩ | ⟨rfl, hn⟩ := att_cases h hb
    · exact es.trans (bl.fresh b hb' ((pc_cases h hb').1 hp))
    · obtain e | ⟨-, ⟨c, j, -, e⟩ | ⟨c, m, -, -, e⟩⟩ := h.natts_cases
      · exact absurd e hn
      · exact congrArg Attachment.startAfterSeq e
      · rw [show (s'.atts S.server.natts).pc = .looked from congrArg Attachment.pc e] at hp
        cases hp
  · intro b hb hp
    show (s'.atts b).startAfterSeq ≤ s'.low
    obtain ⟨hb', -, es⟩ | ⟨rfl, hn⟩ := att_cases h hb
    · obtain hp | rfl := (pc_cases h hb').2 hp
      · have := bl.pruned b hb' hp
        omega
      · have hle := Nat.le_trans (d.cursors.atts b hb') d.cursors.le
        obtain ⟨-, hne⟩ | ⟨b', e', -, e⟩ | ⟨b', t, ts, e', -⟩ := inv.low_cases h
        · exact absurd rfl (hne b).1
        · cases e'
          omega
        · cases e'
    · obtain hp' | hp' | hp' := h.pc_new num (Nat.le_refl _) <;> rw [hp'] at hp <;> cases hp
  · intro c hf
    have keep : ∀ b, b < S.server.natts → (S.server.atts b).conn = c →
        (S.server.atts b).startAfterSeq ≤ S.server.low →
        ∃ b, b < s'.natts ∧ (s'.atts b).conn = c ∧ (s'.atts b).startAfterSeq ≤ s'.low := by
      intro b hb hc hle
      have := h.att_origin hb
      simp only [Attachment.origin, Prod.mk.injEq] at this
      exact ⟨b, Nat.lt_of_lt_of_le hb h.natts_le, this.1.trans hc, by omega⟩
    obtain hf | ⟨b, -, hc, hp⟩ := h.openSession_cases (reach_chanInv rch c) hf
    · obtain ⟨b, hb, hc, hle⟩ := bl.answered c hf
      exact keep b hb hc hle
    · have hb : b < S.server.natts := num.lt (by obtain hp | hp := hp <;> simp [hp])
      refine keep b hb hc ?_
      obtain hp | hp := hp
      · exact bl.pruned b hb hp
      · rw [bl.fresh b hb hp]
        exact Nat.zero_le _
  · intro hp hr hl
    have hr := alive_of_alive h S.client.conn hr
    have hl : S.server.entry.life ≠ .removed := fun e => hl (h.removed_mono e)
    obtain ⟨b, hb, -⟩ := d.started hp
    have hlife : S.server.entry.life = .registered := by
      cases e : S.server.entry.life with
      | unregistered =>
        have := (num.unborn e).2
        omega
      | registered => rfl
      | removed => exact absurd e hl
    exact (bl.acked hp hr hl).server d.cursors inv hok ha h hlife

lemma client (bl : Backlog S) {x : Client μ} {up} (few : x.batchesSinceAck < kAckEveryBatches)
    (cursor : x.phase.waiting = true → S.client.phase.waiting = true ∧ x.conn = S.client.conn ∧
      x.lastSeq = S.client.lastSeq)
    (acked : x.phase = .streaming → readAlive (S.server.conns x.conn).read = true →
      S.server.entry.life ≠ .removed →
      AckedThrough { S with client := x, up := up } (x.lastSeq - x.batchesSinceAck)) :
    Backlog { S with client := x, up := up } := by
  refine ⟨few, ?_, bl.fresh, bl.pruned, bl.answered, acked⟩
  intro hp b hb hc
  obtain ⟨hp, ec, es⟩ := cursor hp
  exact (bl.cursor hp b hb (hc.trans ec)).trans es.symm

lemma acked_mono {x : Client μ} {up t} (hack : AckedThrough S t) (hc : x.conn = S.client.conn)
    (hup : S.up S.client.conn ⊆ up S.client.conn) :
    AckedThrough { S with client := x, up := up } t := by
  obtain h | h | ⟨u, hu, ht⟩ := hack
  · exact .inl h
  · exact .inr (.inl h)
  · refine .inr (.inr ⟨u, ?_, ht⟩)
    show .ack u ∈ up x.conn
    rw [hc]
    exact hup hu

lemma up_subset_send {ms : List Upstream} : S.up S.client.conn ⊆ S.send ms S.client.conn := by
  rw [System.send, Function.update_self]
  exact List.subset_append_left _ _

lemma same (bl : Backlog S) {x : Client μ} {up}
    (e : (x.phase, x.conn, x.lastSeq, x.batchesSinceAck) =
      (S.client.phase, S.client.conn, S.client.lastSeq, S.client.batchesSinceAck))
    (hup : S.up S.client.conn ⊆ up S.client.conn) : Backlog { S with client := x, up := up } := by
  simp only [Prod.mk.injEq] at e
  obtain ⟨e1, e2, e3, e4⟩ := e
  refine bl.client (e4 ▸ bl.few) (fun hp => ⟨e1 ▸ hp, e2, e3⟩) ?_
  rw [e1, e2, e3, e4]
  exact fun hp hr hl => acked_mono (bl.acked hp hr hl) e2 hup

lemma rest (bl : Backlog S) {x : Client μ} {up} (hb : x.batchesSinceAck = S.client.batchesSinceAck)
    (hp : x.phase.armed = false) : Backlog { S with client := x, up := up } := by
  refine bl.client (hb ▸ bl.few) (fun h => ?_) (fun h => ?_)
  · cases e : x.phase <;> simp_all [Phase.waiting, Phase.armed]
  · simp [h, Phase.armed] at hp

lemma step {a : Act} (bl : Backlog S) (d : Delivery S) (w : Wiring S)
    (rch : (Session.server n).Reach S.server) (hok : ackKept S a = true) (h : Move n k S a S') :
    Backlog S' := by
  cases h with
  | server ha h => exact bl.server d rch hok ha h
  | @cancelMissing c ms hu =>
    refine bl.client bl.few (fun hp => ⟨hp, rfl, rfl⟩) fun hp hr hl => ?_
    obtain h | h | ⟨u, hm, ht⟩ := bl.acked hp hr hl
    · exact .inl h
    · exact .inr (.inl h)
    · refine .inr (.inr ⟨u, ?_, ht⟩)
      show .ack u ∈ Function.update S.up c ms S.client.conn
      rw [Function.update_apply]
      split
      case isTrue e =>
        rw [e, hu] at hm
        exact (List.mem_cons.mp hm).resolve_left (by simp)
      case isFalse => exact hm
  | receive =>
    obtain ⟨e0, e1, e2, -, e3, -⟩ := Wiring.receive_core (x := S.client)
    exact bl.same (by rw [e0, e1, e2, e3]) (List.Subset.refl _)
  | opened hp hr =>
    refine bl.client kAckEveryBatches_pos (by intro h; cases h) fun _ _ _ => .inl ?_
    obtain ⟨b, hb, hc, hle⟩ := bl.answered S.client.conn
      (List.mem_append_right _ (d.socket.response _ hr))
    show S.client.lastSeq - 0 ≤ S.server.low
    rwa [bl.cursor hp b hb hc] at hle
  | batchAcked hp hq hs =>
    refine bl.client kAckEveryBatches_pos (fun h => ?_) fun _ _ _ => .inr (.inr ⟨_, ?_, Nat.sub_le _ _⟩)
    · simp [Client.deliver, hp, Phase.waiting] at h
    · simp [System.send, Client.deliver]
  | batch hp hq hs hfew =>
    refine bl.client hfew (fun h => ?_) fun hp' hr hl => ?_
    · simp [Client.deliver, hp, Phase.waiting] at h
    · have hack := bl.acked hp hr hl
      have e : ∀ r m : Nat, r + 1 - (m + 1) = r - m := by omega
      simp only [Client.deliver, hs, e]
      exact acked_mono hack rfl (List.Subset.refl _)
  | skip => exact bl.same (by rfl) (List.Subset.refl _)
  | requestCancel => exact bl.same (by rfl) (List.Subset.refl _)
  | sendCancel => exact bl.same (by rfl) up_subset_send
  | retryFailed => exact bl.same (by rfl) (List.Subset.refl _)
  | retry hp =>
    refine ⟨bl.few, ?_, bl.fresh, bl.pruned, bl.answered, (by intro h; cases h)⟩
    intro _ b hb hc
    have := w.atts b hb
    exact absurd hc (Nat.ne_of_lt this)
  | _ => exact bl.rest (by rfl) (by rfl)

end Backlog

section Runs
variable {n k : Nat} {opts : RetainOpts} {plan : List (Batch μ)} {S : System μ}

lemma reach_backlog (rch : ((download n k opts plan).only ackKept).Reach S) : Backlog S := by
  refine download_only_invariant Backlog ?_ ?_ rch
  · exact ⟨kAckEveryBatches_pos, (by intro _ _ h; cases h), (by intro _ h; cases h), (by intro _ h; cases h),
      (by intro _ h; cases h), (by intro h; cases h)⟩
  · exact fun S a S' rch hok h bl =>
      bl.step (reach_delivery rch) (reach_wiring rch) (reach_server rch) hok h

/-- A download whose buffer has room for 64 batches, in number and in bytes, and which drops no ack, does
    not get stuck. -/
theorem not_stuck (hcaps : CapsSuffice opts plan)
    (rch : ((download n k opts plan).only ackKept).Reach S) : ¬ Stuck S :=
  (reach_backlog rch).caps_free hcaps (reach_streamInv (reach_server rch.of_only))
    (reach_produced rch.of_only)

end Runs

/-- A buffer with room for 64 batches is big enough for a plan of one. -/
theorem one_batch_not_stuck :
    ∃ S : System Unit, ((download 64 kMaxResumeAttempts ⟨64, 100⟩ [⟨1, 5, [()]⟩]).only
        ackKept).Reach S ∧ S.client.phase = .streaming ∧ S.client.lastSeq = 1 ∧ ¬ Stuck S := by
  have run : (((download 64 kMaxResumeAttempts ⟨64, 100⟩ [⟨1, 5, [()]⟩]).only ackKept).replay
      (.start ⟨64, 100⟩ [⟨1, 5, [()]⟩]) (openRun ++ appendRun ++ sendRun 0 ++ batchRun 0)).any
      (fun S : System Unit => decide (S.client.phase = .streaming ∧ S.client.lastSeq = 1)) = true := by
    decide +kernel
  have caps : CapsSuffice (⟨64, 100⟩ : RetainOpts) ([⟨1, 5, [()]⟩] : List (Batch Unit)) := by
    refine ⟨by decide, fun i => ?_⟩
    cases i with
    | zero => decide
    | succ i => simp [planBytes, RetainBuffer.newRetainBuffer]
  obtain ⟨S, rch, hS⟩ := replay_only_download run
  obtain ⟨hp, hl⟩ := of_decide_eq_true hS
  exact ⟨S, rch, hp, hl, not_stuck caps rch⟩

/-- With room for one batch, the second one is never sent: the client has processed the first, and does
    not ack it before it gets another. -/
theorem two_batches_stick :
    ∃ S : System Unit, (download 64 kMaxResumeAttempts ⟨1, 100⟩
      [⟨1, 5, [()]⟩, ⟨1, 5, [()]⟩]).Reach S ∧ Stuck S := by
  have run : ((download 64 kMaxResumeAttempts ⟨1, 100⟩ [⟨1, 5, [()]⟩, ⟨1, 5, [()]⟩]).replay
      (.start ⟨1, 100⟩ [⟨1, 5, [()]⟩, ⟨1, 5, [()]⟩])
      (openRun ++ appendRun ++ sendRun 0 ++ batchRun 0 ++ [.server (.producer .record)])).any
      (fun S : System Unit => decide (Stuck S)) = true := by
    decide +kernel
  obtain ⟨S, rch, hS⟩ := replay_download run
  exact ⟨S, rch, of_decide_eq_true hS⟩

end PjCloud.Download
