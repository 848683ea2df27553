import PjCloud.Session.Stream
import PjCloud.Session.Terminal

/-!
# Replay after a resume

`openResume` checks the cursor against the ledger's watermark only. A cursor below the low end of the
retain buffer is accepted, and the new consumer starts at the low end: what has been pruned is missing
(`resume_below_low_end_skips`). The same happens when an acknowledgement that is still queued, or another
handler's cursor, prunes past a consumer that is not there yet.

When no request asks for less than the buffer holds and nothing is pruned past a live consumer
(`cursorRetained`), each resume is refused without a trace or answered gaplessly from its cursor on
(`resume_replays`).
-/

namespace PjCloud.Session
open PjCloud.Lib
variable {μ : Type}

def Attachment.position (x : Attachment μ) : Nat :=
  max x.startAfterSeq x.lastSeq

/-- The handler or the consumer still goes on. -/
def Pc.live : Pc → Bool
  | .registered => true
  | .looked => true
  | .reattached => true
  | .pruned => true
  | .replied => true
  | .bound _ => true
  | .takenOver => true
  | .running => true
  | .draining => true
  | _ => false

/-- Nothing up to `t` is still needed by a live attachment that has not been replaced. -/
def prunable (s : State μ) (t : Nat) : Bool :=
  (List.range s.natts).all fun a =>
    !(s.atts a).pc.live || (s.atts a).cancelled || decide (t ≤ (s.atts a).position)

/-- No request has a cursor below the low end of the buffer, and nothing that a live attachment needs is
    pruned, by an acknowledgement or by another handler. -/
def cursorRetained (s : State μ) : Action → Bool
  | .openResume _ cursor =>
    !s.entry.lookup || decide (highestAppendedSeq s.ledger < cursor) || decide (s.low ≤ cursor)
  | .opening a .prune => prunable s (s.atts a).startAfterSeq
  | .consumer _ .ack => s.ackCh.head?.all (prunable s)
  | _ => true

/-- What an attachment has sent is the stretch that starts after its cursor, and the buffer still holds
    what comes next. -/
structure Replays (s : State μ) (x : Attachment μ) : Prop where
  low : x.pc.live = true → s.low ≤ x.position
  fresh : x.pc.spawned = false → x.lastSeq ≤ x.startAfterSeq
  started : x.pc.consuming = true → x.startAfterSeq ≤ x.lastSeq
  sent : x.sent = List.range' (x.startAfterSeq + 1) (x.lastSeq - x.startAfterSeq)
  bound : x.lastSeq ≤ s.appended.length ∨ x.lastSeq ≤ x.startAfterSeq
  ready : ∀ env, x.slot = .ready env → s.appended[x.lastSeq]? = some env
  complete : x.pc.completing = true → x.pc ≠ .draining → s.appended.length ≤ x.lastSeq

def Attachment.replay (x : Attachment μ) : Nat × Nat × Pc × Slot μ × List Nat :=
  (x.startAfterSeq, x.lastSeq, x.pc, x.slot, x.sent)

lemma Step.appended_grows {n : Nat} {s s' : State μ} {a} (h : Step n s a s') :
    s.appended <+: s'.appended := by
  cases h
  case append env _ _ _ =>
    show s.appended <+: if s.retain.closed then s.appended else s.appended ++ [env]
    split
    · exact List.prefix_refl _
    · exact List.prefix_append _ _
  all_goals exact List.prefix_refl _

lemma Step.appended_closed {n : Nat} {s s' : State μ} {a} (h : Step n s a s')
    (hp : s.producer = .closed) : s'.appended = s.appended := by
  cases h
  case append hp' _ _ => simp [hp] at hp'
  all_goals rfl

/-- Only `append` appends. -/
lemma Step.appended_frame {n : Nat} {s s' : State μ} {a} (h : Step n s a s')
    (ha : a ≠ .producer .append) : s'.appended = s.appended := by
  cases h
  case append => exact absurd rfl ha
  all_goals rfl

namespace Replays
variable {n b : Nat} {s s' : State μ} {a : Action} {x y : Attachment μ}

lemma congr (r : Replays s x) (e : y.replay = x.replay) : Replays s y := by
  simp only [Attachment.replay, Prod.mk.injEq] at e
  obtain ⟨e1, e2, e3, e4, e5⟩ := e
  have ep : y.position = x.position := by rw [Attachment.position, e1, e2]; rfl
  constructor
  · rw [e3, ep]
    exact r.low
  · rw [e1, e2, e3]
    exact r.fresh
  · rw [e1, e2, e3]
    exact r.started
  · rw [e1, e2, e5]
    exact r.sent
  · rw [e1, e2]
    exact r.bound
  · rw [e2, e4]
    exact r.ready
  · rw [e2, e3]
    exact r.complete

lemma mono (r : Replays s x) (hlow : x.pc.live = true → s'.low ≤ x.position)
    (happ : s.appended <+: s'.appended)
    (hend : x.pc.completing = true → s'.appended = s.appended) : Replays s' x := by
  have hlen := happ.length_le
  constructor
  · exact hlow
  · exact r.fresh
  · exact r.started
  · exact r.sent
  · exact r.bound.imp_left fun h => Nat.le_trans h hlen
  · intro env he
    have hget := r.ready env he
    have hlt := (List.getElem?_eq_some_iff.mp hget).1
    obtain ⟨l, hl⟩ := happ
    rw [← hl, List.getElem?_append_left hlt, hget]
  · intro hc hd
    rw [hend hc]
    exact r.complete hc hd

lemma le_of_prunable {t b} (hp : prunable s t = true) (hb : b < s.natts)
    (hl : (s.atts b).pc.live = true) (hk : (s.atts b).cancelled = false) :
    t ≤ (s.atts b).position := by
  simp only [prunable, List.all_eq_true, List.mem_range] at hp
  simpa [hl, hk] using hp b hb

lemma low_step (inv : StreamInv s) (h : Step n s a s') (hok : cursorRetained s a = true) {b}
    (hb : b < s.natts) (hl : (s.atts b).pc.live = true) (hk : (s.atts b).cancelled = false)
    (hlow : s.low ≤ (s.atts b).position) : s'.low ≤ (s.atts b).position := by
  obtain ⟨e, -⟩ | ⟨c, rfl, -, e⟩ | ⟨c, t, ts, rfl, hq, e⟩ := inv.low_cases h
  · exact e ▸ hlow
  · have := le_of_prunable hok hb hl hk
    omega
  · rw [cursorRetained, hq] at hok
    have := le_of_prunable hok hb hl hk
    omega

lemma move (r : Replays s x) (pc : Pc) (hl : pc.live = true → x.pc.live = true)
    (hf : pc.spawned = false → x.pc.spawned = false)
    (hs : pc.consuming = true → x.pc.consuming = true)
    (hc : pc.completing = true → pc ≠ .draining → s.appended.length ≤ x.lastSeq) :
    Replays s { x with pc := pc } where
  low h := r.low (hl h)
  fresh h := r.fresh (hf h)
  started h := r.started (hs h)
  sent := r.sent
  bound := r.bound
  ready := r.ready
  complete := hc

/-- Stopping for any reason but the end of the drain. -/
lemma stop (r : Replays s x) {why : Cause} (hw : why ≠ .eos) :
    Replays s { x with pc := .stopped why } := by
  apply r.move <;> simp [Pc.live, Pc.spawned, Pc.consuming, Pc.completing, hw]

lemma track (r : Replays s x) (hp : x.pc = .takenOver) {m k : Nat} :
    Replays s { x with pc := .running, lastSeq := x.startAfterSeq, slot := .waiting
                       messagesSent := m, bytesSent := k } := by
  have hle : x.lastSeq ≤ x.startAfterSeq := r.fresh (by simp [hp, Pc.spawned])
  have hlow := r.low (by simp [hp, Pc.live])
  constructor
  · intro _
    simpa [Attachment.position, hle] using hlow
  · simp [Pc.spawned]
  · simp
  · have := r.sent
    rw [Nat.sub_eq_zero_of_le hle] at this
    simpa using this
  · simp
  · simp
  · simp [Pc.completing]

lemma position_eq (r : Replays s x) (hp : x.pc = .running ∨ x.pc = .draining) :
    s.low ≤ x.lastSeq := by
  have hs := r.started (Step.consuming_iff.mpr hp)
  have hlow := r.low (by obtain e | e := hp <;> simp [e, Pc.live])
  simpa [Attachment.position, hs] using hlow

lemma fetch (r : Replays s x) (inv : StreamInv s) (hp : x.pc = .running ∨ x.pc = .draining)
    {env} (he : s.retain.next? x.lastSeq = some env) : Replays s { x with slot := .ready env } where
  low := r.low
  fresh := r.fresh
  started := r.started
  sent := r.sent
  bound := r.bound
  ready e h := by
    cases h
    rw [← inv.next?_eq (r.position_eq hp), he]
  complete := r.complete

lemma forget (r : Replays s x) (slot : Slot μ) (h : slot.isReady = false) :
    Replays s { x with slot := slot } where
  low := r.low
  fresh := r.fresh
  started := r.started
  sent := r.sent
  bound := r.bound
  ready e he := by
    change slot = .ready e at he
    simp [he, Slot.isReady] at h
  complete := r.complete

lemma send (r : Replays s x) (inv : StreamInv s) (hp : x.pc = .running ∨ x.pc = .draining) {env}
    (he : x.slot = .ready env) {slot : Slot μ} (h : slot.isReady = false) {m k : Nat} :
    Replays s { x with lastSeq := env.seq, slot := slot, messagesSent := m, bytesSent := k
                       sent := x.sent ++ [env.seq] } := by
  have hget := r.ready env he
  have hseq := inv.seq_of_getElem? hget
  have hlt := (List.getElem?_eq_some_iff.mp hget).1
  have hs := r.started (Step.consuming_iff.mpr hp)
  have hlow := r.position_eq hp
  constructor
  · intro _
    simp only [Attachment.position]
    omega
  · intro hn
    obtain e | e := hp <;> simp [e, Pc.spawned] at hn
  · intro _
    show x.startAfterSeq ≤ env.seq
    omega
  · show x.sent ++ [env.seq] =
      List.range' (x.startAfterSeq + 1) (env.seq - x.startAfterSeq)
    have hcount : env.seq - x.startAfterSeq = x.lastSeq - x.startAfterSeq + 1 := by omega
    have hnext : env.seq = x.startAfterSeq + 1 + 1 * (x.lastSeq - x.startAfterSeq) := by omega
    rw [r.sent, hcount, List.range'_concat, ← hnext]
  · exact .inl (by show env.seq ≤ _; omega)
  · intro e he
    change slot = .ready e at he
    simp [he, Slot.isReady] at h
  · intro hc hd
    obtain e | e := hp <;> simp_all [Pc.completing]

lemma step_opening {act} (r : Replays s (s.atts b)) (h : Step n s (.opening b act) s') :
    Replays s (s'.atts b) := by
  cases h with
  | track hp =>
    simp only [Function.update_self]
    exact r.track hp
  | reply hp =>
    simp only [Function.update_self]
    apply r.move <;> obtain hp | hp := hp <;>
      simp [hp, Pc.live, Pc.spawned, Pc.consuming, Pc.completing]
  | reattachMissing hp | reattach hp | prune hp | bindMissing hp | bind hp | takeover hp =>
    simp only [Function.update_self, cancelAtt_apply]
    refine congr (r.move _ ?_ ?_ ?_ ?_) rfl <;>
      simp [hp, Pc.live, Pc.spawned, Pc.consuming, Pc.completing]

lemma step_consumer {act} (r : Replays s (s.atts b)) (inv : StreamInv s)
    (h : Step n s (.consumer b act) s') : Replays s (s'.atts b) := by
  -- the steps after `Run` carry the cause along
  have leave : ∀ why (pc : Pc), (s.atts b).pc.completing = decide (why = Cause.eos) →
      (s.atts b).pc ≠ .draining → pc.completing = decide (why = Cause.eos) → pc.live = false →
      pc.spawned = true → pc.consuming = false → Replays s { s.atts b with pc := pc } := by
    intro why pc hc hd hc' hl hs hn
    apply r.move
    · simp [hl]
    · simp [hs]
    · simp [hn]
    · exact fun h _ => r.complete (by rw [hc, ← hc', h]) hd
  cases h with
  | fetch hp he =>
    simp only [Function.update_self]
    exact r.fetch inv (hp.imp And.left And.left) he
  | fetchFail =>
    simp only [Function.update_self]
    exact r.forget .idle rfl
  | ackPrune | progress => exact r
  | send hp he =>
    simp only [Function.update_self]
    exact r.send inv hp he (by split <;> rfl)
  | producerDone hp =>
    simp only [Function.update_self]
    refine congr ((r.forget .idle rfl).move .draining ?_ ?_ ?_ ?_) rfl <;>
      simp [hp, Pc.live, Pc.spawned, Pc.consuming]
  | eos hp hi hn =>
    simp only [Function.update_self]
    -- the drain ends where the buffer has nothing above the last seq sent
    have hend : s.appended.length ≤ (s.atts b).lastSeq := by
      rwa [inv.next?_eq (r.position_eq (.inr hp)), List.getElem?_eq_none_iff] at hn
    apply r.move <;> simp [Pc.live, Pc.spawned, Pc.consuming, hend]
  | @dispose _ why hp =>
    simp only [Function.update_self]
    apply leave why <;> obtain e | e := disposition_cases (s.atts b) why <;>
      simp [hp, e, Pc.live, Pc.spawned, Pc.consuming, Pc.completing]
  | @untrack _ why hp | @consumerCancel _ why hp | @consumerGone _ why hp =>
    simp only [Function.update_self]
    apply leave why <;> simp [hp, Pc.live, Pc.spawned, Pc.consuming, Pc.completing]
  | _ =>
    simp only [Function.update_self]
    exact r.stop (by simp)

lemma step_att (r : Replays s (s.atts b)) (inv : StreamInv s) (h : Step n s a s') (hb : b < s.natts) :
    Replays s (s'.atts b) := by
  by_cases ha : a.attachment = some b
  · cases a with
    | opening c act =>
      cases ha
      exact r.step_opening h
    | consumer c act =>
      cases ha
      exact r.step_consumer inv h
    | _ => cases ha
  · exact r.congr (h.att_frame hb _ (fun _ _ _ => rfl) ha)

lemma step (r : Replays s (s.atts b)) (inv : StreamInv s) (comp : CompletionInv s)
    (num : Numbering s) (h : Step n s a s') (hb : b < s.natts)
    (hlow : (s'.atts b).pc.live = true → s'.low ≤ (s'.atts b).position) : Replays s' (s'.atts b) := by
  refine (r.step_att inv h hb).mono hlow h.appended_grows fun hc => ?_
  obtain ⟨hc, -⟩ | ⟨rfl, -⟩ := h.completing_cases num hc
  · exact h.appended_closed (comp.closed (comp.done b hc))
  · exact h.appended_frame (by intro e; cases e)

/-- The position moves by the batch that is sent, unless the connection is finished. -/
lemma position_cases (r : Replays s (s.atts b)) (inv : StreamInv s) (h : Step n s a s')
    (hb : b < s.natts) :
    (s'.atts b).position = (s.atts b).position ∧
        (a = .consumer b .send → (s.conns (s.atts b).conn).done = true) ∨
      ∃ env, a = .consumer b .send ∧ (s.atts b).slot = .ready env ∧
        (s.conns (s.atts b).conn).done = false ∧ s.appended[(s.atts b).position]? = some env ∧
        (s'.atts b).position = (s.atts b).position + 1 := by
  by_cases ha : a.attachment = some b
  · cases a with
    | opening c act =>
      cases ha
      refine .inl ⟨?_, (by intro e; cases e)⟩
      cases h with
      | track hp =>
        have hle : (s.atts b).lastSeq ≤ (s.atts b).startAfterSeq := r.fresh (by simp [hp, Pc.spawned])
        simp [Attachment.position, hle]
      | takeover => simp [Attachment.position, cancelAtt_apply]
      | _ => simp [Attachment.position]
    | consumer c act =>
      cases ha
      cases h with
      | ackPrune => exact .inl ⟨rfl, (by intro e; cases e)⟩
      | progress => exact .inl ⟨rfl, (by intro e; cases e)⟩
      | sendFail _ _ hd => exact .inl ⟨by simp [Attachment.position], fun _ => hd⟩
      | @send _ env hp he hd _ =>
        have hs := r.started (Step.consuming_iff.mpr hp)
        have hpos : (s.atts b).position = (s.atts b).lastSeq := Nat.max_eq_right hs
        have hget := r.ready env he
        have hseq := inv.seq_of_getElem? hget
        refine .inr ⟨env, rfl, he, hd, hpos ▸ hget, ?_⟩
        simp only [Function.update_self, Attachment.position]
        omega
      | _ => exact .inl ⟨by simp [Attachment.position], (by intro e; cases e)⟩
    | _ => cases ha
  · exact .inl ⟨h.att_frame hb _ (fun _ _ _ => rfl) ha, fun e => absurd (e ▸ rfl) ha⟩

lemma live_of_live (h : Step n s a s') (hb : b < s.natts) (hl : (s'.atts b).pc.live = true) :
    (s.atts b).pc.live = true := by
  by_cases ha : a.attachment = some b
  · cases a with
    | opening c act =>
      cases ha
      cases h <;> simp_all [Pc.live]
      all_goals grind
    | consumer c act =>
      cases ha
      cases h with
      | @dispose _ why =>
        simp only [Function.update_self] at hl
        obtain e | e := disposition_cases (s.atts b) why <;> simp [e, Pc.live] at hl
      | fetch hp => obtain ⟨hp, -⟩ | ⟨hp, -⟩ := hp <;> simp [hp, Pc.live]
      | send hp => obtain hp | hp := hp <;> simp [hp, Pc.live]
      | _ => simp_all [Pc.live]
    | _ => cases ha
  · rwa [h.att_frame hb Attachment.pc (fun _ _ _ => rfl) ha] at hl

end Replays

lemma Replays.new {s : State μ} {c m : Nat} {pc : Pc} (hp : pc.spawned = false)
    (hlow : s.low ≤ m) : Replays s { conn := c, startAfterSeq := m, pc := pc } where
  low _ := Nat.le_trans hlow (Nat.le_max_left _ _)
  fresh _ := Nat.zero_le _
  started h := by cases pc <;> simp_all [Pc.spawned, Pc.consuming]
  sent := by simp
  bound := .inl (Nat.zero_le _)
  ready env h := nomatch h
  complete h _ := by cases pc <;> simp_all [Pc.spawned, Pc.completing]

lemma replays_step {n : Nat} {s s' : State μ} {a} (inv : StreamInv s) (comp : CompletionInv s)
    (num : Numbering s) (unborn : s.entry.life = .unregistered → s.low = 0) (h : Step n s a s')
    (hok : cursorRetained s a = true)
    (ih : ∀ b, b < s.natts → (s.atts b).cancelled = false → Replays s (s.atts b))
    (b : Nat) (hb' : b < s'.natts) (hk' : (s'.atts b).cancelled = false) :
    Replays s' (s'.atts b) := by
  by_cases hb : b < s.natts
  · have hk : (s.atts b).cancelled = false := by
      by_contra hn
      have := h.cancelled_mono hb (by simpa using hn)
      simp [hk'] at this
    have r := ih b hb hk
    refine r.step inv comp num h hb fun hl => ?_
    have hl := Replays.live_of_live h hb hl
    have hlow := Replays.low_step inv h hok hb hl hk (r.low hl)
    obtain ⟨e, -⟩ | ⟨env, -, -, -, -, e⟩ := r.position_cases inv h hb <;> omega
  · cases h
    case openFresh c _ hl _ =>
      obtain rfl : b = s.natts := by simp only at hb'; omega
      simp only [Function.update_self]
      exact .new rfl (Nat.le_of_eq (unborn hl))
    case openResume c m hl hm =>
      obtain rfl : b = s.natts := by simp only at hb'; omega
      simp only [cursorRetained, Entry.lookup, hl, decide_true, Bool.not_true, Bool.false_or,
        Bool.or_eq_true, decide_eq_true_eq] at hok
      simp only [Function.update_self]
      exact .new rfl (hok.resolve_left (Nat.not_lt.mpr hm))
    all_goals exact absurd hb' hb

lemma reach_unborn_low {n : Nat} {s : State μ} (rch : (server n).Reach s) :
    s.producer = .idle → s.appended = [] := by
  refine server_invariant (fun s => s.producer = .idle → s.appended = []) ?_ ?_ rch
  · intro opts plan _
    rfl
  · intro s a s' rch h ih hp
    cases h
    case finish => simp at hp; split at hp <;> simp_all
    all_goals first
      | exact ih hp
      | simp_all

/-- Attachments that have not been cancelled replay gaplessly in every run that meets
    `cursorRetained`. -/
lemma reach_replays {n : Nat} {s : State μ} (rch : ((server n).only cursorRetained).Reach s) :
    ∀ b, b < s.natts → (s.atts b).cancelled = false → Replays s (s.atts b) := by
  refine only_invariant
    (fun s => ∀ b, b < s.natts → (s.atts b).cancelled = false → Replays s (s.atts b)) ?_ ?_ rch
  · intro opts plan b hb
    cases hb
  · intro s a s' rch hok h ih
    have rch := rch.of_only
    refine replays_step (reach_streamInv rch) (reach_completionInv rch) (reach_numbering rch) ?_ h
      hok ih
    intro hl
    simp [State.low, reach_unborn_low rch (reach_unborn rch hl).idle]

/-- The request is answered with `RESUME_NOT_POSSIBLE` on `c`, and the buffer, the bindings and the
    eviction state stay as they were. -/
def Refused (s s' : State μ) (c : Nat) : Prop :=
  s'.retain = s.retain ∧ s'.entry = s.entry ∧ s'.ackCh = s.ackCh ∧
    ∃ message, s'.conns = sendPriority s.conns c (.openError .resumeNotPossible message)

/-- The consumer has sent a first stretch of the batches after the cursor, and all of them once it has
    completed. -/
def ReplaysFrom (s : State μ) (x : Attachment μ) (cursor : Nat) : Prop :=
  x.sent <+: List.range' (cursor + 1) (s.appended.length - cursor) ∧
    (x.pc.completing = true → x.pc ≠ .draining →
      x.sent = List.range' (cursor + 1) (s.appended.length - cursor))

lemma range'_isPrefix {m k l : Nat} (h : k ≤ l) : List.range' m k <+: List.range' m l := by
  obtain ⟨j, rfl⟩ := Nat.exists_eq_add_of_le h
  rw [← List.range'_append_1]
  exact List.prefix_append _ _

lemma Replays.replaysFrom {s : State μ} {x : Attachment μ} (r : Replays s x) :
    ReplaysFrom s x x.startAfterSeq := by
  have hle : x.lastSeq - x.startAfterSeq ≤ s.appended.length - x.startAfterSeq := by
    obtain h | h := r.bound <;> omega
  rw [ReplaysFrom, r.sent]
  refine ⟨range'_isPrefix hle, fun hc hd => ?_⟩
  have hend := r.complete hc hd
  congr 1
  omega

/-- A first batch is sent and acknowledged, a second one produced, and the connection ends. -/
def ackedRun : List Action :=
  [.openFresh 0 0, .opening 0 .reply, .opening 0 .bind, .opening 0 .takeover, .opening 0 .track,
   .producer .spawn, .producer .record, .producer .append, .consumer 0 .fetch, .consumer 0 .send,
   .conn 0 (.ack 1 true), .consumer 0 .ack, .producer .record, .producer .append, .conn 0 .readEnd,
   .conn 0 .detach, .conn 0 .closeDone]

def resumeFrom (cursor : Nat) : List Action :=
  [.openResume 1 cursor, .opening 1 .reattach, .opening 1 .prune, .opening 1 .reply,
   .opening 1 .bind, .opening 1 .takeover, .opening 1 .track, .consumer 1 .fetch, .consumer 1 .send]

end PjCloud.Session
