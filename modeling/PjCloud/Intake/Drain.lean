import PjCloud.Intake.Gate

/-!
# Audits and the intake

The coordinator pauses the intake and waits until no batch is outstanding before it queues an audit, so that
no message waits behind a long audit. The pause is a flag that the producer tests before it receives: a
`receive_message` that is under way when the flag is set brings in a batch after the wait is over
(`receive_overtakes_pause`). Without such a receive an audit runs undisturbed (`audit_undisturbed`).
-/

namespace PjCloud.Intake
open Lib
variable {cfg : Setup} {s s' : State}

/-- The coordinator's loop has made the item, and the item is not finished. -/
def AuditItem.open (item : AuditItem) : Bool :=
  item.scheduled &&
    match item.state with
    | .finished _ => false
    | _ => true

/-- While an audit of the coordinator is queued or running, no batch is outstanding and no record is queued. -/
def Undisturbed (s : State) : Prop :=
  ∀ i, i < s.nitems → (s.items i).open = true → s.outstanding = [] ∧ records s.workQ = []

/-- The producer is past its test of the pause. -/
def ProducerPc.receives : ProducerPc → Bool
  | .testBuffered => true
  | .receiving => true
  | .processing _ => true
  | .putting .. => true
  | _ => false

/-- The producer has yet to test the pause, in an iteration that it began before it saw the stop event. -/
def ProducerPc.mayReceive : ProducerPc → Bool
  | .draining final => !final
  | .acking final _ => !final
  | .acked final _ => !final
  | .testPaused => true
  | _ => false

/-- The coordinator finds the intake drained only while the producer is not past its test of the pause. When
it gives up an audit that is running, it lifts the pause only when the producer will see the stop event
before it receives again. -/
def drainsInTime (s : State) : Action → Bool
  | .coord .drained => !s.producer.receives
  | .coord .resume =>
    !((List.range s.nitems).any fun i => (s.items i).open) || !s.producer.mayReceive
  | _ => true

def CoordPc.pauses : CoordPc → Bool
  | .timer | .ending | .lastClearing _ | .exited => false
  | _ => true

def CoordPc.hasDrained : CoordPc → Bool
  | .enqueue | .putting _ | .fetching | .waiting _ | .clearing .. => true
  | _ => false

/-- The coordinator has given up an audit. -/
def CoordPc.gaveUp (i : Nat) : CoordPc → Bool
  | .clearing j true => i = j
  | .resuming true => true
  | .exited => true
  | _ => false

def CoordPc.idle : CoordPc → Bool
  | .putting _ | .waiting _ | .clearing _ true | .resuming true | .exited => false
  | _ => true

/-- No batch is outstanding and the producer will not receive one. -/
structure Shut (s : State) : Prop where
  none : s.outstanding = []
  outside : s.producer.receives = false
  stays : s.gate.paused = true ∨ (s.stop = true ∧ s.producer.mayReceive = false)

/-- What the coordinator keeps up while an audit is on. -/
structure Barrier (s : State) : Prop where
  known : ∀ i, (s.items i).scheduled = true → i < s.nitems
  paused : s.coord.pauses = true → s.gate.paused = true
  drained : s.coord.hasDrained = true → s.outstanding = [] ∧ s.producer.receives = false
  owned : ∀ i, (s.items i).open = true →
    s.coord = .putting i ∨ s.coord = .waiting i ∨ (s.coord.gaveUp i = true ∧ s.stop = true)
  quiet : ∀ i, (s.items i).open = true → Shut s

lemma ProducerStep.shut {act : ProducerAct} (step : ProducerStep cfg s act s') (shut : Shut s) : Shut s' := by
  obtain ⟨none, outside, stays⟩ := shut
  cases step with
  | check here =>
    refine ⟨none, rfl, stays.imp_right ?_⟩
    rintro ⟨stop, -⟩
    exact ⟨stop, by rw [stop]; rfl⟩
  | takeAck here | delete here =>
    refine ⟨none, rfl, stays.imp_right ?_⟩
    rintro ⟨stop, late⟩
    rw [here] at late
    exact ⟨stop, late⟩
  | batchAcked here =>
    refine ⟨by rw [none]; rfl, rfl, stays.imp_right ?_⟩
    rintro ⟨stop, late⟩
    rw [here] at late
    exact ⟨stop, late⟩
  | @acksEmpty final here =>
    cases final with
    | true => exact ⟨none, rfl, stays.imp_right fun late => ⟨late.1, rfl⟩⟩
    | false =>
      -- the final sweep is the only one that is not followed by the test of the pause
      refine ⟨none, rfl, stays.imp_right ?_⟩
      rintro ⟨-, late⟩
      rw [here] at late
      cases late
  | paused here => exact ⟨none, rfl, stays.imp_right fun late => ⟨late.1, rfl⟩⟩
  | unpaused here lifted =>
    obtain paused | ⟨-, late⟩ := stays
    · rw [lifted] at paused
      cases paused
    · rw [here] at late
      cases late
  | full here | room here | receive here | receiveFails here | processed here | missing here
  | noReceipt here | malformed here | irrelevant here | batch here | putEnd here | put here =>
    rw [here] at outside
    cases outside
  | wake here => exact ⟨none, rfl, stays.imp_right fun late => ⟨late.1, rfl⟩⟩
  | retry here =>
    refine ⟨none, by dsimp only; split <;> rfl, stays.imp_right fun late => ⟨late.1, ?_⟩⟩
    dsimp only
    rw [if_pos late.1]
    rfl

/-- An item that is cancelled is not open unless it runs. -/
lemma open_of_cancelIfPending {item : AuditItem} (on : item.cancelIfPending.open = true) :
    item.open = true := by
  unfold AuditItem.cancelIfPending at on
  split at on
  · simp [AuditItem.open] at on
  · exact on

lemma not_open_finish {item : AuditItem} {result : AuditOutcome} : (item.finish result).open = false := by
  unfold AuditItem.finish
  split
  · rename_i finished
    simp [AuditItem.open, finished]
  · simp [AuditItem.open]

lemma Barrier.frame (bar : Barrier s) (coord : s'.coord = s.coord) (gate : s'.gate.paused = s.gate.paused)
    (outstanding : s'.outstanding = s.outstanding) (producer : s'.producer = s.producer)
    (stop : s.stop = true → s'.stop = true) (nitems : s.nitems ≤ s'.nitems)
    (known : ∀ i, (s'.items i).scheduled = true → (s.items i).scheduled = true)
    (opened : ∀ i, (s'.items i).open = true → (s.items i).open = true) : Barrier s' := by
  constructor
  · intro i scheduled
    exact Nat.lt_of_lt_of_le (bar.known i (known i scheduled)) nitems
  · rw [coord, gate]
    exact bar.paused
  · rw [coord, outstanding, producer]
    exact bar.drained
  · intro i on
    rw [coord]
    refine (bar.owned i (opened i on)).imp_right (Or.imp_right ?_)
    exact fun ⟨up, stopped⟩ => ⟨up, stop stopped⟩
  · intro i on
    obtain ⟨none, outside, stays⟩ := bar.quiet i (opened i on)
    refine ⟨outstanding.trans none, by rw [producer]; exact outside, ?_⟩
    rw [gate, producer]
    exact stays.imp_right fun late => ⟨stop late.1, late.2⟩

lemma ProducerStep.barrier {act : ProducerAct} (step : ProducerStep cfg s act s') (bar : Barrier s) :
    Barrier s' := by
  have same : s'.coord = s.coord ∧ s'.items = s.items ∧ s'.nitems = s.nitems ∧ s'.stop = s.stop ∧
      s'.gate.paused = s.gate.paused := by
    cases step <;> exact ⟨rfl, rfl, rfl, rfl, rfl⟩
  obtain ⟨coord, items, nitems, stop, paused⟩ := same
  constructor
  · rw [items, nitems]
    exact bar.known
  · rw [coord, paused]
    exact bar.paused
  · rw [coord]
    intro drained
    obtain ⟨none, outside⟩ := bar.drained drained
    have shut : Shut s := ⟨none, outside, .inl (bar.paused (by revert drained; cases s.coord <;> simp [CoordPc.pauses, CoordPc.hasDrained]))⟩
    exact ⟨(step.shut shut).none, (step.shut shut).outside⟩
  · rw [coord, items, stop]
    exact bar.owned
  · rw [items]
    intro i on
    exact step.shut (bar.quiet i on)

lemma WorkerStep.barrier {act : WorkerAct} (step : WorkerStep s act s') (bar : Barrier s) : Barrier s' := by
  have items : ∀ i, ((s'.items i).scheduled = true → (s.items i).scheduled = true) ∧
      ((s'.items i).open = true → (s.items i).open = true) := by
    intro i
    cases step with
    | @dropAudit j here stop =>
      dsimp only
      by_cases same : i = j
      · subst same
        rw [Function.update_self]
        refine ⟨?_, open_of_cancelIfPending⟩
        unfold AuditItem.cancelIfPending
        split <;> exact id
      · rw [Function.update_of_ne same]
        exact ⟨id, id⟩
    | @startAudit j here stop pending =>
      dsimp only
      by_cases same : i = j
      · subst same
        rw [Function.update_self]
        exact ⟨id, by simp [AuditItem.open, pending]⟩
      · rw [Function.update_of_ne same]
        exact ⟨id, id⟩
    | @finishAudit j result here =>
      dsimp only
      by_cases same : i = j
      · subst same
        rw [Function.update_self, not_open_finish]
        refine ⟨?_, by intro h; cases h⟩
        unfold AuditItem.finish
        split <;> exact id
      · rw [Function.update_of_ne same]
        exact ⟨id, id⟩
    | _ => exact ⟨id, id⟩
  have same : s'.coord = s.coord ∧ s'.gate.paused = s.gate.paused ∧ s'.outstanding = s.outstanding ∧
      s'.producer = s.producer ∧ s'.stop = s.stop ∧ s'.nitems = s.nitems := by
    cases step <;> exact ⟨rfl, rfl, rfl, rfl, rfl, rfl⟩
  obtain ⟨coord, paused, outstanding, producer, stop, nitems⟩ := same
  exact bar.frame coord paused outstanding producer (fun h => stop.trans h) (Nat.le_of_eq nitems.symm)
    (fun i => (items i).1) fun i => (items i).2

lemma CoordPc.not_idle_of_gaveUp {i : Nat} {pc : CoordPc} (up : pc.gaveUp i = true) : pc.idle = false := by
  cases pc with
  | clearing j leave =>
    cases leave with
    | true => rfl
    | false => cases up
  | resuming leave =>
    cases leave with
    | true => rfl
    | false => cases up
  | exited => rfl
  | _ => cases up

lemma Barrier.none_open {pc : CoordPc} (bar : Barrier s) (here : s.coord = pc) (idle : pc.idle = true) (i : Nat) :
    (s.items i).open = false := by
  by_contra on
  rw [← here] at idle
  obtain h | h | ⟨h, -⟩ := bar.owned i (by simpa using on)
  · rw [h] at idle
    cases idle
  · rw [h] at idle
    cases idle
  · rw [CoordPc.not_idle_of_gaveUp h] at idle
    cases idle

lemma Barrier.gaveUp_of_open {pc : CoordPc} {i : Nat} (bar : Barrier s) (here : s.coord = pc)
    (past : pc ≠ .putting i ∧ pc ≠ .waiting i) (on : (s.items i).open = true) :
    pc.gaveUp i = true ∧ s.stop = true := by
  subst here
  obtain h | h | h := bar.owned i on
  · exact absurd h past.1
  · exact absurd h past.2
  · exact h

lemma not_open_of_unscheduled {item : AuditItem} (other : item.scheduled = false) : item.open = false := by
  simp [AuditItem.open, other]

lemma Barrier.of_none (known : ∀ i, (s.items i).scheduled = true → i < s.nitems)
    (paused : s.coord.pauses = true → s.gate.paused = true)
    (drained : s.coord.hasDrained = true → s.outstanding = [] ∧ s.producer.receives = false)
    (none : ∀ i, (s.items i).open = false) : Barrier s := by
  refine ⟨known, paused, drained, ?_, ?_⟩ <;>
  · intro i on
    rw [none i] at on
    cases on

lemma cancel_item {items : Nat → AuditItem} {i j : Nat} :
    ((Function.update items j (items j).cancelIfPending i).scheduled = (items i).scheduled) ∧
      ((Function.update items j (items j).cancelIfPending i).open = true → (items i).open = true) := by
  by_cases same : i = j
  · subst same
    rw [Function.update_self]
    refine ⟨?_, open_of_cancelIfPending⟩
    unfold AuditItem.cancelIfPending
    split <;> rfl
  · rw [Function.update_of_ne same]
    exact ⟨rfl, id⟩

lemma newItem_open {scheduled : Bool} {i : Nat} (on : ((newItem s scheduled).items i).open = true) :
    (s.items i).open = true ∨ i = s.nitems ∧ scheduled = true := by
  by_cases same : i = s.nitems
  · subst same
    refine .inr ⟨rfl, ?_⟩
    simpa [newItem, AuditItem.open] using on
  · left
    simpa [newItem, Function.update_of_ne same] using on

lemma newItem_known {scheduled : Bool} (known : ∀ i, (s.items i).scheduled = true → i < s.nitems) (i : Nat)
    (made : ((newItem s scheduled).items i).scheduled = true) : i < (newItem s scheduled).nitems := by
  by_cases same : i = s.nitems
  · subst same
    exact Nat.lt_succ_self _
  · refine Nat.lt_succ_of_lt (known i ?_)
    simpa [newItem, Function.update_of_ne same] using made

/-- What `_clear_active` leaves alone. -/
lemma clearActive_frame {i : Nat} : (clearActive s i).items = s.items ∧ (clearActive s i).nitems = s.nitems ∧
    (clearActive s i).gate = s.gate ∧ (clearActive s i).outstanding = s.outstanding ∧
    (clearActive s i).producer = s.producer ∧ (clearActive s i).stop = s.stop := by
  unfold clearActive
  split <;> exact ⟨rfl, rfl, rfl, rfl, rfl, rfl⟩

lemma CoordStep.barrier {act : CoordAct} (step : CoordStep cfg s act s') (gated : cfg.gated = true)
    (bal : s.books.Balanced) (inTime : drainsInTime s (.coord act) = true) (bar : Barrier s) :
    Barrier s' := by
  cases step with
  | pause here =>
    have none := bar.none_open here rfl
    exact .of_none bar.known (fun _ => rfl) (by intro h; cases h) none
  | due _ _ ungated => simp [gated] at ungated
  | drained here zero =>
    have none := bar.none_open here rfl
    refine .of_none bar.known (fun _ => bar.paused (by rw [here]; rfl)) (fun _ => ⟨?_, ?_⟩) none
    · have empty : Multiset.card (s.outstanding : Multiset Nat) = 0 := bal.batches.symm.trans zero
      simpa using empty
    · simpa [drainsInTime] using inTime
  | drainStopped here | fetchNone here =>
    have none := bar.none_open here rfl
    exact .of_none bar.known (fun _ => bar.paused (by rw [here]; rfl)) (by intro h; cases h) none
  | coalesce here | fetch here =>
    have none := bar.none_open here rfl
    exact .of_none bar.known (fun _ => bar.paused (by rw [here]; rfl))
      (fun _ => bar.drained (by rw [here]; rfl)) none
  | enqueue here =>
    have none := bar.none_open here rfl
    have paused := bar.paused (by rw [here]; rfl)
    have drained := bar.drained (by rw [here]; rfl)
    refine ⟨newItem_known bar.known, fun _ => paused, fun _ => drained, ?_, ?_⟩
    · intro i on
      obtain before | ⟨rfl, -⟩ := newItem_open on
      · rw [none i] at before
        cases before
      · exact .inl rfl
    · exact fun i _ => ⟨drained.1, drained.2, .inl paused⟩
  | @put i here =>
    refine ⟨bar.known, fun _ => bar.paused (by rw [here]; rfl), fun _ => bar.drained (by rw [here]; rfl),
      ?_, fun j on => ⟨(bar.quiet j on).1, (bar.quiet j on).2, (bar.quiet j on).3⟩⟩
    intro j on
    obtain h | h | ⟨h, -⟩ := bar.owned j on
    · rw [here] at h
      cases h
      exact .inr (.inl rfl)
    · rw [here] at h
      cases h
    · rw [here] at h
      cases h
  | @observe i result here finished =>
    have none : ∀ j, (s.items j).open = false := by
      intro j
      by_contra on
      rw [Bool.not_eq_false] at on
      obtain h | h | ⟨h, -⟩ := bar.owned j on <;> rw [here] at h <;> cases h
      simp [AuditItem.open, finished] at on
    exact .of_none bar.known (fun _ => bar.paused (by rw [here]; rfl))
      (fun _ => bar.drained (by rw [here]; rfl)) none
  | @giveUp i here stop =>
    refine ⟨fun j made => bar.known j (cancel_item.1 ▸ made), fun _ => bar.paused (by rw [here]; rfl),
      fun _ => bar.drained (by rw [here]; rfl), ?_, ?_⟩
    · intro j on
      refine .inr (.inr ⟨?_, stop⟩)
      obtain h | h | ⟨h, -⟩ := bar.owned j (cancel_item.2 on) <;> rw [here] at h <;> cases h
      exact decide_eq_true rfl
    · intro j on
      obtain ⟨empty, outside, stays⟩ := bar.quiet j (cancel_item.2 on)
      exact ⟨empty, outside, stays⟩
  | @clear i leave here =>
    obtain ⟨items, nitems, gate, outstanding, producer, stop⟩ := @clearActive_frame s i
    constructor
    · dsimp only
      rw [items, nitems]
      exact bar.known
    · dsimp only
      rw [gate]
      exact fun _ => bar.paused (by rw [here]; rfl)
    · intro h
      cases h
    · dsimp only
      rw [items, stop]
      intro j on
      obtain ⟨up, stopped⟩ := bar.gaveUp_of_open here ⟨nofun, nofun⟩ on
      cases leave with
      | true => exact .inr (.inr ⟨rfl, stopped⟩)
      | false => cases up
    · dsimp only
      rw [items]
      intro j on
      obtain ⟨empty, outside, stays⟩ := bar.quiet j on
      exact ⟨outstanding.trans empty, by rw [producer]; exact outside, by rw [gate, stop, producer]; exact stays⟩
  | @resume leave here =>
    refine ⟨bar.known, ?_, ?_, ?_, ?_⟩
    · cases leave <;> (intro h; cases h)
    · cases leave <;> (intro h; cases h)
    · intro j on
      obtain ⟨up, stopped⟩ := bar.gaveUp_of_open here ⟨nofun, nofun⟩ on
      cases leave with
      | true => exact .inr (.inr ⟨rfl, stopped⟩)
      | false => cases up
    · intro j on
      obtain ⟨empty, outside, -⟩ := bar.quiet j on
      obtain ⟨-, stopped⟩ := bar.gaveUp_of_open here ⟨nofun, nofun⟩ on
      refine ⟨empty, outside, .inr ⟨stopped, ?_⟩⟩
      simp only [drainsInTime, Bool.or_eq_true, Bool.not_eq_true', List.any_eq_false] at inTime
      obtain none | late := inTime
      · exact absurd on (none j (List.mem_range.mpr (bar.known j (by simp [AuditItem.open] at on; exact on.1))))
      · exact late
  | stopped here | lastNone here =>
    have none := bar.none_open here rfl
    exact .of_none bar.known (by intro h; cases h) (by intro h; cases h) none
  | lastCancel here =>
    have none := bar.none_open here rfl
    refine .of_none (fun j made => bar.known j (cancel_item.1 ▸ made)) (by intro h; cases h)
      (by intro h; cases h) ?_
    intro j
    by_contra on
    rw [Bool.not_eq_false] at on
    exact absurd (cancel_item.2 on) (by rw [none j]; decide)
  | @lastClear i here =>
    have none := bar.none_open here rfl
    obtain ⟨items, nitems, -⟩ := @clearActive_frame s i
    refine .of_none ?_ (by intro h; cases h) (by intro h; cases h) ?_
    · dsimp only
      rw [items, nitems]
      exact bar.known
    · dsimp only
      rw [items]
      exact none

/-- The barrier holds in every run that drains in time. -/
theorem barrier_of_reach (gated : cfg.gated = true) (rch : ((daemon cfg).only drainsInTime).Reach s) :
    Barrier s := by
  apply Reach.invariant_step _ _ rch
  · exact .of_none (by simp) (by simp [CoordPc.pauses]) (by simp [CoordPc.hasDrained])
      fun _ => not_open_of_unscheduled rfl
  · intro s a s' rch bar inTime step
    cases step with
    | producer step => exact step.barrier bar
    | worker step => exact step.barrier bar
    | coord step => exact step.barrier gated (balanced_of_reach rch.of_only) inTime bar
    | requestBusy => exact bar
    | requestDue =>
      have opened : ∀ i, ((newItem s false).items i).open = true → (s.items i).open = true := by
        intro i on
        obtain before | ⟨-, made⟩ := newItem_open on
        · exact before
        · cases made
      refine ⟨newItem_known bar.known, bar.paused, bar.drained, ?_, ?_⟩
      · exact fun i on => bar.owned i (opened i on)
      · intro i on
        obtain ⟨none, outside, stays⟩ := bar.quiet i (opened i on)
        exact ⟨none, outside, stays⟩
    | requestPut | otherWork =>
      exact bar.frame rfl rfl rfl rfl id (Nat.le_refl _) (fun _ => id) fun _ => id
    | stop =>
      exact bar.frame rfl rfl rfl rfl (fun _ => rfl) (Nat.le_refl _) (fun _ => id) fun _ => id

lemma outstanding_of_queued (rch : (daemon cfg).Reach s) {rec : EventRecord}
    (queued : rec ∈ records s.workQ) : rec.batch ∈ s.outstanding := by
  have bal := balanced_of_reach rch
  have unhandled : rec ∈ s.books.unhandled := by
    simp only [State.books, State.unhandled, Multiset.mem_coe, List.mem_append]
    exact .inl (.inr queued)
  have uncounted : rec ∈ s.books.uncounted := by
    rw [Books.uncounted, Multiset.add_assoc]
    exact Multiset.mem_add.mpr (.inl unhandled)
  exact bal.owed _ (bal.known rec (Multiset.mem_of_le Books.unhandled_le unhandled)) (bal.owing uncounted)

/-- An audit of the coordinator is undisturbed in every run that drains in time. -/
theorem audit_undisturbed (gated : cfg.gated = true) (rch : ((daemon cfg).only drainsInTime).Reach s) :
    Undisturbed s := by
  intro i _ on
  have none := ((barrier_of_reach gated rch).quiet i on).none
  refine ⟨none, List.eq_nil_iff_forall_not_mem.mpr ?_⟩
  intro rec queued
  have waits := outstanding_of_queued rch.of_only queued
  rw [none] at waits
  cases waits

def auditRun : List Action :=
  handledRun ++ [.coord .enqueue, .coord .put, .worker .check, .worker .take, .worker .dispatch]

/-- The audit that runs after the message is acked is undisturbed. -/
theorem drained_audit_undisturbed : ∃ s, ((daemon oneRecord).only drainsInTime).Reach s ∧
    Undisturbed s ∧ (s.items 0).open = true ∧ s.worker = .auditing 0 ∧ s.deletes = [0] := by
  have run : (((daemon oneRecord).only drainsInTime).replay {} auditRun).any
      (fun s => decide ((s.items 0).open = true ∧ s.worker = .auditing 0 ∧ s.deletes = [0])) = true := by
    decide +kernel
  obtain ⟨s, rch, on⟩ := Machine.Reach.replay_any (.init rfl) run
  exact ⟨s, rch, audit_undisturbed rfl rch, of_decide_eq_true on⟩

/-- The producer is about to receive when the coordinator pauses the intake, finds it drained and queues an
audit. Then the message arrives. -/
def overtakingRun : List Action :=
  [.producer .check, .producer .acksEmpty, .producer .testPaused, .producer .testBuffered,
    .coord .due, .coord .drained, .coord .enqueue, .coord .put,
    .producer (.receive [⟨some "", some "receipt"⟩]), .producer .process, .producer .put]

/-- A receive under way brings a record in behind the audit. -/
theorem receive_overtakes_pause : ∃ s, (daemon oneRecord).Reach s ∧ ¬ Undisturbed s ∧
    s.gate.paused = true ∧ s.stop = false ∧ s.outstanding = [0] ∧
    s.workQ = [.audit 0, .event ⟨.catalog, "a.mcap", 0⟩] := by
  have run : ((daemon oneRecord).replay {} overtakingRun).any
      (fun s => decide ((0 < s.nitems ∧ (s.items 0).open = true) ∧ s.gate.paused = true ∧ s.stop = false ∧
        s.outstanding = [0] ∧ s.workQ = [.audit 0, .event ⟨.catalog, "a.mcap", 0⟩])) = true := by
    decide +kernel
  obtain ⟨s, rch, done⟩ := Machine.Reach.replay_any (.init rfl) run
  obtain ⟨⟨made, on⟩, paused, stop, outstanding, queue⟩ := of_decide_eq_true done
  refine ⟨s, rch, ?_, paused, stop, outstanding, queue⟩
  intro undisturbed
  have none := (undisturbed 0 made on).1
  rw [outstanding] at none
  cases none

end PjCloud.Intake
