import PjCloud.Intake.Gate

/-!
# The acks of the producer

A message is deleted by the producer alone: at once if its body asks for nothing, and otherwise when the worker
has counted its batch down and put it on the ack queue. By the books a batch that is through has had each of its
records handled; here the messages, the batches and the deletions are matched (`Receipts`), so that this holds of
every deletion (`ack_safe`).
-/

namespace PjCloud.Intake
open Lib
variable {cfg : Setup} {s s' : State} {m b : Nat} {pairs : List (Kind × String)}

/-- The body of a received message translates to some pairs. -/
def Translates (cfg : Setup) (msgs : List Msg) (m : Nat) (pairs : List (Kind × String)) : Prop :=
  ∃ msg, msgs[m]? = some msg ∧ translateBody cfg.library (msg.body.getD "{}") = .ok pairs

/-- The body of a received message does not translate. -/
def Malformed (cfg : Setup) (msgs : List Msg) (m : Nat) : Prop :=
  ∃ msg e, msgs[m]? = some msg ∧ translateBody cfg.library (msg.body.getD "{}") = .error e

/-- The records of a message that have been handled without an exception. -/
def State.handledOf (s : State) (m : Nat) : List EventRecord :=
  s.handled.filter fun rec => (s.batches rec.batch).msg = m

/-- The records that there have been so far, each on its way into the work queue or further on. -/
def State.seen (s : State) : List EventRecord := s.handled ++ s.unhandled ++ s.lost

/-- What deletions are allowed. -/
structure AckSafe (cfg : Setup) (s : State) : Prop where
  handled : ∀ m ∈ s.deletes, ∃ pairs, Translates cfg s.msgs m pairs ∧
    ((s.handledOf m).map fun rec => (rec.kind, rec.key)).Perm pairs
  malformed : ∀ m, Malformed cfg s.msgs m →
    m ∉ s.deletes ∧ ∀ rec ∈ s.seen, (s.batches rec.batch).msg ≠ m
  once : s.deletes.Nodup

/-- The messages that the producer has received and not looked at. -/
def ProducerPc.todo : ProducerPc → List Nat
  | .processing msgs => msgs
  | .putting _ msgs => msgs
  | _ => []

/-- How the messages, the batches and the deletions belong together. -/
structure Receipts (cfg : Setup) (s : State) : Prop where
  translated : ∀ b, b < s.nbatches →
    Translates cfg s.msgs (s.batches b).msg (s.batches b).pairs ∧ (s.batches b).pairs ≠ []
  own : ∀ b, b < s.nbatches → ∀ b', b' < s.nbatches → (s.batches b).msg = (s.batches b').msg → b = b'
  distinct : s.producer.todo.Nodup
  todo : ∀ m ∈ s.producer.todo,
    m < s.msgs.length ∧ m ∉ s.deletes ∧ ∀ b, b < s.nbatches → (s.batches b).msg ≠ m
  once : s.deletes.Nodup
  deleted : ∀ m ∈ s.deletes, Translates cfg s.msgs m [] ∨ ∃ b, b < s.nbatches ∧ (s.batches b).msg = m ∧
    (s.batches b).remaining = 0 ∧ (b ∈ s.outstanding → ∃ final, s.producer = .acked final b)

lemma Translates.unique {msgs : List Msg} {pairs' : List (Kind × String)} (one : Translates cfg msgs m pairs)
    (other : Translates cfg msgs m pairs') : pairs = pairs' := by
  obtain ⟨msg, found, translated⟩ := one
  obtain ⟨msg', found', translated'⟩ := other
  obtain rfl := Option.some.inj (found.symm.trans found')
  exact Except.ok.inj (translated.symm.trans translated')

lemma Translates.not_malformed {msgs : List Msg} (good : Translates cfg msgs m pairs) :
    ¬ Malformed cfg msgs m := by
  rintro ⟨msg', e, found', bad⟩
  obtain ⟨msg, found, translated⟩ := good
  obtain rfl := Option.some.inj (found.symm.trans found')
  rw [translated] at bad
  cases bad

lemma Translates.append {msgs more : List Msg} (good : Translates cfg msgs m pairs) :
    Translates cfg (msgs ++ more) m pairs := by
  obtain ⟨msg, found, translated⟩ := good
  have known : m < msgs.length := (List.getElem?_eq_some_iff.mp found).1
  exact ⟨msg, by rw [List.getElem?_append_left known]; exact found, translated⟩

lemma Translates.received {msgs : List Msg} (good : Translates cfg msgs m pairs) : m < msgs.length := by
  obtain ⟨msg, found, -⟩ := good
  exact (List.getElem?_eq_some_iff.mp found).1

lemma Receipts.goOn (rec : Receipts cfg s) {pc : ProducerPc} {workQ : List WorkItem} {ackQ : List Nat}
    (todo : pc.todo.Sublist s.producer.todo) (acked : ∀ final b, s.producer ≠ .acked final b) :
    Receipts cfg { s with producer := pc, workQ := workQ, ackQ := ackQ } := by
  refine ⟨rec.translated, rec.own, rec.distinct.sublist todo, fun m mem => rec.todo m (todo.subset mem),
    rec.once, ?_⟩
  intro m mem
  refine (rec.deleted m mem).imp_right ?_
  rintro ⟨b, known, own, through, waits⟩
  refine ⟨b, known, own, through, fun mem => ?_⟩
  obtain ⟨final, here⟩ := waits mem
  exact absurd here (acked final b)

lemma Receipts.frame (rec : Receipts cfg s) (msgs : s'.msgs = s.msgs) (nbatches : s'.nbatches = s.nbatches)
    (batches : ∀ b, (s'.batches b).msg = (s.batches b).msg ∧ (s'.batches b).pairs = (s.batches b).pairs ∧
      ((s.batches b).remaining = 0 → (s'.batches b).remaining = 0))
    (producer : s'.producer = s.producer) (deletes : s'.deletes = s.deletes)
    (outstanding : s'.outstanding = s.outstanding) : Receipts cfg s' := by
  constructor
  · rw [nbatches, msgs]
    intro b known
    rw [(batches b).1, (batches b).2.1]
    exact rec.translated b known
  · rw [nbatches]
    intro b known b' known'
    rw [(batches b).1, (batches b').1]
    exact rec.own b known b' known'
  · rw [producer]
    exact rec.distinct
  · rw [producer, msgs, deletes, nbatches]
    intro m mem
    obtain ⟨received, kept, unbatched⟩ := rec.todo m mem
    refine ⟨received, kept, ?_⟩
    intro b known
    rw [(batches b).1]
    exact unbatched b known
  · rw [deletes]
    exact rec.once
  · rw [deletes, msgs, nbatches, outstanding, producer]
    intro m mem
    refine (rec.deleted m mem).imp_right ?_
    rintro ⟨b, known, own, through, waits⟩
    exact ⟨b, known, (batches b).1.trans own, (batches b).2.2 through, waits⟩

lemma Receipts.delete (rec : Receipts cfg s) (bal : s.books.Balanced) {final : Bool}
    (here : s.producer = .acking final b) : Receipts cfg
      { s with producer := .acked final b, deletes := s.deletes ++ [(s.batches b).msg] } := by
  have acked : b ∈ s.books.acks := by simp [State.books, State.acks, here, ProducerPc.acks]
  obtain ⟨waits, through⟩ := (bal.ready b).mp acked
  have known : b < s.nbatches := bal.bounded b waits
  have fresh : (s.batches b).msg ∉ s.deletes := by
    intro again
    obtain irrelevant | ⟨b', known', same, -, open'⟩ := rec.deleted _ again
    · obtain ⟨translated, some⟩ := rec.translated b known
      exact some (translated.unique irrelevant)
    · obtain rfl := rec.own b' known' b known same
      obtain ⟨final', acked⟩ := open' waits
      rw [here] at acked
      cases acked
  refine ⟨rec.translated, rec.own, List.nodup_nil, (by intro m mem; cases mem), ?_, ?_⟩
  · exact List.nodup_append.mpr ⟨rec.once, List.nodup_singleton _, by
      rintro m mem _ last rfl
      rw [List.mem_singleton.mp last] at mem
      exact fresh mem⟩
  · intro m mem
    obtain before | last := List.mem_append.mp mem
    · refine (rec.deleted m before).imp_right ?_
      rintro ⟨b', known', own, zero, open'⟩
      refine ⟨b', known', own, zero, fun mem => ?_⟩
      obtain ⟨final', acked⟩ := open' mem
      rw [here] at acked
      cases acked
    · obtain rfl := List.mem_singleton.mp last
      exact .inr ⟨b, known, rfl, through, fun _ => ⟨final, rfl⟩⟩

lemma Receipts.batchAcked (rec : Receipts cfg s) (bal : s.books.Balanced) {final : Bool} {gate : IntakeGate}
    (here : s.producer = .acked final b) : Receipts cfg
      { s with producer := .draining final, gate := gate, outstanding := s.outstanding.erase b } := by
  refine ⟨rec.translated, rec.own, List.nodup_nil, (by intro m mem; cases mem), rec.once, ?_⟩
  intro m mem
  refine (rec.deleted m mem).imp_right ?_
  rintro ⟨b', known, own, through, waits⟩
  refine ⟨b', known, own, through, fun left => ?_⟩
  have distinct : s.outstanding.Nodup := bal.distinct
  obtain ⟨other, mem⟩ := distinct.mem_erase_iff.mp left
  obtain ⟨final', acked⟩ := waits mem
  rw [here] at acked
  exact absurd (ProducerPc.acked.inj acked).2.symm other

lemma Receipts.irrelevant (rec : Receipts cfg s) {rest : List Nat}
    (here : s.producer = .processing (m :: rest)) (nothing : Translates cfg s.msgs m []) : Receipts cfg
      { s with producer := .processing rest, deletes := s.deletes ++ [m] } := by
  have todo := rec.todo
  have distinct := rec.distinct
  rw [here] at todo distinct
  obtain ⟨fresh, distinct⟩ := List.nodup_cons.mp distinct
  refine ⟨rec.translated, rec.own, distinct, ?_, ?_, ?_⟩
  · intro m' mem
    obtain ⟨received, kept, unbatched⟩ := todo m' (List.mem_cons_of_mem _ mem)
    refine ⟨received, ?_, unbatched⟩
    intro deleted
    obtain before | last := List.mem_append.mp deleted
    · exact kept before
    · obtain rfl := List.mem_singleton.mp last
      exact fresh mem
  · exact List.nodup_append.mpr ⟨rec.once, List.nodup_singleton _, by
      rintro m' mem _ last rfl
      rw [List.mem_singleton.mp last] at mem
      exact (todo m List.mem_cons_self).2.1 mem⟩
  · intro m' mem
    obtain before | last := List.mem_append.mp mem
    · refine (rec.deleted m' before).imp_right ?_
      rintro ⟨b, known, own, through, waits⟩
      refine ⟨b, known, own, through, fun mem => ?_⟩
      obtain ⟨final, acked⟩ := waits mem
      rw [here] at acked
      cases acked
    · obtain rfl := List.mem_singleton.mp last
      exact .inl nothing

lemma Receipts.batch (rec : Receipts cfg s) {rest : List Nat} {gate : IntakeGate}
    {recs : List EventRecord} (here : s.producer = .processing (m :: rest))
    (translated : Translates cfg s.msgs m pairs) (some : pairs ≠ []) : Receipts cfg
      { s with
        batches := Function.update s.batches s.nbatches ⟨m, pairs, pairs.length⟩
        nbatches := s.nbatches + 1
        gate := gate
        outstanding := s.outstanding ++ [s.nbatches]
        producer := .putting recs rest } := by
  have todo := rec.todo
  have distinct := rec.distinct
  rw [here] at todo distinct
  obtain ⟨fresh, distinct⟩ := List.nodup_cons.mp distinct
  obtain ⟨-, kept, unbatched⟩ := todo m List.mem_cons_self
  have old : ∀ b, b < s.nbatches →
      Function.update s.batches s.nbatches ⟨m, pairs, pairs.length⟩ b = s.batches b :=
    fun b known => Function.update_of_ne (Nat.ne_of_lt known) _ _
  have new : Function.update s.batches s.nbatches ⟨m, pairs, pairs.length⟩ s.nbatches =
      ⟨m, pairs, pairs.length⟩ := Function.update_self ..
  refine ⟨?_, ?_, distinct, ?_, rec.once, ?_⟩
  · intro b known
    dsimp only
    obtain before | rfl := Nat.lt_succ_iff_lt_or_eq.mp known
    · rw [old b before]
      exact rec.translated b before
    · rw [new]
      exact ⟨translated, some⟩
  · intro b known b' known'
    dsimp only
    obtain before | rfl := Nat.lt_succ_iff_lt_or_eq.mp known <;>
      obtain before' | rfl := Nat.lt_succ_iff_lt_or_eq.mp known'
    · rw [old b before, old b' before']
      exact rec.own b before b' before'
    · rw [old b before, new]
      exact fun same => absurd same (unbatched b before)
    · rw [old b' before', new]
      exact fun same => absurd same.symm (unbatched b' before')
    · exact fun _ => rfl
  · intro m' mem
    obtain ⟨received, kept', unbatched'⟩ := todo m' (List.mem_cons_of_mem _ mem)
    refine ⟨received, kept', ?_⟩
    intro b known
    dsimp only
    obtain before | rfl := Nat.lt_succ_iff_lt_or_eq.mp known
    · rw [old b before]
      exact unbatched' b before
    · rw [new]
      rintro rfl
      exact fresh mem
  · intro m' mem
    refine (rec.deleted m' mem).imp_right ?_
    rintro ⟨b, known, own, through, waits⟩
    refine ⟨b, Nat.lt_succ_of_lt known, ?_, ?_, fun mem => ?_⟩
    · dsimp only
      rw [old b known]
      exact own
    · dsimp only
      rw [old b known]
      exact through
    · obtain before | last := List.mem_append.mp mem
      · obtain ⟨final, acked⟩ := waits before
        rw [here] at acked
        cases acked
      · exact absurd (List.mem_singleton.mp last) (Nat.ne_of_lt known)

lemma Receipts.receive (rec : Receipts cfg s) (here : s.producer = .receiving) {msgs : List Msg} :
    Receipts cfg { s with
      msgs := s.msgs ++ msgs
      producer := .processing (List.range' s.msgs.length msgs.length) } := by
  refine ⟨?_, rec.own, List.nodup_range', ?_, rec.once, ?_⟩
  · exact fun b known => (rec.translated b known).imp_left Translates.append
  · intro m mem
    obtain ⟨low, high⟩ := List.mem_range'_1.mp mem
    refine ⟨by rw [List.length_append]; exact high, ?_, ?_⟩
    · intro deleted
      obtain nothing | ⟨b, known, own, -⟩ := rec.deleted m deleted
      · exact absurd nothing.received (by omega)
      · have received := (rec.translated b known).1.received
        omega
    · intro b known own
      have received : (s.batches b).msg < s.msgs.length := (rec.translated b known).1.received
      exact absurd (own ▸ received) (by omega)
  · intro m mem
    refine (rec.deleted m mem).imp Translates.append ?_
    rintro ⟨b, known, own, through, waits⟩
    refine ⟨b, known, own, through, fun mem => ?_⟩
    obtain ⟨final, acked⟩ := waits mem
    rw [here] at acked
    cases acked

lemma ProducerStep.receipts {act : ProducerAct} (step : ProducerStep cfg s act s') (bal : s.books.Balanced)
    (rec : Receipts cfg s) : Receipts cfg s' := by
  cases step with
  | check here | takeAck here | paused here | unpaused here | full here | room here | wake here
  | receiveFails here | processed here | noReceipt here =>
    exact rec.goOn (List.nil_sublist _) (by rw [here]; intro _ _ h; cases h)
  | @acksEmpty final here =>
    refine rec.goOn ?_ (by rw [here]; intro _ _ h; cases h)
    cases final <;> exact List.nil_sublist _
  | retry here =>
    refine rec.goOn ?_ (by rw [here]; intro _ _ h; cases h)
    cases s.stop <;> exact List.nil_sublist _
  | delete here => exact rec.delete bal here
  | batchAcked here => exact rec.batchAcked bal here
  | receive here => exact rec.receive here
  | missing here | malformed here =>
    exact rec.goOn (by rw [here]; exact List.sublist_cons_self _ _) (by rw [here]; intro _ _ h; cases h)
  | irrelevant here found nothing => exact rec.irrelevant here ⟨_, found, nothing⟩
  | batch here found translated some => exact rec.batch here ⟨_, found, translated⟩ some
  | putEnd here | put here =>
    exact rec.goOn (by rw [here]; exact List.Sublist.refl _) (by rw [here]; intro _ _ h; cases h)

lemma WorkerStep.receipts {act : WorkerAct} (step : WorkerStep s act s') (rec : Receipts cfg s) :
    Receipts cfg s' := by
  cases step with
  | @countDown done here more =>
    refine rec.frame rfl rfl ?_ rfl rfl rfl
    intro b
    by_cases own : b = done.batch
    · subst own
      dsimp only
      rw [Function.update_self]
      exact ⟨rfl, rfl, fun zero => absurd more (by omega)⟩
    · dsimp only
      rw [Function.update_of_ne own]
      exact ⟨rfl, rfl, id⟩
  | _ => exact rec.frame rfl rfl (fun _ => ⟨rfl, rfl, id⟩) rfl rfl rfl

/-- The receipts are in order in every state of the daemon. -/
theorem receipts_of_reach (rch : (daemon cfg).Reach s) : Receipts cfg s := by
  induction rch with
  | init start =>
    obtain rfl := start
    constructor <;> simp [ProducerPc.todo]
  | @step s a rch can rec =>
    have step := daemon_step can
    revert step
    generalize (daemon cfg).exec s a = s'
    intro step
    cases step with
    | producer step => exact step.receipts (balanced_of_reach rch) rec
    | worker step => exact step.receipts rec
    | coord step =>
      cases step with
      | clear | lastClear =>
        unfold clearActive
        split <;> exact rec.frame rfl rfl (fun _ => ⟨rfl, rfl, id⟩) rfl rfl rfl
      | _ => exact rec.frame rfl rfl (fun _ => ⟨rfl, rfl, id⟩) rfl rfl rfl
    | _ => exact rec.frame rfl rfl (fun _ => ⟨rfl, rfl, id⟩) rfl rfl rfl

lemma batch_of_seen (rch : (daemon cfg).Reach s) {rec : EventRecord} (seen : rec ∈ s.seen) :
    rec.batch < s.nbatches := by
  have bal := balanced_of_reach rch
  simp only [State.seen, List.mem_append, or_assoc] at seen
  obtain handled | unhandled | lost := seen
  · exact bal.heard rec handled
  · exact bal.known rec (Multiset.mem_of_le Books.unhandled_le unhandled)
  · exact bal.known rec (Multiset.mem_of_le Books.lost_le lost)

lemma handledOf_msg (rch : (daemon cfg).Reach s) (known : b < s.nbatches) :
    (s.handledOf (s.batches b).msg : Multiset EventRecord) = Books.ofBatch s.books.handled b := by
  have receipts := receipts_of_reach rch
  simp only [State.handledOf, Books.ofBatch, State.books, Multiset.filter_coe, Multiset.coe_eq_coe]
  refine List.Perm.of_eq (List.filter_congr ?_)
  intro r mem
  have own : (s.batches r.batch).msg = (s.batches b).msg ↔ r.batch = b := by
    constructor
    · exact receipts.own _ ((balanced_of_reach rch).heard r mem) b known
    · rintro rfl
      rfl
  exact decide_eq_decide.mpr own

lemma handled_of_through (rch : (daemon cfg).Reach s) (known : b < s.nbatches)
    (through : (s.batches b).remaining = 0) :
    ((s.handledOf (s.batches b).msg).map fun rec => (rec.kind, rec.key)).Perm (s.batches b).pairs := by
  have bal := balanced_of_reach rch
  have none : Books.ofBatch s.books.uncounted b = 0 :=
    Multiset.card_eq_zero.mp ((bal.countdown b known).symm.trans through)
  have part : ∀ recs, recs ≤ s.books.uncounted → Books.ofBatch recs b = 0 := by
    intro recs le
    exact Multiset.le_zero.mp (none ▸ Multiset.filter_le_filter _ le)
  have unhandled := part s.books.unhandled (by
    rw [Books.uncounted, Multiset.add_assoc]
    exact Multiset.le_add_right _ _)
  have lost := part s.books.lost (Multiset.le_add_left _ _)
  have shares := bal.shares b known
  rw [Books.ofBatch_add, Books.ofBatch_add, unhandled, lost, add_zero, add_zero, ← handledOf_msg rch known,
    Multiset.map_coe, Multiset.coe_eq_coe] at shares
  exact shares

/-- Every deletion is of a message whose records have all been handled, and is the only one of its message. A
malformed message is not deleted and has no record. -/
theorem ack_safe (rch : (daemon cfg).Reach s) : AckSafe cfg s := by
  have receipts := receipts_of_reach rch
  refine ⟨?_, ?_, receipts.once⟩
  · intro m mem
    obtain nothing | ⟨b, known, rfl, through, -⟩ := receipts.deleted m mem
    · refine ⟨[], nothing, ?_⟩
      have none : s.handledOf m = [] := by
        refine List.filter_eq_nil_iff.mpr ?_
        intro r mem own
        have known := (balanced_of_reach rch).heard r mem
        obtain ⟨translated, some⟩ := receipts.translated r.batch known
        rw [of_decide_eq_true own] at translated
        exact some (translated.unique nothing)
      rw [none]
      exact List.Perm.refl _
    · exact ⟨_, (receipts.translated b known).1, handled_of_through rch known through⟩
  · intro m malformed
    constructor
    · intro mem
      obtain nothing | ⟨b, known, rfl, -⟩ := receipts.deleted m mem
      · exact nothing.not_malformed malformed
      · exact (receipts.translated b known).1.not_malformed malformed
    · rintro r seen rfl
      exact (receipts.translated r.batch (batch_of_seen rch seen)).1.not_malformed malformed

/-- The message of a run that handles its record is deleted. -/
theorem handled_record_acked : ∃ s, (daemon oneRecord).Reach s ∧ AckSafe oneRecord s ∧
    s.deletes = [0] ∧ s.handledOf 0 = [⟨.catalog, "a.mcap", 0⟩] := by
  have run : ((daemon oneRecord).replay {} handledRun).any (fun s => decide (s.deletes = [0] ∧
      s.handledOf 0 = [⟨.catalog, "a.mcap", 0⟩])) = true := by decide +kernel
  obtain ⟨s, rch, done⟩ := Machine.Reach.replay_any (.init rfl) run
  exact ⟨s, rch, ack_safe rch, of_decide_eq_true done⟩

end PjCloud.Intake
