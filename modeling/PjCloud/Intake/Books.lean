import Mathlib.Algebra.Order.Group.Multiset
import PjCloud.Intake.Inversion

/-!
# The books of the intake

What the daemon has to account for, without the threads: where the records of the messages are and which
batches wait for what. An `Entry` is one change of the books, and `Balanced` is what every change keeps: the
counters of the gate and the countdown of each batch agree with the records, where a record whose handler
has raised stays `lost`.

`step_books` is that every step of the daemon is an entry in its books or leaves them alone.
-/

namespace PjCloud.Intake
open Lib

/-- The books: the records by what has happened to them, the batches that are not acked, and the counters. -/
structure Books where
  unhandled : Multiset EventRecord
  terminals : Multiset EventRecord
  counting : Multiset EventRecord
  handled : Multiset EventRecord
  lost : Multiset EventRecord
  acks : Multiset Nat
  outstanding : Multiset Nat
  recordsBuffered : Nat
  batchesOutstanding : Nat
  batches : Nat → SqsBatch
  nbatches : Nat

/-- One change of the books. -/
inductive Entry : Books → Books → Prop where
  /-- A message with records arrives as a new batch. -/
  | receive {B : Books} {m : Nat} {pairs : List (Kind × String)} : pairs ≠ [] → Entry B { B with
      batches := Function.update B.batches B.nbatches ⟨m, pairs, pairs.length⟩
      nbatches := B.nbatches + 1
      unhandled := B.unhandled + (eventRecords pairs B.nbatches : Multiset EventRecord)
      outstanding := B.nbatches ::ₘ B.outstanding
      recordsBuffered := B.recordsBuffered + pairs.length
      batchesOutstanding := B.batchesOutstanding + 1 }
  /-- A record is handled. -/
  | handle {B : Books} {rec : EventRecord} {U : Multiset EventRecord} : B.unhandled = rec ::ₘ U →
      Entry B { B with
        unhandled := U
        terminals := rec ::ₘ B.terminals
        handled := rec ::ₘ B.handled }
  /-- A record is given up. -/
  | lose {B : Books} {rec : EventRecord} {U : Multiset EventRecord} : B.unhandled = rec ::ₘ U →
      Entry B { B with unhandled := U, lost := rec ::ₘ B.lost }
  /-- The batch counts the record. -/
  | countDown {B : Books} {rec : EventRecord} {T : Multiset EventRecord} : B.terminals = rec ::ₘ T →
      0 < (B.batches rec.batch).remaining → Entry B { B with
        terminals := T
        counting := rec ::ₘ B.counting
        batches := Function.update B.batches rec.batch { B.batches rec.batch with
          remaining := (B.batches rec.batch).remaining - 1 }
        acks := if (B.batches rec.batch).remaining = 1 then rec.batch ::ₘ B.acks else B.acks }
  /-- The batch has nothing left to count. -/
  | skip {B : Books} {rec : EventRecord} {T : Multiset EventRecord} : B.terminals = rec ::ₘ T →
      (B.batches rec.batch).remaining = 0 → Entry B { B with terminals := T }
  /-- The gate counts the record. -/
  | recordDone {B : Books} {rec : EventRecord} {C : Multiset EventRecord} : B.counting = rec ::ₘ C →
      Entry B { B with counting := C, recordsBuffered := B.recordsBuffered - 1 }
  /-- A batch is acked. -/
  | batchAcked {B : Books} {b : Nat} {A : Multiset Nat} : B.acks = b ::ₘ A → Entry B { B with
      acks := A
      outstanding := B.outstanding.erase b
      batchesOutstanding := B.batchesOutstanding - 1 }

namespace Books
variable (B : Books)

def uncounted : Multiset EventRecord := B.unhandled + B.terminals + B.lost

def buffered : Multiset EventRecord := B.unhandled + B.terminals + B.counting + B.lost

def ofBatch (recs : Multiset EventRecord) (b : Nat) : Multiset EventRecord :=
  recs.filter fun rec => rec.batch = b

/-- The books are in order. -/
structure Balanced (B : Books) : Prop where
  records : B.recordsBuffered = Multiset.card B.buffered
  known : ∀ rec ∈ B.buffered, rec.batch < B.nbatches
  countdown : ∀ b, b < B.nbatches → (B.batches b).remaining = Multiset.card (ofBatch B.uncounted b)
  batches : B.batchesOutstanding = Multiset.card B.outstanding
  distinct : B.outstanding.Nodup
  bounded : ∀ b ∈ B.outstanding, b < B.nbatches
  once : B.acks.Nodup
  ready : ∀ b, b ∈ B.acks ↔ b ∈ B.outstanding ∧ (B.batches b).remaining = 0
  owed : ∀ b, b < B.nbatches → 0 < (B.batches b).remaining → b ∈ B.outstanding
  shares : ∀ b, b < B.nbatches → (ofBatch (B.handled + B.unhandled + B.lost) b).map
    (fun rec => (rec.kind, rec.key)) = (B.batches b).pairs
  heard : ∀ rec ∈ B.handled, rec.batch < B.nbatches

variable {B} {rec : EventRecord} {b : Nat} {recs : Multiset EventRecord}

lemma ofBatch_cons : ofBatch (rec ::ₘ recs) b =
    if rec.batch = b then rec ::ₘ ofBatch recs b else ofBatch recs b := by
  unfold ofBatch
  split
  · rename_i same
    exact Multiset.filter_cons_of_pos _ same
  · rename_i other
    exact Multiset.filter_cons_of_neg _ other

lemma ofBatch_add {recs' : Multiset EventRecord} :
    ofBatch (recs + recs') b = ofBatch recs b + ofBatch recs' b :=
  Multiset.filter_add _ _ _

lemma ofBatch_new (known : ∀ rec ∈ recs, rec.batch < b) : ofBatch recs b = 0 := by
  apply Multiset.filter_eq_nil.mpr
  intro rec mem same
  exact absurd (known rec mem) (by omega)

lemma ofBatch_eventRecords {pairs : List (Kind × String)} {n : Nat} :
    ofBatch (eventRecords pairs n) b = if b = n then (eventRecords pairs n : Multiset EventRecord) else 0 := by
  split
  · rename_i same
    apply Multiset.filter_eq_self.mpr
    intro rec mem
    obtain ⟨pair, -, rfl⟩ := List.mem_map.mp (Multiset.mem_coe.mp mem)
    exact same.symm
  · rename_i other
    apply Multiset.filter_eq_nil.mpr
    intro rec mem same
    obtain ⟨pair, -, rfl⟩ := List.mem_map.mp (Multiset.mem_coe.mp mem)
    exact other same.symm

lemma eventRecords_pairs {pairs : List (Kind × String)} {n : Nat} :
    (eventRecords pairs n).map (fun rec => (rec.kind, rec.key)) = pairs := by
  simp [eventRecords, Function.comp_def]

lemma uncounted_le : B.uncounted ≤ B.buffered := by
  unfold uncounted buffered
  exact Multiset.add_le_add_right (Multiset.le_add_right _ _)

lemma unhandled_le : B.unhandled ≤ B.buffered := by
  unfold buffered
  rw [Multiset.add_assoc, Multiset.add_assoc]
  exact Multiset.le_add_right _ _

lemma lost_le : B.lost ≤ B.buffered := Multiset.le_add_left _ _

lemma card_ofBatch_pos (mem : rec ∈ recs) : 0 < Multiset.card (ofBatch recs rec.batch) := by
  apply Multiset.card_pos_iff_exists_mem.mpr
  exact ⟨rec, Multiset.mem_filter.mpr ⟨mem, rfl⟩⟩

end Books

section Entries
open Books
variable {B B' : Books}

lemma Entry.balanced_receive (bal : Balanced B) {m : Nat} {pairs : List (Kind × String)}
    (some : pairs ≠ []) : Balanced { B with
      batches := Function.update B.batches B.nbatches ⟨m, pairs, pairs.length⟩
      nbatches := B.nbatches + 1
      unhandled := B.unhandled + (eventRecords pairs B.nbatches : Multiset EventRecord)
      outstanding := B.nbatches ::ₘ B.outstanding
      recordsBuffered := B.recordsBuffered + pairs.length
      batchesOutstanding := B.batchesOutstanding + 1 } := by
  have fresh : ∀ {recs : Multiset EventRecord}, recs ≤ B.buffered → ofBatch recs B.nbatches = 0 :=
    fun le => ofBatch_new fun rec mem => bal.known rec (Multiset.mem_of_le le mem)
  have size : (eventRecords pairs B.nbatches).length = pairs.length := List.length_map _
  refine ⟨?_, ?_, ?_, ?_, ?_, ?_, bal.once, ?_, ?_, ?_, ?_⟩
  · simp only [buffered, bal.records, Multiset.card_add, Multiset.coe_card, size]
    omega
  · intro rec mem
    by_cases old : rec ∈ B.buffered
    · exact Nat.lt_succ_of_lt (bal.known rec old)
    · have new : rec ∈ eventRecords pairs B.nbatches := by
        simp only [buffered, Multiset.mem_add, Multiset.mem_coe] at mem old
        tauto
      obtain ⟨pair, -, rfl⟩ := List.mem_map.mp new
      exact Nat.lt_succ_self _
  · intro b (bound : b < B.nbatches + 1)
    have lot : uncounted { B with unhandled := B.unhandled + (eventRecords pairs B.nbatches : Multiset _) } =
        B.uncounted + eventRecords pairs B.nbatches := by
      simp only [uncounted]
      rw [add_right_comm B.unhandled, add_right_comm (B.unhandled + B.terminals)]
    refine Eq.trans ?_ (congrArg (fun recs => Multiset.card (ofBatch recs b)) lot.symm)
    dsimp only
    rw [ofBatch_add, ofBatch_eventRecords]
    by_cases new : b = B.nbatches
    · subst new
      rw [Function.update_self, if_pos rfl, fresh, Multiset.zero_add, Multiset.coe_card, size]
      exact uncounted_le
    · rw [Function.update_of_ne new, if_neg new, Multiset.add_zero]
      exact bal.countdown b (by omega)
  · simp [bal.batches]
  · exact Multiset.nodup_cons.mpr ⟨fun mem => absurd (bal.bounded _ mem) (Nat.lt_irrefl _), bal.distinct⟩
  · intro b mem
    obtain rfl | mem := Multiset.mem_cons.mp mem
    · exact Nat.lt_succ_self _
    · exact Nat.lt_succ_of_lt (bal.bounded b mem)
  · intro b
    dsimp only
    by_cases new : b = B.nbatches
    · subst new
      have before : B.nbatches ∉ B.acks := by
        intro mem
        exact absurd (bal.bounded _ ((bal.ready _).mp mem).1) (Nat.lt_irrefl _)
      simp [before, some]
    · rw [Function.update_of_ne new, Multiset.mem_cons, bal.ready]
      simp [new]
  · intro b (bound : b < B.nbatches + 1) owing
    dsimp only at owing ⊢
    by_cases new : b = B.nbatches
    · exact Multiset.mem_cons.mpr (.inl new)
    · rw [Function.update_of_ne new] at owing
      exact Multiset.mem_cons_of_mem (bal.owed b (by omega) owing)
  · intro b (bound : b < B.nbatches + 1)
    dsimp only
    rw [← add_assoc, add_right_comm, ofBatch_add, Multiset.map_add, ofBatch_eventRecords]
    by_cases new : b = B.nbatches
    · subst new
      have none : ofBatch (B.handled + B.unhandled + B.lost) B.nbatches = 0 := by
        rw [ofBatch_add, ofBatch_add, ofBatch_new bal.heard, fresh unhandled_le, fresh lost_le]
        rfl
      rw [Function.update_self, if_pos rfl, none, Multiset.map_zero, Multiset.zero_add, Multiset.map_coe,
        eventRecords_pairs]
    · rw [Function.update_of_ne new, if_neg new, Multiset.map_zero, Multiset.add_zero]
      exact bal.shares b (by omega)
  · intro rec mem
    exact Nat.lt_succ_of_lt (bal.heard rec mem)

lemma Entry.balanced_handle (bal : Balanced B) {rec : EventRecord} {U : Multiset EventRecord}
    (found : B.unhandled = rec ::ₘ U) : Balanced { B with
      unhandled := U
      terminals := rec ::ₘ B.terminals
      handled := rec ::ₘ B.handled } := by
  have same : B.unhandled + B.terminals = U + rec ::ₘ B.terminals := by
    rw [found, Multiset.cons_add, Multiset.add_cons]
  have shared : B.handled + B.unhandled = rec ::ₘ B.handled + U := by
    rw [found, Multiset.cons_add, Multiset.add_cons]
  refine ⟨?_, ?_, ?_, bal.batches, bal.distinct, bal.bounded, bal.once, bal.ready, bal.owed, ?_, ?_⟩
  · have records := bal.records
    simp only [buffered, same] at records ⊢
    exact records
  · have known := bal.known
    simp only [buffered, same] at known ⊢
    exact known
  · have countdown := bal.countdown
    simp only [uncounted, same] at countdown ⊢
    exact countdown
  · have shares := bal.shares
    simp only [shared] at shares ⊢
    exact shares
  · intro rec' mem
    obtain rfl | mem := Multiset.mem_cons.mp mem
    · apply bal.known
      simp [buffered, found]
    · exact bal.heard rec' mem

lemma Entry.balanced_lose (bal : Balanced B) {rec : EventRecord} {U : Multiset EventRecord}
    (found : B.unhandled = rec ::ₘ U) :
    Balanced { B with unhandled := U, lost := rec ::ₘ B.lost } := by
  have all : buffered { B with unhandled := U, lost := rec ::ₘ B.lost } = B.buffered := by
    simp [buffered, found]
  have left : uncounted { B with unhandled := U, lost := rec ::ₘ B.lost } = B.uncounted := by
    simp [uncounted, found]
  have shared : B.handled + U + rec ::ₘ B.lost = B.handled + B.unhandled + B.lost := by
    simp [found]
  refine ⟨?_, ?_, ?_, bal.batches, bal.distinct, bal.bounded, bal.once, bal.ready, bal.owed, ?_, bal.heard⟩
  · rw [all]
    exact bal.records
  · rw [all]
    exact bal.known
  · rw [left]
    exact bal.countdown
  · dsimp only
    rw [shared]
    exact bal.shares

lemma Entry.balanced_countDown (bal : Balanced B) {rec : EventRecord} {T : Multiset EventRecord}
    (found : B.terminals = rec ::ₘ T) (owing : 0 < (B.batches rec.batch).remaining) : Balanced { B with
      terminals := T
      counting := rec ::ₘ B.counting
      batches := Function.update B.batches rec.batch { B.batches rec.batch with
        remaining := (B.batches rec.batch).remaining - 1 }
      acks := if (B.batches rec.batch).remaining = 1 then rec.batch ::ₘ B.acks else B.acks } := by
  have all : B.unhandled + T + rec ::ₘ B.counting + B.lost = B.buffered := by
    simp [buffered, found]
  have left : B.uncounted = rec ::ₘ (B.unhandled + T + B.lost) := by
    simp [uncounted, found]
  have bound : rec.batch < B.nbatches := bal.known rec (by simp [buffered, found])
  have open' : rec.batch ∈ B.outstanding := bal.owed _ bound owing
  refine ⟨?_, ?_, ?_, bal.batches, bal.distinct, bal.bounded, ?_, ?_, ?_, ?_, bal.heard⟩
  · simp only [buffered, all]
    exact bal.records
  · simp only [buffered, all]
    exact bal.known
  · intro b known
    have before := bal.countdown b known
    rw [left, ofBatch_cons] at before
    dsimp only [uncounted]
    by_cases same : b = rec.batch
    · subst same
      rw [if_pos rfl, Multiset.card_cons] at before
      rw [Function.update_self]
      dsimp only
      omega
    · rw [if_neg (Ne.symm same)] at before
      rw [Function.update_of_ne same]
      exact before
  · dsimp only
    split
    · rename_i last
      refine Multiset.nodup_cons.mpr ⟨fun mem => ?_, bal.once⟩
      have zero := ((bal.ready _).mp mem).2
      omega
    · exact bal.once
  · intro b
    dsimp only
    by_cases same : b = rec.batch
    · subst same
      rw [Function.update_self]
      have before := bal.ready rec.batch
      split
      · rename_i last
        simp [open', last]
      · rename_i more
        rw [before]
        simp only [open', true_and]
        omega
    · rw [Function.update_of_ne same, ← bal.ready b]
      split
      · simp [same]
      · rfl
  · intro b known rest
    dsimp only at rest ⊢
    by_cases same : b = rec.batch
    · rw [same]
      exact open'
    · rw [Function.update_of_ne same] at rest
      exact bal.owed b known rest
  · intro b known
    have shares := bal.shares b known
    by_cases same : b = rec.batch
    · subst same
      dsimp only
      rw [Function.update_self]
      exact shares
    · dsimp only
      rw [Function.update_of_ne same]
      exact shares

lemma Books.Balanced.owing (bal : Balanced B) {rec : EventRecord} (mem : rec ∈ B.uncounted) :
    0 < (B.batches rec.batch).remaining := by
  rw [bal.countdown _ (bal.known rec (Multiset.mem_of_le uncounted_le mem))]
  exact card_ofBatch_pos mem

lemma Entry.balanced_recordDone (bal : Balanced B) {rec : EventRecord} {C : Multiset EventRecord}
    (found : B.counting = rec ::ₘ C) :
    Balanced { B with counting := C, recordsBuffered := B.recordsBuffered - 1 } := by
  have all : B.buffered = rec ::ₘ (B.unhandled + B.terminals + C + B.lost) := by
    simp [buffered, found]
  refine ⟨?_, ?_, bal.countdown, bal.batches, bal.distinct, bal.bounded, bal.once, bal.ready, bal.owed,
    bal.shares, bal.heard⟩
  · have records := bal.records
    rw [all, Multiset.card_cons] at records
    dsimp only [buffered]
    omega
  · intro rec' mem
    apply bal.known rec'
    rw [all]
    exact Multiset.mem_cons_of_mem mem

lemma Entry.balanced_batchAcked (bal : Balanced B) {b : Nat} {A : Multiset Nat}
    (found : B.acks = b ::ₘ A) : Balanced { B with
      acks := A
      outstanding := B.outstanding.erase b
      batchesOutstanding := B.batchesOutstanding - 1 } := by
  have once := bal.once
  rw [found] at once
  obtain ⟨other, once⟩ := Multiset.nodup_cons.mp once
  obtain ⟨waits, zero⟩ := (bal.ready b).mp (by simp [found])
  refine ⟨bal.records, bal.known, bal.countdown, ?_, bal.distinct.erase b, ?_, once, ?_, ?_, bal.shares,
    bal.heard⟩
  · dsimp only
    rw [Multiset.card_erase_of_mem waits, bal.batches]
    rfl
  · intro b' mem
    exact bal.bounded b' (Multiset.mem_of_mem_erase mem)
  · intro b'
    have before := bal.ready b'
    rw [found, Multiset.mem_cons] at before
    dsimp only
    rw [bal.distinct.mem_erase_iff]
    by_cases same : b' = b
    · subst same
      simp [other]
    · simp only [same, false_or] at before
      rw [before]
      simp [same]
  · intro b' known rest
    have different : b' ≠ b := by
      rintro rfl
      exact absurd zero (Nat.ne_of_gt rest)
    exact (Multiset.mem_erase_of_ne different).mpr (bal.owed b' known rest)

/-- Every entry keeps the books in order. -/
theorem Entry.balanced (entry : Entry B B') (bal : Balanced B) : Balanced B' := by
  cases entry with
  | receive some => exact balanced_receive bal some
  | handle found => exact balanced_handle bal found
  | lose found => exact balanced_lose bal found
  | countDown found owing => exact balanced_countDown bal found owing
  | @skip rec T found zero =>
    have owing := bal.owing (show rec ∈ B.uncounted by simp [uncounted, found])
    omega
  | recordDone found => exact balanced_recordDone bal found
  | batchAcked found => exact balanced_batchAcked bal found

end Entries

section Daemon
variable {cfg : Setup} {s s' : State}

/-- The books of the daemon. -/
def State.books (s : State) : Books where
  unhandled := s.unhandled
  terminals := s.worker.terminals
  counting := s.worker.counting
  handled := s.handled
  lost := s.lost
  acks := s.acks
  outstanding := s.outstanding
  recordsBuffered := s.gate.recordsBuffered
  batchesOutstanding := s.gate.batchesOutstanding
  batches := s.batches
  nbatches := s.nbatches

lemma records_append {l l' : List WorkItem} : records (l ++ l') = records l ++ records l' :=
  List.filterMap_append

lemma records_audit {l : List WorkItem} {i : Nat} : records (l ++ [.audit i]) = records l := by
  rw [records_append]
  exact List.append_nil _

lemma records_other {l : List WorkItem} : records (l ++ [.other]) = records l := by
  rw [records_append]
  exact List.append_nil _

lemma records_cons {item : WorkItem} {rest : List WorkItem} :
    records (item :: rest) = item.record.toList ++ records rest := by
  cases item <;> rfl

lemma coe_append_singleton {α : Type} {l : List α} {a : α} :
    ((l ++ [a] : List α) : Multiset α) = a ::ₘ (l : Multiset α) :=
  Multiset.coe_eq_coe.mpr (List.perm_append_singleton a l)

lemma books_producer {pc : ProducerPc} {msgs : List Msg} {deletes : List Nat}
    (hand : pc.hand = s.producer.hand) (acks : pc.acks = s.producer.acks) :
    { s with producer := pc, msgs := msgs, deletes := deletes }.books = s.books := by
  simp [State.books, State.unhandled, State.acks, hand, acks]

lemma books_worker {pc : WorkerPc} {items : Nat → AuditItem} (hand : pc.hand = s.worker.hand)
    (terminals : pc.terminals = s.worker.terminals) (counting : pc.counting = s.worker.counting)
    (finishing : pc.finishing = s.worker.finishing) :
    { s with worker := pc, items := items }.books = s.books := by
  simp [State.books, State.unhandled, State.acks, hand, terminals, counting, finishing]

lemma ProducerStep.books {act : ProducerAct} (step : ProducerStep cfg s act s') :
    s'.books = s.books ∨ Entry s.books s'.books := by
  cases step with
  | check here | wake here | receive here | receiveFails here | processed here | missing here
  | noReceipt here | malformed here | irrelevant here | paused here | unpaused here | full here
  | room here | putEnd here | delete here =>
    left
    apply books_producer <;> rw [here] <;> rfl
  | acksEmpty here | retry here =>
    left
    apply books_producer <;> rw [here] <;> split <;> rfl
  | @takeAck final b rest here queue =>
    left
    simp only [State.books, State.unhandled, State.acks, here, queue, ProducerPc.hand, ProducerPc.acks,
      Books.mk.injEq, Multiset.coe_eq_coe, List.append_assoc, List.append_nil, true_and, and_true]
    exact (List.perm_append_singleton b rest).append_left _
  | @batchAcked final b here =>
    right
    have entry := @Entry.batchAcked s.books b (s.worker.finishing ++ s.ackQ : List Nat) (by
      simp only [State.books, State.acks, here, ProducerPc.acks]
      exact coe_append_singleton)
    simpa [State.books, State.unhandled, State.acks, here, ProducerPc.hand, ProducerPc.acks] using entry
  | @batch m rest msg pairs here found translated some =>
    right
    have entry := @Entry.receive s.books m pairs some
    have front : ((eventRecords pairs s.nbatches ++ (records s.workQ ++ s.worker.hand) : List EventRecord) :
        Multiset EventRecord) = (records s.workQ ++ (s.worker.hand ++ eventRecords pairs s.nbatches) :
          List EventRecord) := by
      rw [← List.append_assoc (records s.workQ)]
      exact Multiset.coe_eq_coe.mpr List.perm_append_comm
    simpa [State.books, State.unhandled, State.acks, here, ProducerPc.hand, ProducerPc.acks,
      coe_append_singleton, front] using entry
  | @put rec recs msgs here =>
    left
    have moved := @List.perm_middle _ rec (recs ++ records s.workQ) s.worker.hand
    simp only [List.append_assoc] at moved
    simp only [State.books, State.unhandled, State.acks, here, ProducerPc.hand, ProducerPc.acks,
      records_append, Books.mk.injEq, Multiset.coe_eq_coe, List.append_assoc, List.cons_append, and_true]
    exact moved

lemma WorkerStep.books {act : WorkerAct} (step : WorkerStep s act s') :
    s'.books = s.books ∨ Entry s.books s'.books := by
  cases step with
  | checkStop here | check here | timeout here | dropAudit here | startAudit here | skipAudit here
  | finishAudit here =>
    left
    apply books_worker <;> rw [here] <;> rfl
  | begin here =>
    left
    apply books_worker <;> rw [here] <;> rfl
  | other here =>
    left
    apply books_worker <;> rw [here] <;> split <;> rfl
  | @take item rest here queue =>
    left
    simp only [State.books, State.unhandled, State.acks, here, queue, WorkerPc.hand, WorkerPc.terminals,
      WorkerPc.counting, WorkerPc.finishing, records_cons, Books.mk.injEq, Multiset.coe_eq_coe,
      List.append_assoc, List.append_nil, and_true]
    exact List.perm_append_comm.append_left _
  | @drop rec here =>
    right
    have entry := @Entry.lose s.books rec (s.producer.hand ++ records s.workQ : List EventRecord) (by
      simp only [State.books, State.unhandled, here, WorkerPc.hand]
      exact coe_append_singleton)
    simpa [State.books, State.unhandled, State.acks, here, WorkerPc.hand, WorkerPc.terminals,
      WorkerPc.counting, WorkerPc.finishing, coe_append_singleton] using entry
  | @raises rec here =>
    right
    have entry := @Entry.lose s.books rec (s.producer.hand ++ records s.workQ : List EventRecord) (by
      simp only [State.books, State.unhandled, here, WorkerPc.hand]
      exact coe_append_singleton)
    simpa [State.books, State.unhandled, State.acks, here, WorkerPc.hand, WorkerPc.terminals,
      WorkerPc.counting, WorkerPc.finishing, coe_append_singleton] using entry
  | @handle rec here =>
    right
    have entry := @Entry.handle s.books rec (s.producer.hand ++ records s.workQ : List EventRecord) (by
      simp only [State.books, State.unhandled, here, WorkerPc.hand]
      exact coe_append_singleton)
    simpa [State.books, State.unhandled, State.acks, here, WorkerPc.hand, WorkerPc.terminals,
      WorkerPc.counting, WorkerPc.finishing, coe_append_singleton] using entry
  | @counted rec here zero =>
    right
    have entry := @Entry.skip s.books rec 0 (by simp [State.books, here, WorkerPc.terminals]) zero
    simpa [State.books, State.unhandled, State.acks, here, WorkerPc.hand, WorkerPc.terminals,
      WorkerPc.counting, WorkerPc.finishing] using entry
  | @countDown rec here more =>
    right
    have entry := @Entry.countDown s.books rec 0 (by simp [State.books, here, WorkerPc.terminals]) more
    by_cases last : (s.batches rec.batch).remaining = 1 <;>
      simpa [State.books, State.unhandled, State.acks, here, WorkerPc.hand, WorkerPc.terminals,
        WorkerPc.counting, WorkerPc.finishing, last] using entry
  | @recordDone rec last here =>
    right
    have entry := @Entry.recordDone s.books rec 0 (by simp [State.books, here, WorkerPc.counting])
    cases last <;> simpa [State.books, State.unhandled, State.acks, here, WorkerPc.hand,
      WorkerPc.terminals, WorkerPc.counting, WorkerPc.finishing] using entry
  | @putAck b last here =>
    left
    cases last <;> simp [State.books, State.unhandled, State.acks, here, WorkerPc.hand,
      WorkerPc.terminals, WorkerPc.counting, WorkerPc.finishing]

/-- Every step of the daemon is an entry in its books or leaves them alone. -/
theorem step_books {a : Action} (step : Step cfg s a s') :
    s'.books = s.books ∨ Entry s.books s'.books := by
  cases step with
  | producer step => exact step.books
  | worker step => exact step.books
  | coord step =>
    left
    cases step with
    | clear | lastClear =>
      unfold clearActive
      split <;> rfl
    | put => simp only [State.books, State.unhandled, State.acks, records_audit]
    | _ => rfl
  | requestPut => exact .inl (by simp only [State.books, State.unhandled, State.acks, records_audit])
  | otherWork => exact .inl (by simp only [State.books, State.unhandled, State.acks, records_other])
  | requestBusy | requestDue | stop => exact .inl rfl

/-- The books are in order in every state of the daemon. -/
theorem balanced_of_reach (rch : (daemon cfg).Reach s) : s.books.Balanced := by
  apply Machine.Reach.invariant _ _ rch
  · rintro _ rfl
    constructor <;> simp [State.books, State.unhandled, State.acks, Books.buffered, records,
      ProducerPc.hand, ProducerPc.acks, WorkerPc.hand, WorkerPc.terminals, WorkerPc.counting,
      WorkerPc.finishing]
  · intro s a _ bal can
    obtain same | entry := step_books (daemon_step can)
    · rw [same]
      exact bal
    · exact entry.balanced bal

end Daemon

end PjCloud.Intake
