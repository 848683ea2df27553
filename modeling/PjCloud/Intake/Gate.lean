import Mathlib.Data.Finset.Card
import Mathlib.Data.Finset.Range
import Mathlib.Tactic.MkIffOfInductiveProp
import PjCloud.Intake.Books

/-!
# The counters of the gate

The gate's counters are what the coordinator waits on and what holds the producer back. They agree with the
work that is left as long as every record that is taken is handled (`gate_counts`). A record whose handler
raises is not counted by anyone: its batch stays outstanding for good (`outstanding_of_lost`), and the
coordinator that has paused the intake waits for ever (`raised_record_parks_coordinator`).
-/

namespace PjCloud.Intake
open Lib
variable {cfg : Setup} {s s' : State}

/-- The batch has a record that is queued or being handled, or it waits to be acked. -/
def Working (s : State) (b : Nat) : Prop := (∃ rec ∈ s.live, rec.batch = b) ∨ b ∈ s.acks

instance {b : Nat} : Decidable (Working s b) := inferInstanceAs (Decidable (_ ∨ _))

/-- The counters of the gate are the work that is left. A record on its way into the work queue counts as
queued, and a batch that the producer has taken from the ack queue as waiting. -/
@[mk_iff]
structure Counts (s : State) : Prop where
  records : s.gate.recordsBuffered = s.live.length
  batches : s.gate.batchesOutstanding = ((Finset.range s.nbatches).filter (Working s)).card

/-- The queues are empty, the worker is idle and the producer has nothing in its hand. -/
@[mk_iff]
structure Quiet (s : State) : Prop where
  workQ : s.workQ = []
  ackQ : s.ackQ = []
  worker : s.worker = .idle ∨ s.worker = .getting
  hand : s.producer.hand = []
  acks : s.producer.acks = []

/-- The coordinator waits for batches that nobody works on. -/
@[mk_iff]
structure Parked (s : State) : Prop where
  going : s.stop = false
  quiet : Quiet s
  waits : s.coord = .draining
  blocked : s.gate.batchesOutstanding > 0

instance : Decidable (Counts s) := decidable_of_iff _ (counts_iff s).symm

instance : Decidable (Quiet s) := decidable_of_iff _ (quiet_iff s).symm

instance : Decidable (Parked s) := decidable_of_iff _ (parked_iff s).symm

/-- The producer is held back by records that nobody works on. -/
structure HeldBack (cfg : Setup) (s : State) : Prop where
  going : s.stop = false
  quiet : Quiet s
  full : s.gate.recordsBuffered ≥ cfg.maxBufferedRecords

/-- No handler raises, and no record is dropped in the worker's hand. -/
def keepsRecords (s : State) : Action → Bool
  | .worker (.handle raises) => !raises
  | .worker .dispatch =>
    match s.worker with
    | .holding (.event _) => !s.stop
    | _ => true
  | _ => true

lemma lost_of_keeps (rch : ((daemon cfg).only keepsRecords).Reach s) : s.lost = [] := by
  apply Reach.invariant_step _ _ rch
  · rfl
  · intro s a s' _ none meets step
    cases step with
    | producer step => cases step <;> exact none
    | worker step =>
      cases step with
      | drop here stop => simp [keepsRecords, here, stop] at meets
      | raises => cases meets
      | _ => exact none
    | coord step =>
      cases step with
      | clear | lastClear =>
        unfold clearActive
        split <;> exact none
      | _ => exact none
    | _ => exact none

lemma card_buffered : Multiset.card s.books.buffered = s.live.length + s.lost.length := by
  simp only [Books.buffered, State.books, State.live, Multiset.card_add, Multiset.coe_card,
    List.length_append]

lemma counted_owing (rch : (daemon cfg).Reach s) {rec : EventRecord} (here : s.worker = .counted rec false) :
    0 < (s.batches rec.batch).remaining := by
  revert rec
  apply Machine.Reach.invariant _ _ rch
  · rintro _ rfl rec here
    cases here
  · intro s a _ owing can
    have step := daemon_step can
    revert step
    generalize (daemon cfg).exec s a = s'
    intro step rec here
    cases step with
    | producer step =>
      cases step with
      | @batch m rest msg pairs _ _ _ some =>
        dsimp only
        by_cases new : rec.batch = s.nbatches
        · rw [new, Function.update_self]
          exact List.length_pos_iff.mpr some
        · rw [Function.update_of_ne new]
          exact owing here
      | _ => exact owing here
    | worker step =>
      cases step with
      | @countDown counted before more =>
        obtain ⟨same, last⟩ := WorkerPc.counted.inj here
        subst same
        have several : (s.batches counted.batch).remaining ≠ 1 := of_decide_eq_false last
        dsimp only
        rw [Function.update_self]
        dsimp only
        omega
      | other =>
        dsimp only at here
        split at here <;> cases here
      | _ => cases here
    | coord step =>
      cases step with
      | clear | lastClear =>
        unfold clearActive at here ⊢
        split at here <;> split <;> exact owing here
      | _ => exact owing here
    | _ => exact owing here

lemma working_iff (rch : (daemon cfg).Reach s) (none : s.lost = []) {b : Nat} (known : b < s.nbatches) :
    Working s b ↔ b ∈ s.outstanding := by
  have bal := balanced_of_reach rch
  constructor
  · rintro (⟨rec, mem, rfl⟩ | mem)
    · by_cases counted : rec ∈ s.unhandled ++ s.worker.terminals
      · have uncounted : rec ∈ s.books.uncounted := by
          simp only [Books.uncounted, State.books, Multiset.mem_add, Multiset.mem_coe]
          exact .inl (List.mem_append.mp counted)
        exact bal.owed _ known (bal.owing uncounted)
      · -- the gate is about to count the record, so its batch waits for more or for its ack
        have here : rec ∈ s.worker.counting := by
          simp only [State.live, List.mem_append] at mem counted
          tauto
        unfold WorkerPc.counting at here
        split at here
        · rename_i rec' last worker
          obtain rfl := List.mem_singleton.mp here
          cases last with
          | false => exact bal.owed _ known (counted_owing rch worker)
          | true =>
            apply ((bal.ready _).mp _).1
            simp [State.books, State.acks, worker, WorkerPc.finishing]
        · cases here
    · exact ((bal.ready b).mp mem).1
  · intro waits
    by_cases zero : (s.batches b).remaining = 0
    · exact .inr ((bal.ready b).mpr ⟨waits, zero⟩)
    · left
      obtain ⟨rec, mem⟩ := Multiset.card_pos_iff_exists_mem.mp (bal.countdown b known ▸
        Nat.pos_of_ne_zero zero)
      obtain ⟨mem, own⟩ := Multiset.mem_filter.mp mem
      refine ⟨rec, ?_, own⟩
      simp only [Books.uncounted, State.books, none, Multiset.mem_add, Multiset.mem_coe, List.not_mem_nil,
        or_false] at mem
      simp only [State.live, List.mem_append]
      exact .inl mem

lemma counts_of_keeps (rch : ((daemon cfg).only keepsRecords).Reach s) : Counts s := by
  have none := lost_of_keeps rch
  have rch := rch.of_only
  have bal := balanced_of_reach rch
  constructor
  · have records := bal.records
    rw [card_buffered, none] at records
    exact records
  · have open' : (Finset.range s.nbatches).filter (Working s) = ⟨s.outstanding, bal.distinct⟩ := by
      ext b
      simp only [Finset.mem_filter, Finset.mem_range]
      constructor
      · rintro ⟨known, works⟩
        exact (working_iff rch none known).mp works
      · intro waits
        have known := bal.bounded b waits
        exact ⟨known, (working_iff rch none known).mpr waits⟩
    rw [open']
    exact bal.batches

lemma Quiet.live (quiet : Quiet s) : s.live = [] ∧ s.acks = [] := by
  obtain idle | idle := quiet.worker <;>
    simp [State.live, State.unhandled, State.acks, quiet.workQ, quiet.ackQ, quiet.hand, quiet.acks, idle,
      records, WorkerPc.hand, WorkerPc.terminals, WorkerPc.counting, WorkerPc.finishing]

/-- In a run where every record is kept, the counters of the gate are the work that is left, the coordinator
does not wait for batches that nobody works on, and the producer is not held back by such records. -/
theorem gate_counts (some : 0 < cfg.maxBufferedRecords)
    (rch : ((daemon cfg).only keepsRecords).Reach s) : Counts s ∧ ¬ Parked s ∧ ¬ HeldBack cfg s := by
  have counts := counts_of_keeps rch
  refine ⟨counts, ?_, ?_⟩
  · intro parked
    obtain ⟨live, acks⟩ := parked.quiet.live
    have zero : s.gate.batchesOutstanding = 0 := by
      rw [counts.batches, Finset.card_eq_zero, Finset.filter_eq_empty_iff]
      intro b _ works
      simp [Working, live, acks] at works
    exact absurd parked.blocked (by omega)
  · intro held
    have zero : s.gate.recordsBuffered = 0 := by
      rw [counts.records, held.quiet.live.1]
      rfl
    exact absurd held.full (by omega)

/-- Every body has one record, the upload of one file. -/
def oneRecord : Setup where
  library := {
    loads := fun _ => .ok (.obj [("Records", .arr [.obj [("eventName", .str "ObjectCreated:Put"),
      ("s3", .obj [("object", .obj [("key", .str "a.mcap")])])]])])
    unquotePlus := id }

/-- The producer receives a message and queues its record, and the worker takes it. -/
def receiveRun : List Action :=
  [.producer .check, .producer .acksEmpty, .producer .testPaused, .producer .testBuffered,
    .producer (.receive [⟨some "", some "receipt"⟩]), .producer .process, .producer .put, .producer .put,
    .producer .process, .worker .check, .worker .take, .worker .dispatch]

/-- The record is handled and its message acked, while the coordinator waits for it. -/
def handledRun : List Action :=
  receiveRun ++ [.worker (.handle false), .coord .due, .worker .countDown, .worker .recordDone,
    .worker .putAck, .producer .check, .producer .takeAck, .producer .delete, .producer .batchAcked,
    .coord .drained]

/-- The coordinator gets on when the record is through. -/
theorem handled_record_counts : ∃ s, ((daemon oneRecord).only keepsRecords).Reach s ∧
    (Counts s ∧ ¬ Parked s ∧ ¬ HeldBack oneRecord s) ∧ s.handled.length = 1 ∧ s.coord = .enqueue := by
  have run : (((daemon oneRecord).only keepsRecords).replay {} handledRun).any
      (fun s => decide (s.handled.length = 1 ∧ s.coord = .enqueue)) = true := by decide +kernel
  obtain ⟨s, rch, done⟩ := Machine.Reach.replay_any (.init rfl) run
  exact ⟨s, rch, gate_counts (by decide) rch, of_decide_eq_true done⟩

def raisedRun : List Action := receiveRun ++ [.worker (.handle true), .coord .due]

/-- The coordinator waits for a record whose handler has raised. -/
theorem raised_record_parks_coordinator :
    ∃ s, (daemon oneRecord).Reach s ∧ ¬ Counts s ∧ Parked s := by
  have run : ((daemon oneRecord).replay {} raisedRun).any
      (fun s => decide (¬ Counts s ∧ Parked s)) = true := by decide +kernel
  obtain ⟨s, rch, parked⟩ := Machine.Reach.replay_any (.init rfl) run
  exact ⟨s, rch, of_decide_eq_true parked⟩

/-- The batch of a lost record stays outstanding. -/
theorem outstanding_of_lost (rch : (daemon cfg).Reach s) {rec : EventRecord} (lost : rec ∈ s.lost) :
    rec.batch ∈ s.outstanding ∧ s.gate.batchesOutstanding ≠ 0 := by
  have bal := balanced_of_reach rch
  have uncounted : rec ∈ s.books.uncounted := Multiset.mem_add.mpr (.inr lost)
  have waits := bal.owed _ (bal.known rec (Multiset.mem_of_le Books.lost_le lost)) (bal.owing uncounted)
  refine ⟨waits, ?_⟩
  intro zero
  have none : Multiset.card s.books.outstanding = 0 := bal.batches.symm.trans zero
  rw [Multiset.card_eq_zero.mp none] at waits
  exact Multiset.notMem_zero _ waits

theorem raised_record_stays_owed : ∃ s, (daemon oneRecord).Reach s ∧ s.gate.batchesOutstanding ≠ 0 := by
  have run : ((daemon oneRecord).replay {} raisedRun).any (fun s => decide (s.lost ≠ [])) = true := by decide +kernel
  obtain ⟨s, rch, some⟩ := Machine.Reach.replay_any (.init rfl) run
  obtain ⟨rec, lost⟩ := List.exists_mem_of_ne_nil _ (of_decide_eq_true some)
  exact ⟨s, rch, (outstanding_of_lost rch lost).2⟩

end PjCloud.Intake
