import PjCloud.Lib.Lists
import PjCloud.Planning.Stream

/-!
# The seed phase

What the seed phase of `Producer.Run` finds and emits. Scanning keeps, for each seed topic, the first of
its newest messages over all the seed chunks (`scanSeeds_last`); the messages found are then emitted, at
most one for each topic (`seedPhase_adds`).
-/

namespace PjCloud.Planning
open Lib Format

section Scan
variable {p : Producer} {topic : String} {st : SeedState} {fileID : Nat}

lemma admits_seedWindow {logTimeNs : Int} (nonneg : 0 ≤ logTimeNs) :
    TimeWindow.admits (seedWindow p) logTimeNs = decide (logTimeNs < p.plan.seedBeforeNs) := by
  have lower : (-2 ^ 63 : Int) ≤ logTimeNs := by omega
  simp only [seedWindow, TimeWindow.admits, lower, decide_true, Bool.true_and]

abbrev newer : Option RawMessage → RawMessage → Option RawMessage :=
  List.argAux fun b c => c.logTimeNs < b.logTimeNs

def SeedState.newest (st : SeedState) (topic : String) : Option RawMessage := (st.last topic).map Prod.fst

lemma keepNewest_newest (want : topic ∈ p.plan.seedTopics) {m : RawMessage} :
    (keepNewest p fileID st m).newest topic =
      if m.topic = topic then newer (st.newest topic) m else st.newest topic := by
  unfold keepNewest
  by_cases same : m.topic = topic
  · subst same
    rw [if_pos want, if_pos rfl]
    cases h : st.last m.topic with
    | none => simp [SeedState.newest, h, List.argAux]
    | some e =>
      obtain ⟨cur, f⟩ := e
      by_cases later : cur.logTimeNs < m.logTimeNs <;> simp [SeedState.newest, h, List.argAux, later]
  · have other : topic ≠ m.topic := Ne.symm same
    rw [if_neg same]
    split
    · split
      · simp [SeedState.newest, Function.update_of_ne other]
      · split
        · simp [SeedState.newest, Function.update_of_ne other]
        · rfl
    · rfl

lemma keepNewest_other (other : topic ∉ p.plan.seedTopics) {m : RawMessage} :
    (keepNewest p fileID st m).newest topic = st.newest topic := by
  unfold keepNewest
  split
  · rename_i want
    have ne : topic ≠ m.topic := fun same => other (same ▸ want)
    split
    · simp [SeedState.newest, Function.update_of_ne ne]
    · split
      · simp [SeedState.newest, Function.update_of_ne ne]
      · rfl
  · rfl

def keptAfter (p : Producer) (kept : Option RawMessage) (topic : String) (ms : List RawMessage) :
    Option RawMessage :=
  if topic ∈ p.plan.seedTopics then (ms.filter fun m => m.topic = topic).foldl newer kept else kept

lemma keptAfter_append {kept : Option RawMessage} {ms ms' : List RawMessage} :
    keptAfter p kept topic (ms ++ ms') = keptAfter p (keptAfter p kept topic ms) topic ms' := by
  unfold keptAfter
  split
  · rw [List.filter_append, List.foldl_append]
  · rfl

lemma foldl_keepNewest {ms : List RawMessage} : ∀ {st : SeedState},
    (ms.foldl (keepNewest p fileID) st).newest topic = keptAfter p (st.newest topic) topic ms := by
  induction ms with
  | nil =>
    intro st
    unfold keptAfter
    split <;> rfl
  | cons m rest ih =>
    intro st
    rw [List.foldl_cons, ih]
    unfold keptAfter
    split
    · rename_i want
      rw [keepNewest_newest want]
      by_cases same : m.topic = topic <;> simp [same]
    · rename_i other
      exact keepNewest_other other

lemma scanSeeds_newest {steps : List (ChunkRef × List RawMessage)} : ∀ (st : SeedState),
    (∀ step ∈ steps, Streams p (seedWindow p) step.1 step.2) →
    ∃ st', scanSeeds p (steps.map Prod.fst) st = (st', .ok) ∧
      ∀ topic, st'.newest topic = keptAfter p (st.newest topic) topic (steps.flatMap Prod.snd) := by
  induction steps with
  | nil =>
    intro st _
    refine ⟨st, rfl, ?_⟩
    intro topic
    unfold keptAfter
    split <;> rfl
  | cons step rest ih =>
    intro st streams
    obtain ⟨n, streamed⟩ := streamChunk_total "seed chunk"
      (fun n (st : SeedState) => { st with fetchedBytes := st.fetchedBytes + n })
      (keepNewest p step.1.fileID) st (streams step List.mem_cons_self)
    obtain ⟨st', done, kept⟩ := ih _ fun step h => streams step (List.mem_cons_of_mem _ h)
    refine ⟨st', ?_, ?_⟩
    · rw [List.map_cons, scanSeeds]
      simp only [streamed]
      exact done
    · intro topic
      rw [kept, foldl_keepNewest, List.flatMap_cons, keptAfter_append]
      rfl

lemma keptAfter_none {ms : List RawMessage} : keptAfter p none topic ms =
    if topic ∈ p.plan.seedTopics then (ms.filter fun m => m.topic = topic).argmax RawMessage.logTimeNs
    else none := rfl

lemma topic_of_keptAfter {ms : List RawMessage} {m : RawMessage}
    (kept : keptAfter p none topic ms = some m) : m.topic = topic ∧ topic ∈ p.plan.seedTopics := by
  rw [keptAfter_none] at kept
  split at kept
  · rename_i want
    have mem := List.argmax_mem (Option.mem_def.mpr kept)
    exact ⟨by simpa using (List.mem_filter.mp mem).2, want⟩
  · cases kept

end Scan

section Emit
variable {p : Producer} {R : Runtime} {steps : List (ChunkRef × List RawMessage)}

lemma emitSeeds_adds {l : List (RawMessage × Nat)} : ∀ {curFile : Option Nat} {s : RunState},
    Adds p s (emitSeeds p l curFile s) ((l.map Prod.fst).filter (kept p))
      ((l.map Prod.fst).countP (oversized p)) := by
  induction l with
  | nil =>
    intro curFile s
    cases curFile with
    | none => exact .refl
    | some f => exact flush_adds
  | cons e rest ih =>
    intro curFile s
    obtain ⟨m, f⟩ := e
    have onward : ∀ {s' : RunState}, Adds p s s' [] 0 →
        Adds p s (emitSeeds p rest (some f) (emit p f s' m)) ((m :: rest.map Prod.fst).filter (kept p))
          ((m :: rest.map Prod.fst).countP (oversized p)) := by
      intro s' before
      have both := (before.trans (emit_adds (m := m))).trans (@ih (some f) (emit p f s' m))
      rwa [List.nil_append, Nat.zero_add, ← List.filter_append, ← List.countP_append] at both
    cases curFile with
    | none => exact onward .refl
    | some c =>
      -- the batch of the file before is closed first
      exact onward flushIf_adds

lemma emitSeeds_begun {l : List (RawMessage × Nat)} : ∀ {curFile : Nat} {s : RunState},
    (emitSeeds p l (some curFile) s).bb.msgs = [] := by
  induction l with
  | nil => exact flush_msgs
  | cons e rest ih => exact ih

lemma emitSeeds_msgs {l : List (RawMessage × Nat)} {s : RunState} (closed : s.bb.msgs = []) :
    (emitSeeds p l none s).bb.msgs = [] := by
  cases l with
  | nil => exact closed
  | cons e rest => exact emitSeeds_begun

lemma seeded_filter {last : String → Option (RawMessage × Nat)} {topics : Finset String} {topic : String}
    (own : ∀ {t e}, last t = some e → e.1.topic = t) :
    ((R.slice (fun e => e.1.logTimeNs) ((R.range (topics.filter fun t => (last t).isSome)).filterMap
      last)).map Prod.fst).filter (fun m => m.topic = topic) =
    (if topic ∈ topics then (last topic).map Prod.fst else none).toList := by
  have contribution : ∀ t, (((last t).map Prod.fst).filter fun m => m.topic = topic) =
      if t = topic then (last t).map Prod.fst else none := by
    intro t
    cases h : last t with
    | none => simp
    | some e => by_cases same : t = topic <;> simp [own h, same, Option.filter]
  -- before sorting, only the topic itself contributes
  have unsorted : (((R.range (topics.filter fun t => (last t).isSome)).filterMap last).map
      Prod.fst).filter (fun m => m.topic = topic) =
      (if topic ∈ topics then (last topic).map Prod.fst else none).toList := by
    rw [List.map_filterMap, List.filter_filterMap, List.filterMap_eq_flatMap_toList]
    simp only [contribution]
    by_cases found : topic ∈ topics.filter fun t => (last t).isSome
    · rw [flatMap_of_unique (R.range_nodup _) (Runtime.mem_range.mpr found)
        (fun t _ other => by rw [if_neg other]; rfl), if_pos rfl, if_pos (Finset.mem_filter.mp found).1]
    · have nothing : (if topic ∈ topics then (last topic).map Prod.fst else none) = none := by
        split
        · rename_i want
          rw [Option.map_eq_none_iff, ← Option.not_isSome_iff_eq_none]
          exact fun some => found (Finset.mem_filter.mpr ⟨want, some⟩)
        · rfl
      rw [nothing]
      apply List.flatMap_eq_nil_iff.mpr
      intro t mem
      have other : t ≠ topic := fun same => found (same ▸ Runtime.mem_range.mp mem)
      rw [if_neg other]
      rfl
  have perm := ((R.slice_perm (fun e : RawMessage × Nat => e.1.logTimeNs)
    ((R.range (topics.filter fun t => (last t).isSome)).filterMap last)).map Prod.fst).filter
      fun m => m.topic = topic
  rw [unsorted] at perm
  generalize (if topic ∈ topics then (last topic).map Prod.fst else none) = only at perm ⊢
  cases only with
  | none => exact List.perm_nil.mp perm
  | some m => exact List.perm_singleton.mp perm

/-- The seed phase over chunks that stream: of each seed topic it adds the message that the scan kept,
    unless `emit` leaves that out. -/
lemma seedPhase_adds (refs : p.plan.seedChunks = steps.map Prod.fst)
    (streams : ∀ step ∈ steps, Streams p (seedWindow p) step.1 step.2) :
    ∃ (s' : RunState) (seeds : List RawMessage), seedPhase p R = (s', .ok) ∧ s'.bb.msgs = [] ∧
      Adds p {} s' (seeds.filter (kept p)) (seeds.countP (oversized p)) ∧
      ∀ topic, seeds.filter (fun m => m.topic = topic) =
        (keptAfter p none topic (steps.flatMap Prod.snd)).toList := by
  obtain ⟨st, scanned, newest⟩ := scanSeeds_newest {} streams
  replace newest : ∀ topic, st.newest topic = keptAfter p none topic (steps.flatMap Prod.snd) := newest
  rw [← refs] at scanned
  have own : ∀ {t e}, st.last t = some e → e.1.topic = t := by
    intro t e found
    have kept : keptAfter p none t (steps.flatMap Prod.snd) = some e.1 := by
      rw [← newest t]
      exact congrArg (Option.map Prod.fst) found
    exact (topic_of_keptAfter kept).1
  let seeded := R.slice (fun e => e.1.logTimeNs)
    ((R.range (p.plan.seedTopics.filter fun topic => (st.last topic).isSome)).filterMap st.last)
  refine ⟨emitSeeds p seeded none { fetchedBytes := st.fetchedBytes }, seeded.map Prod.fst, ?_,
    emitSeeds_msgs rfl, ?_, ?_⟩
  · rw [seedPhase, scanned]
  · have adds := (fetched_adds (p := p) (s := {}) (n := st.fetchedBytes)).trans
      (@emitSeeds_adds p seeded none _)
    rwa [List.nil_append, Nat.zero_add, Nat.zero_add] at adds
  · intro topic
    rw [seeded_filter own]
    by_cases want : topic ∈ p.plan.seedTopics
    · rw [if_pos want, ← newest topic]
      rfl
    · rw [if_neg want, keptAfter_none, if_neg want]

lemma run_seeded {s : RunState} (some : p.plan.seedChunks ≠ []) (phase : seedPhase p R = (s, .ok)) :
    run p R = runChunks p p.plan.chunks s := by
  rw [run, if_neg some, phase]

end Emit

end PjCloud.Planning
