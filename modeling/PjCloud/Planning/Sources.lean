import PjCloud.Planning.SeedPhase

/-!
# Where the messages of a run come from

A `RawMessage` does not say which channel recorded it. `Sourced` does: it is a message with its file and
channel. `sources` are the messages that the chunks of a list hand on, up to the first chunk that fails,
and `streamed` those that a run puts into batches: the seed of each topic and then the window.
`emitted_perm` is that these are the messages of `Producer.Run`, for any producer, also for one that reads
damaged chunks and fails on the way.
-/

namespace PjCloud.Planning
open Lib Format

/-- A message with the channel that recorded it. -/
structure Sourced where
  fileID : Nat
  channelID : Nat
  raw : RawMessage
  deriving DecidableEq, Repr

section Reached
variable {L : Library} {σ : Type} {g : σ → RawMessage → σ}

/-- Collect the messages among the records. -/
def collect (L : Library) (ms : List McapMessage) (op : UInt8) (body : Bytes) :
    List McapMessage × Option String :=
  if op ≠ opMessage then
    (ms, none)
  else
    match L.parseMessage body with
    | .error e => (ms, some ("format: parse message: " ++ e))
    | .ok m => (ms ++ [m], none)

/-- The messages of a chunk that the loop gets to, and how it ends. -/
def reached (L : Library) (chunkBytes : Bytes) : List McapMessage × Outcome :=
  match decodeChunkRecords L chunkBytes with
  | .error outcome => ([], outcome)
  | .ok records => walk (collect L) records (records.length + 1) 0 []

/-- The messages of a chunk that the session wants. -/
def sourced (idx : FileChunkIndex) (ref : ChunkRef) (tr : Option TimeWindow) (ms : List McapMessage) :
    List Sourced :=
  ms.filterMap fun m => ((resolve idx.channels m).filter (ChunkRef.wants ref tr)).map
    (Sourced.mk ref.fileID m.channelID)

lemma iterate_reached {idx : FileChunkIndex} {chunkBytes : Bytes} {ref : ChunkRef}
    {tr : Option TimeWindow} {s : σ} :
    iterate L idx chunkBytes ref tr (fun s m => (g s m, none)) s =
      (((sourced idx ref tr (reached L chunkBytes).1).map Sourced.raw).foldl g s,
        (reached L chunkBytes).2) := by
  unfold iterate reached
  cases decodeChunkRecords L chunkBytes with
  | error outcome => rfl
  | ok records =>
    -- the state of the one loop is the fold over what the other has collected
    let rel (s' : σ) (ms : List McapMessage) : Prop :=
      s' = ((sourced idx ref tr ms).map Sourced.raw).foldl g s
    have together : ∀ s' ms op body, rel s' ms →
        rel (visitRecord L idx ref tr (fun s m => (g s m, none)) s' op body).1 (collect L ms op body).1 ∧
          (visitRecord L idx ref tr (fun s m => (g s m, none)) s' op body).2 =
            (collect L ms op body).2 := by
      intro s' ms op body same
      subst same
      by_cases message : op = opMessage
      · subst message
        cases parsed : L.parseMessage body with
        | error e => simp [visitRecord, collect, parsed, rel]
        | ok m =>
          rw [visitRecord_message parsed]
          simp only [collect, ne_eq, not_true_eq_false, if_false, parsed, rel, sourced,
            List.filterMap_append, List.map_append, List.foldl_append]
          cases found : (resolve idx.channels m).filter (ChunkRef.wants ref tr) <;> simp [found]
      · simp [visitRecord, collect, message, rel]
    have start : rel s [] := rfl
    obtain ⟨state, outcome⟩ := walk_rel rel together records (records.length + 1) 0 start
    exact Prod.ext state outcome

end Reached

section Sources
variable {p : Producer} {tr : Option TimeWindow} {ref : ChunkRef} {chunks : List ChunkRef}

/-- The messages that a chunk hands on, and whether the chunk is read to its end. -/
def chunkSources (p : Producer) (tr : Option TimeWindow) (ref : ChunkRef) : List Sourced × Bool :=
  match p.readChunk ref, idxByFile p.indexes ref.fileID with
  | .ok chunkBytes, some idx =>
    (sourced idx ref tr (reached p.library chunkBytes).1, (reached p.library chunkBytes).2 = .ok)
  | _, _ => ([], false)

variable (p tr ref) in
lemma streamChunk_sources {σ : Type} (what : String) (fetched : Nat → σ → σ)
    (g : σ → RawMessage → σ) (s : σ) :
    ∃ s₀, (s₀ = s ∨ ∃ n, s₀ = fetched n s) ∧
      (streamChunk p what tr fetched (fun s m => (g s m, none)) ref s).1 =
        ((chunkSources p tr ref).1.map Sourced.raw).foldl g s₀ ∧
      ((streamChunk p what tr fetched (fun s m => (g s m, none)) ref s).2 = .ok ↔
        (chunkSources p tr ref).2 = true) := by
  unfold streamChunk chunkSources iterateFile
  cases p.readChunk ref with
  | error e => exact ⟨s, .inl rfl, rfl, by simp⟩
  | ok chunkBytes =>
    refine ⟨fetched chunkBytes.length s, .inr ⟨_, rfl⟩, ?_⟩
    cases idxByFile p.indexes ref.fileID with
    | none => exact ⟨rfl, by simp⟩
    | some idx =>
      dsimp only
      rw [iterate_reached]
      cases (reached p.library chunkBytes).2 <;> simp

/-- The messages that the chunks hand on up to the first that fails, and whether none does. -/
def sources (p : Producer) (tr : Option TimeWindow) : List ChunkRef → List Sourced × Bool
  | [] => ([], true)
  | ref :: rest =>
    if (chunkSources p tr ref).2 then
      ((chunkSources p tr ref).1 ++ (sources p tr rest).1, (sources p tr rest).2)
    else
      ((chunkSources p tr ref).1, false)

/-- The messages of the sources that `emit` puts into a batch. -/
lemma map_raw_kept {srcs : List Sourced} : (srcs.filter fun src => kept p src.raw).map Sourced.raw =
    (srcs.map Sourced.raw).filter (kept p) := by
  rw [List.filter_map]
  rfl

lemma runChunks_emitted : ∀ {s : RunState}, (runChunks p chunks s).1.emitted =
    s.emitted ++ ((sources p p.opts.timeRange chunks).1.map Sourced.raw).filter (kept p) := by
  induction chunks with
  | nil =>
    intro s
    exact (List.append_nil _).symm
  | cons ref rest ih =>
    intro s
    simp only [runChunks, sources]
    obtain ⟨s₀, start, state, ends⟩ := streamChunk_sources p p.opts.timeRange ref "chunk"
      (fun n (s : RunState) => { s with fetchedBytes := s.fetchedBytes + n }) (emit p ref.fileID) s
    have same : s₀.emitted = s.emitted := by
      obtain rfl | ⟨n, rfl⟩ := start <;> rfl
    revert state ends
    generalize streamChunk p "chunk" _ _ _ ref s = x
    obtain ⟨s', outcome⟩ := x
    intro state ends
    subst state
    by_cases done : outcome = .ok
    · subst done
      rw [if_pos (ends.mp rfl)]
      rw [ih, flush_adds.emitted, foldl_emit_adds.emitted, same]
      simp
    · rw [if_neg (fun read => done (ends.mpr read)), ← same]
      cases outcome with
      | ok => exact absurd rfl done
      | error | panicked => exact foldl_emit_adds.emitted

lemma fileID_of_mem {src : Sourced} (mem : src ∈ (chunkSources p tr ref).1) :
    src.fileID = ref.fileID := by
  unfold chunkSources at mem
  split at mem
  · obtain ⟨m, -, made⟩ := List.mem_filterMap.mp mem
    obtain ⟨raw, -, rfl⟩ := Option.map_eq_some_iff.mp made
    rfl
  · cases mem

def Sourced.seed (src : Sourced) : RawMessage × Nat := (src.raw, src.fileID)

/-- What is kept for a topic after a list of messages: the first of the newest. -/
def keptSource (p : Producer) (kept : Option Sourced) (topic : String) (srcs : List Sourced) :
    Option Sourced :=
  if topic ∈ p.plan.seedTopics then
    (srcs.filter fun src => src.raw.topic = topic).foldl
      (List.argAux fun b c => c.raw.logTimeNs < b.raw.logTimeNs) kept
  else kept

lemma keptSource_append {kept : Option Sourced} {topic : String} {l l' : List Sourced} :
    keptSource p kept topic (l ++ l') = keptSource p (keptSource p kept topic l) topic l' := by
  unfold keptSource
  split
  · rw [List.filter_append, List.foldl_append]
  · rfl

lemma keepNewest_last {st : SeedState} {kept : String → Option Sourced} {src : Sourced}
    (held : ∀ topic, st.last topic = (kept topic).map Sourced.seed) (topic : String) :
    (keepNewest p src.fileID st src.raw).last topic =
      (keptSource p (kept topic) topic [src]).map Sourced.seed := by
  unfold keepNewest keptSource
  by_cases same : src.raw.topic = topic
  · subst same
    rw [List.filter_cons_of_pos (by simp), List.filter_nil, List.foldl_cons, List.foldl_nil]
    split
    · have here := held src.raw.topic
      revert here
      cases kept src.raw.topic with
      | none =>
        intro here
        simp [here, List.argAux, Sourced.seed]
      | some cur =>
        intro here
        by_cases later : cur.raw.logTimeNs < src.raw.logTimeNs <;>
          simp [here, List.argAux, Sourced.seed, later]
    · exact held _
  · -- the entry of another topic is not touched
    rw [List.filter_cons_of_neg (by simpa using same)]
    have other : topic ≠ src.raw.topic := Ne.symm same
    have kept : (if topic ∈ p.plan.seedTopics then List.foldl (List.argAux fun b c : Sourced =>
        c.raw.logTimeNs < b.raw.logTimeNs) (kept topic) [] else kept topic) = kept topic := by
      split <;> rfl
    rw [List.filter_nil, kept, ← held topic]
    split
    · split
      · exact Function.update_of_ne other _ _
      · split
        · exact Function.update_of_ne other _ _
        · rfl
    · rfl

lemma foldl_keepNewest_last {srcs : List Sourced} : ∀ {st : SeedState} {kept : String → Option Sourced},
    (∀ topic, st.last topic = (kept topic).map Sourced.seed) →
    ∀ topic, (srcs.foldl (fun st src => keepNewest p src.fileID st src.raw) st).last topic =
      (keptSource p (kept topic) topic srcs).map Sourced.seed := by
  induction srcs with
  | nil =>
    intro st kept held topic
    unfold keptSource
    split <;> exact held topic
  | cons src rest ih =>
    intro st kept held topic
    rw [List.foldl_cons, ih (keepNewest_last held), ← keptSource_append]
    rfl

lemma scanSeeds_sources : ∀ {st : SeedState} {kept : String → Option Sourced},
    (∀ topic, st.last topic = (kept topic).map Sourced.seed) →
    (∀ topic, (scanSeeds p chunks st).1.last topic =
      (keptSource p (kept topic) topic (sources p (seedWindow p) chunks).1).map Sourced.seed) ∧
    ((scanSeeds p chunks st).2 = .ok ↔ (sources p (seedWindow p) chunks).2 = true) := by
  induction chunks with
  | nil =>
    intro st kept held
    refine ⟨fun topic => ?_, by simp [scanSeeds, sources]⟩
    unfold keptSource
    split <;> exact held topic
  | cons ref rest ih =>
    intro st kept held
    simp only [scanSeeds, sources]
    obtain ⟨st₀, start, state, ends⟩ := streamChunk_sources p (seedWindow p) ref "seed chunk"
      (fun n (st : SeedState) => { st with fetchedBytes := st.fetchedBytes + n })
      (keepNewest p ref.fileID) st
    have same : st₀.last = st.last := by
      obtain rfl | ⟨n, rfl⟩ := start <;> rfl
    revert state ends
    generalize streamChunk p "seed chunk" _ _ _ ref st = x
    obtain ⟨st', outcome⟩ := x
    intro state ends
    have files : ∀ {l : List Sourced} {st : SeedState}, (∀ src ∈ l, src.fileID = ref.fileID) →
        (l.map Sourced.raw).foldl (keepNewest p ref.fileID) st =
          l.foldl (fun st src => keepNewest p src.fileID st src.raw) st := by
      intro l
      induction l with
      | nil =>
        intro st _
        rfl
      | cons src rest ih =>
        intro st own
        rw [List.map_cons, List.foldl_cons, List.foldl_cons, own src List.mem_cons_self]
        exact ih fun src mem => own src (List.mem_cons_of_mem _ mem)
    have scanned : ∀ topic, st'.last topic = (keptSource p (kept topic) topic
        (chunkSources p (seedWindow p) ref).1).map Sourced.seed := by
      have begun : ∀ topic, st₀.last topic = (kept topic).map Sourced.seed := same ▸ held
      replace state : st' = _ := state
      rw [state, files fun src mem => fileID_of_mem mem]
      exact foldl_keepNewest_last begun
    by_cases done : outcome = .ok
    · subst done
      rw [if_pos (ends.mp rfl)]
      refine ⟨fun topic => ?_, (ih scanned).2⟩
      rw [(ih scanned).1 topic, keptSource_append]
    · rw [if_neg (fun read => done (ends.mpr read))]
      cases outcome with
      | ok => exact absurd rfl done
      | error e => exact ⟨scanned, by simp⟩
      | panicked => exact ⟨scanned, by simp⟩

def seedOf (p : Producer) (topic : String) : Option Sourced :=
  ((sources p (seedWindow p) p.plan.seedChunks).1.filter fun src => src.raw.topic = topic).argmax
    fun src => src.raw.logTimeNs

/-- What a run puts into batches, with the sources: the seeds and then the window. -/
def streamed (p : Producer) (R : Runtime) : List Sourced :=
  let window := (sources p p.opts.timeRange p.plan.chunks).1
  if p.plan.seedChunks = [] then
    window.filter fun src => kept p src.raw
  else if (sources p (seedWindow p) p.plan.seedChunks).2 then
    ((R.range p.plan.seedTopics).filterMap (seedOf p) ++ window).filter fun src => kept p src.raw
  else
    []

lemma seedPhase_seeds {R : Runtime}
    (read : (sources p (seedWindow p) p.plan.seedChunks).2 = true) :
    ∃ (n : Nat) (seeds : List Sourced), seedPhase p R = (emitSeeds p (seeds.map Sourced.seed) none { fetchedBytes := n }, .ok) ∧
      seeds.Perm ((R.range p.plan.seedTopics).filterMap (seedOf p)) := by
  obtain ⟨last, ends⟩ := @scanSeeds_sources p p.plan.seedChunks {} (fun _ => none) fun _ => rfl
  have done := ends.mpr read
  unfold seedPhase
  revert last done
  generalize scanSeeds p p.plan.seedChunks {} = x
  obtain ⟨st, outcome⟩ := x
  intro last done
  obtain rfl : outcome = .ok := done
  have found : ∀ topic ∈ p.plan.seedTopics, st.last topic = (seedOf p topic).map Sourced.seed := by
    intro topic want
    refine (last topic).trans ?_
    rw [keptSource, if_pos want]
    rfl
  -- the topics for which nothing was found contribute nothing
  have topics : (R.range (p.plan.seedTopics.filter fun topic => (st.last topic).isSome)).Perm
      ((R.range p.plan.seedTopics).filter fun topic => (st.last topic).isSome) := by
    apply (List.perm_ext_iff_of_nodup (R.range_nodup _) ((R.range_nodup _).filter _)).mpr
    intro topic
    simp
  have all : ((R.range p.plan.seedTopics).filter fun topic => (st.last topic).isSome).filterMap st.last =
      ((R.range p.plan.seedTopics).filterMap (seedOf p)).map Sourced.seed := by
    rw [List.filterMap_filter, List.map_filterMap]
    apply List.filterMap_congr
    intro topic mem
    rw [← found topic (Runtime.mem_range.mp mem)]
    cases st.last topic <;> rfl
  obtain ⟨seeds, perm, same⟩ := exists_perm_map
    (all ▸ (R.slice_perm (fun e : RawMessage × Nat => e.1.logTimeNs) _).trans
      (topics.filterMap st.last))
  exact ⟨st.fetchedBytes, seeds, by rw [same], perm⟩

lemma seedPhase_failed {R : Runtime}
    (unread : ¬ (sources p (seedWindow p) p.plan.seedChunks).2 = true) :
    ∃ (n : Nat) (outcome : Outcome), outcome ≠ .ok ∧ seedPhase p R = ({ fetchedBytes := n }, outcome) := by
  obtain ⟨-, ends⟩ := @scanSeeds_sources p p.plan.seedChunks {} (fun _ => none) fun _ => rfl
  have failed := (not_congr ends).mpr unread
  unfold seedPhase
  revert failed
  generalize scanSeeds p p.plan.seedChunks {} = x
  obtain ⟨st, outcome⟩ := x
  intro failed
  refine ⟨st.fetchedBytes, outcome, failed, ?_⟩
  cases outcome with
  | ok => exact absurd rfl failed
  | error e => rfl
  | panicked => rfl

/-- The messages that a run emits are those that are streamed. -/
theorem emitted_perm {R : Runtime} :
    (run p R).1.emitted.Perm ((streamed p R).map Sourced.raw) := by
  unfold run streamed
  split
  · rw [runChunks_emitted, map_raw_kept]
    exact List.Perm.refl _
  · by_cases read : (sources p (seedWindow p) p.plan.seedChunks).2 = true
    · obtain ⟨n, seeds, phase, perm⟩ := seedPhase_seeds (R := R) read
      rw [if_pos read, phase]
      dsimp only
      rw [runChunks_emitted, emitSeeds_adds.emitted, map_raw_kept, List.map_append, List.filter_append,
        List.nil_append, List.map_map]
      exact ((perm.map Sourced.raw).filter _).append_right _
    · -- a seed chunk that cannot be read ends the run before anything is emitted
      obtain ⟨n, outcome, failed, phase⟩ := seedPhase_failed (R := R) read
      rw [if_neg read, phase]
      cases outcome with
      | ok => exact absurd rfl failed
      | error | panicked => exact List.Perm.refl _

lemma mem_sources {src : Sourced} (mem : src ∈ (sources p tr chunks).1) :
    ∃ ref ∈ chunks, src ∈ (chunkSources p tr ref).1 := by
  induction chunks with
  | nil => cases mem
  | cons ref rest ih =>
    simp only [sources] at mem
    split at mem
    · obtain mem | mem := List.mem_append.mp mem
      · exact ⟨ref, List.mem_cons_self, mem⟩
      · obtain ⟨ref', inside, mem⟩ := ih mem
        exact ⟨ref', List.mem_cons_of_mem _ inside, mem⟩
    · exact ⟨ref, List.mem_cons_self, mem⟩

lemma mem_chunkSources {src : Sourced} (mem : src ∈ (chunkSources p tr ref).1) :
    ∃ idx m, idxByFile p.indexes src.fileID = some idx ∧ src.channelID = m.channelID ∧
      resolve idx.channels m = some src.raw := by
  unfold chunkSources at mem
  split at mem
  · rename_i idx _ index
    obtain ⟨m, -, made⟩ := List.mem_filterMap.mp mem
    obtain ⟨raw, wanted, rfl⟩ := Option.map_eq_some_iff.mp made
    exact ⟨idx, m, index, rfl, (Option.filter_eq_some_iff.mp wanted).1⟩
  · cases mem

lemma mem_streamed {R : Runtime} {src : Sourced} (mem : src ∈ streamed p R) :
    kept p src.raw = true ∧ ∃ tr ref, src ∈ (chunkSources p tr ref).1 := by
  have window : src ∈ (sources p p.opts.timeRange p.plan.chunks).1 →
      ∃ tr ref, src ∈ (chunkSources p tr ref).1 := by
    intro mem
    obtain ⟨ref, -, mem⟩ := mem_sources mem
    exact ⟨_, ref, mem⟩
  unfold streamed at mem
  split at mem
  · obtain ⟨mem, keep⟩ := List.mem_filter.mp mem
    exact ⟨keep, window mem⟩
  · split at mem
    · obtain ⟨mem, keep⟩ := List.mem_filter.mp mem
      refine ⟨keep, ?_⟩
      obtain mem | mem := List.mem_append.mp mem
      · obtain ⟨topic, -, seed⟩ := List.mem_filterMap.mp mem
        obtain ⟨mem, -⟩ := List.mem_filter.mp (List.argmax_mem (Option.mem_def.mpr seed))
        obtain ⟨ref, -, mem⟩ := mem_sources mem
        exact ⟨_, ref, mem⟩
      · exact window mem
    · cases mem

end Sources

end PjCloud.Planning
