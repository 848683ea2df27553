import PjCloud.Planning.Seed
import PjCloud.Planning.SeedPhase
import PjCloud.Planning.Window

/-!
# Latched replay

What `OpenFresh.include_latched` promises: a requested topic without a message in the window but with one
before it is replayed once, with a newest message from before the window, ahead of the window stream.
`Selection.Replays` is that law for one run.

The planner works with chunks. It takes a topic for present in the window when a chunk that reaches the
window lists it, it looks for the last value in one chunk, the one that starts last, and it puts topics
together whose chunks agree in a 64-bit key. `Selection.Replayable` says for which selections this comes
to the same (`latched_iff`).
-/

namespace PjCloud.Planning
open Lib Format
variable {L : Library} {R : Runtime} {sel : Selection L} {r : Recording L} {topics : List String}
  {w : TimeWindow} {t : String} {env : Setting}

def latchedArgs (topics : List String) (w : TimeWindow) : PlanArgs := ⟨topics, some w, true⟩

def Selection.chunks (sel : Selection L) : List (ChunkRef × List RawMessage) :=
  sel.byStart.flatMap fun r => r.info.chunkIndexes.map fun ci => (r.ref ci, r.messagesIn ci)

/-- A requested topic that is missing in the window but has a message before it. -/
structure Selection.Latches (sel : Selection L) (topics : List String) (w : TimeWindow) (t : String) :
    Prop where
  requested : topics = [] ∨ t ∈ topics
  missing : ∀ m ∈ sel.walk, m.topic = t → ¬ (w.startNs ≤ m.logTimeNs ∧ m.logTimeNs < w.endNs)
  before : ∃ m ∈ sel.walk, m.topic = t ∧ m.logTimeNs < w.startNs

/-- A message of the topic with the greatest log time below the start of the window. -/
structure Selection.Newest (sel : Selection L) (w : TimeWindow) (t : String) (m : RawMessage) : Prop where
  mem : m ∈ sel.walk
  topic : m.topic = t
  before : m.logTimeNs < w.startNs
  greatest : ∀ m' ∈ sel.walk, m'.topic = t → m'.logTimeNs < w.startNs → m'.logTimeNs ≤ m.logTimeNs

/-- The law of latched replay: the stream is some seeds and then the window, every topic that latches
    has exactly one seed, a newest one, and no topic with a message in the window has a seed. -/
def Selection.Replays (R : Runtime) (sel : Selection L) (topics : List String) (w : TimeWindow)
    (env : Setting) : Prop :=
  ∃ plan out seeds, buildPlan R sel.files (sel.indexes R) (latchedArgs topics w) = .ok plan ∧
    let p := sel.producer R (sel.indexes R) plan (latchedArgs topics w) env
    run p R = (out, .ok) ∧
    (out.appended.flatMap Flushed.msgs).map some = out.emitted.map (frame p) ∧
    out.emitted = seeds ++ (sel.walk.filter (latchedArgs topics w).asks).filter (fits p.opts) ∧
    (∀ t, sel.Latches topics w t → ∃ m, sel.Newest w t m ∧ seeds.filter (fun m => m.topic = t) = [m]) ∧
    ∀ seed ∈ seeds, ∀ m ∈ sel.walk, m.topic = seed.topic →
      ¬ (w.startNs ≤ m.logTimeNs ∧ m.logTimeNs < w.endNs)

/-- No chunk that reaches the window lists the topic. -/
def Selection.Absent (sel : Selection L) (w : TimeWindow) (t : String) : Prop :=
  ∀ c ∈ sel.chunks, t ∈ c.1.channelTopics → c.1.outside (some w) = true

/-- The chunk that starts last among those that start before the window and list the topic. -/
def Selection.latest (sel : Selection L) (w : TimeWindow) (t : String) :
    Option (ChunkRef × List RawMessage) :=
  (sel.chunks.filter fun c => c.1.startNs < w.startNs ∧ t ∈ c.1.channelTopics).argmax
    fun c => c.1.startNs

def shown (w : TimeWindow) (t : String) (c : ChunkRef × List RawMessage) : Option RawMessage :=
  (c.2.filter fun m => m.topic = t ∧ m.logTimeNs < w.startNs).argmax RawMessage.logTimeNs

/-- A requested topic that no chunk of the window lists, but one before it does. -/
structure Selection.Seedable (sel : Selection L) (topics : List String) (w : TimeWindow) (t : String) :
    Prop where
  requested : topics = [] ∨ t ∈ topics
  absent : sel.Absent w t
  listed : (sel.latest w t).isSome

/-- The condition: no chunk that reaches the window lists a topic that latches, and the chunk that
    starts last before the window, or one that has the same key and was chosen for another topic, shows
    a newest message of the topic that fits. -/
def Selection.Replayable (sel : Selection L) (topics : List String) (w : TimeWindow)
    (opts : ProducerOpts) : Prop :=
  ∀ t, sel.Latches topics w t → sel.Absent w t ∧
    ∀ t' c c', sel.latest w t = some c → sel.Seedable topics w t' → sel.latest w t' = some c' →
      bucketKey c'.1 = bucketKey c.1 →
      ∃ m, shown w t c' = some m ∧ sel.Newest w t m ∧ fits opts m

section Chunks

lemma Selection.mem_chunks {c : ChunkRef × List RawMessage} : c ∈ sel.chunks ↔
    ∃ r ∈ sel.recordings, ∃ ci ∈ r.info.chunkIndexes, c = (r.ref ci, r.messagesIn ci) := by
  simp only [Selection.chunks, List.mem_flatMap, List.mem_map, Selection.mem_byStart, eq_comm]

lemma Selection.mem_walk {m : RawMessage} : m ∈ sel.walk ↔ ∃ c ∈ sel.chunks, m ∈ c.2 := by
  simp only [Selection.walk, Selection.mem_chunks, List.mem_flatMap, Selection.mem_byStart,
    Recording.mem_messages]
  constructor
  · rintro ⟨r, file, ci, chunk, mem⟩
    exact ⟨_, ⟨r, file, ci, chunk, rfl⟩, mem⟩
  · rintro ⟨_, ⟨r, file, ci, chunk, rfl⟩, mem⟩
    exact ⟨r, file, ci, chunk, mem⟩

lemma Selection.chunk_facts {c : ChunkRef × List RawMessage} {m : RawMessage} (chunk : c ∈ sel.chunks)
    (mem : m ∈ c.2) : m.topic ∈ c.1.channelTopics ∧ c.1.startNs ≤ m.logTimeNs ∧
      m.logTimeNs ≤ c.1.endNs ∧ 0 ≤ m.logTimeNs := by
  obtain ⟨r, -, ci, entry, rfl⟩ := Selection.mem_chunks.mp chunk
  obtain ⟨lower, upper⟩ := r.ref_encloses entry mem
  exact ⟨r.ref_carries entry mem, lower, upper, r.logTime_nonneg entry mem⟩

lemma Selection.Absent.missing (absent : sel.Absent w t) {m : RawMessage} (mem : m ∈ sel.walk)
    (topic : m.topic = t) : ¬ (w.startNs ≤ m.logTimeNs ∧ m.logTimeNs < w.endNs) := by
  rintro ⟨lower, upper⟩
  obtain ⟨c, chunk, mem⟩ := Selection.mem_walk.mp mem
  obtain ⟨listed, first, last, -⟩ := Selection.chunk_facts chunk mem
  have inside : TimeWindow.admits (some w) m.logTimeNs = true := by
    simp [TimeWindow.admits, lower, upper]
  have reaches := ChunkRef.reaches first last inside
  rw [absent c chunk (topic ▸ listed)] at reaches
  cases reaches

lemma Selection.Latches.listed (latches : sel.Latches topics w t) : (sel.latest w t).isSome := by
  obtain ⟨m, mem, rfl, before⟩ := latches.before
  obtain ⟨c, chunk, mem⟩ := Selection.mem_walk.mp mem
  obtain ⟨listed, first, -⟩ := Selection.chunk_facts chunk mem
  rw [Option.isSome_iff_ne_none, Selection.latest, ne_eq, List.argmax_eq_none]
  apply List.ne_nil_of_mem (a := c)
  exact List.mem_filter.mpr ⟨chunk, by simp [listed, first.trans_lt before]⟩

lemma Selection.allChunks_bare :
    (allChunks (sel.indexes R) (sel.byStart.map Recording.record)).map ChunkRef.bare =
      sel.chunks.map Prod.fst := by
  rw [allChunks, Selection.chunks, List.flatMap_map, List.map_flatMap, List.map_flatMap]
  apply List.flatMap_congr
  intro r mem
  rw [sel.indexes_eq, sel.idxByFile_loadWith (sel.mem_byStart.mp mem), List.map_map]
  exact Recording.index_bare

lemma Selection.bestByTopic_latest {seed : Finset String} (want : t ∈ seed) :
    (bestByTopic (allChunks (sel.indexes R) (sel.byStart.map Recording.record)) w.startNs seed t).map
      ChunkRef.bare = (sel.latest w t).map Prod.fst := by
  have keep : ∀ l : List ChunkRef,
      (l.filter fun c => c.startNs < w.startNs ∧ t ∈ c.channelTopics).map ChunkRef.bare =
        (l.map ChunkRef.bare).filter fun c => c.startNs < w.startNs ∧ t ∈ c.channelTopics := by
    intro l
    rw [List.filter_map]
    rfl
  rw [bestByTopic_eq want, Selection.latest, ← argmax_map (f := Prod.fst) (k := ChunkRef.startNs)]
  have swap := argmax_map (f := ChunkRef.bare) (k := ChunkRef.startNs)
    (l := (allChunks (sel.indexes R) (sel.byStart.map Recording.record)).filter fun c =>
      c.startNs < w.startNs ∧ t ∈ c.channelTopics)
  rw [keep, Selection.allChunks_bare, List.filter_map] at swap
  exact swap.symm

end Chunks

section Plan

def Selection.basePlan (R : Runtime) (sel : Selection L) (topics : List String) (w : TimeWindow) : Plan :=
  orderedPlan (sel.byStart.map Recording.record) (sel.indexes R) (latchedArgs topics w)

def Selection.pool (R : Runtime) (sel : Selection L) : List ChunkRef :=
  allChunks (sel.indexes R) (sel.byStart.map Recording.record)

def Selection.seedTopics (R : Runtime) (sel : Selection L) (topics : List String) (w : TimeWindow) :
    Finset String :=
  missingTopics (sel.basePlan R topics w) (sel.pool R) topics

def Selection.entries (R : Runtime) (sel : Selection L) (topics : List String) (w : TimeWindow) :
    List (String × ChunkRef) :=
  seedEntries R (sel.pool R) w.startNs (sel.seedTopics R topics w)

lemma Selection.mem_windowTopics (requested : topics = [] ∨ t ∈ topics) :
    t ∈ chunkTopics (sel.basePlan R topics w).chunks ↔
      ∃ c ∈ sel.chunks, t ∈ c.1.channelTopics ∧ c.1.outside (some w) = false := by
  have bare : ∀ l : List ChunkRef, t ∈ chunkTopics l ↔ t ∈ chunkTopics (l.map ChunkRef.bare) := by
    intro l
    simp [ChunkRef.bare]
  have chunks : (sel.basePlan R topics w).chunks.map ChunkRef.bare =
      (sel.chunks.map Prod.fst).filterMap (ChunkRef.narrow topics (some w)) := by
    rw [Selection.chunks, List.map_flatMap, List.filterMap_flatMap]
    have steps : (sel.steps (fun _ => false) (latchedArgs topics w)).map Prod.fst =
        (sel.basePlan R topics w).chunks.map ChunkRef.bare := sel.steps_fst
    rw [← steps, Selection.steps, List.map_flatMap]
    apply List.flatMap_congr
    intro r _
    rw [if_neg (by simp), r.steps_fst (R := R), planChunks_bare, Recording.index_bare, List.map_map]
    rfl
  rw [bare, chunks, mem_chunkTopics]
  constructor
  · rintro ⟨c, mem, listed⟩
    obtain ⟨ref, mem, narrowed⟩ := List.mem_filterMap.mp mem
    obtain ⟨c, chunk, rfl⟩ := List.mem_map.mp mem
    unfold ChunkRef.narrow at narrowed
    split at narrowed
    · cases narrowed
    · rename_i planned
      cases narrowed
      refine ⟨c, chunk, (Finset.mem_filter.mp listed).1, ?_⟩
      simpa using (not_or.mp planned).1
  · rintro ⟨c, chunk, listed, reaches⟩
    have selected : t ∈ c.1.selected topics := Finset.mem_filter.mpr ⟨listed, requested⟩
    refine ⟨{ c.1 with channelTopics := c.1.selected topics }, ?_, selected⟩
    refine List.mem_filterMap.mpr ⟨c.1, List.mem_map_of_mem chunk, ?_⟩
    rw [ChunkRef.narrow, if_neg]
    rintro (out | empty)
    · rw [reaches] at out
      cases out
    · rw [empty] at selected
      exact Finset.notMem_empty _ selected

lemma Selection.mem_seedTopics : t ∈ sel.seedTopics R topics w →
    (topics = [] ∨ t ∈ topics) ∧ sel.Absent w t := by
  intro mem
  obtain ⟨requested, missing⟩ := Finset.mem_sdiff.mp mem
  have asked : topics = [] ∨ t ∈ topics := by
    split at requested
    · exact Or.inr (List.mem_toFinset.mp requested)
    · rename_i none
      exact Or.inl (not_not.mp none)
  refine ⟨asked, ?_⟩
  intro c chunk listed
  by_contra reaches
  apply missing
  rw [Selection.mem_windowTopics asked]
  exact ⟨c, chunk, listed, by simpa using reaches⟩

lemma Selection.Seedable.mem_seedTopics (seedable : sel.Seedable topics w t) :
    t ∈ sel.seedTopics R topics w := by
  apply Finset.mem_sdiff.mpr
  constructor
  · split
    · rename_i some
      exact List.mem_toFinset.mpr (seedable.requested.resolve_left some)
    · obtain ⟨c, latest⟩ := Option.isSome_iff_exists.mp seedable.listed
      have mem := List.argmax_mem (Option.mem_def.mpr latest)
      obtain ⟨chunk, facts⟩ := List.mem_filter.mp mem
      have listed : t ∈ c.1.channelTopics := (of_decide_eq_true facts).2
      have pooled : c.1 ∈ (sel.pool R).map ChunkRef.bare := by
        rw [Selection.pool, Selection.allChunks_bare]
        exact List.mem_map_of_mem chunk
      obtain ⟨ref, mem, bare⟩ := List.mem_map.mp pooled
      exact mem_chunkTopics.mpr ⟨ref, mem, by rw [← bare] at listed; exact listed⟩
  · rw [Selection.mem_windowTopics seedable.requested]
    rintro ⟨c, chunk, listed, reaches⟩
    rw [seedable.absent c chunk listed] at reaches
    cases reaches

lemma Selection.mem_entries {ref : ChunkRef} (mem : (t, ref) ∈ sel.entries R topics w) :
    sel.Seedable topics w t ∧ ∃ c, sel.latest w t = some c ∧ ref.bare = c.1 := by
  obtain ⟨want, best⟩ := mem_seedEntries.mp mem
  have latest := sel.bestByTopic_latest (R := R) (w := w) want
  rw [Selection.pool] at best
  rw [best, Option.map_some] at latest
  obtain ⟨c, latest, bare⟩ := Option.map_eq_some_iff.mp latest.symm
  obtain ⟨requested, absent⟩ := Selection.mem_seedTopics want
  exact ⟨⟨requested, absent, by rw [latest]; rfl⟩, c, latest, bare.symm⟩

lemma Selection.Seedable.best (seedable : sel.Seedable topics w t) {c : ChunkRef × List RawMessage}
    (latest : sel.latest w t = some c) : ∃ ref, bestByTopic (sel.pool R) w.startNs
      (sel.seedTopics R topics w) t = some ref ∧ ref.bare = c.1 := by
  have found := sel.bestByTopic_latest (R := R) (w := w) (seedable.mem_seedTopics (R := R))
  rw [latest, Option.map_some] at found
  exact Option.map_eq_some_iff.mp found

end Plan

section Steps
variable {p : Producer} {plan : Plan}

/-- A seed chunk with its messages: the latest chunk of the first entry that has its key. -/
structure SeedStep (R : Runtime) (sel : Selection L) (topics : List String) (w : TimeWindow)
    (p : Producer) (ref : ChunkRef) (ms : List RawMessage) : Prop where
  streams : Streams p (seedWindow p) ref ms
  source : ∃ e c, (sel.entries R topics w).find? (fun x => bucketKey x.2 = bucketKey e.2) = some e ∧
    ref = { e.2 with channelTopics := sharing (sel.entries R topics w) (bucketKey e.2) } ∧
    sel.latest w e.1 = some c ∧ ms = c.2.filter (ChunkRef.wants ref (seedWindow p))

variable (plan env) in
lemma Selection.seedStep {ref : ChunkRef} (mem : ref ∈ coalesce (sel.entries R topics w)) :
    ∃ ms, SeedStep R sel topics w
      (sel.producer R (sel.indexes R) plan (latchedArgs topics w) env) ref ms := by
  obtain ⟨⟨topic, chunk⟩, entry, first, made⟩ := mem_coalesce mem
  obtain ⟨-, c, latest, bare⟩ := Selection.mem_entries entry
  have chosen := (List.mem_filter.mp (List.argmax_mem (Option.mem_def.mpr latest))).1
  obtain ⟨r, file, ci, inside, rfl⟩ := Selection.mem_chunks.mp chosen
  have index : idxByFile (sel.indexes R) r.record.id = some (r.index R) := by
    rw [sel.indexes_eq, sel.idxByFile_loadWith file]
    rfl
  replace bare : chunk.bare = r.ref ci := bare
  subst made
  have fileID : chunk.fileID = r.record.id := by
    rw [← Recording.ref_fileID, ← bare, ChunkRef.bare_fileID]
  have offset : chunk.offset = (r.ref ci).offset := by rw [← bare, ChunkRef.bare_offset]
  have length : chunk.length = (r.ref ci).length := by rw [← bare, ChunkRef.bare_length]
  refine ⟨_, ?_, (topic, chunk), _, first, rfl, latest, rfl⟩
  exact r.streams rfl file rfl index inside fileID offset length

variable {steps : List (ChunkRef × List RawMessage)} {ref : ChunkRef}

lemma SeedStep.entry {ms : List RawMessage} {m : RawMessage} (step : SeedStep R sel topics w p ref ms)
    (mem : m ∈ ms) : ∃ e c, (m.topic, c) ∈ sel.entries R topics w ∧ bucketKey c = bucketKey e.2 ∧
      (sel.entries R topics w).find? (fun x => bucketKey x.2 = bucketKey e.2) = some e ∧
      ref = { e.2 with channelTopics := sharing (sel.entries R topics w) (bucketKey e.2) } := by
  obtain ⟨e, c, first, made, -, rfl⟩ := step.source
  have wanted := (List.mem_filter.mp mem).2
  have shared : m.topic ∈ sharing (sel.entries R topics w) (bucketKey e.2) := by
    rw [made] at wanted
    simpa [ChunkRef.wants] using (Bool.and_eq_true_iff.mp wanted).1
  obtain ⟨chunk, entry, key⟩ := mem_sharing.mp shared
  exact ⟨e, chunk, entry, key, first, made⟩

lemma seedSteps_filter (distinct : (steps.map Prod.fst).Nodup)
    (all : ∀ step ∈ steps, SeedStep R sel topics w p step.1 step.2)
    (covers : ∀ ref ∈ coalesce (sel.entries R topics w), ref ∈ steps.map Prod.fst)
    (before : p.plan.seedBeforeNs = w.startNs) {chunk : ChunkRef}
    (entry : (t, chunk) ∈ sel.entries R topics w) :
    ∃ e c, (sel.entries R topics w).find? (fun x => bucketKey x.2 = bucketKey chunk) = some e ∧
      sel.latest w e.1 = some c ∧ (steps.flatMap Prod.snd).filter (fun m => m.topic = t) =
        c.2.filter fun m => m.topic = t ∧ m.logTimeNs < w.startNs := by
  obtain ⟨e, first, made⟩ := coalesce_of_mem entry
  obtain ⟨step, mem, ref⟩ := List.mem_map.mp (covers _ made)
  obtain ⟨e', c, first', made', latest, ms⟩ := (all step mem).source
  have key : bucketKey e.2 = bucketKey chunk := by simpa using List.find?_some first
  have key' : bucketKey e'.2 = bucketKey chunk := by
    have same := congrArg bucketKey (made'.symm.trans ref)
    exact same.trans key
  rw [key', first] at first'
  obtain rfl := Option.some.inj first'
  refine ⟨e, c, first, latest, ?_⟩
  rw [List.filter_flatMap, flatMap_of_unique (List.Nodup.of_map _ distinct) mem, ms, List.filter_filter]
  · -- inside the chunk, the seed window is everything before the start
    have chosen := (List.mem_filter.mp (List.argmax_mem (Option.mem_def.mpr latest))).1
    have shared : t ∈ step.1.channelTopics := by
      rw [ref]
      exact mem_sharing.mpr ⟨chunk, entry, rfl⟩
    apply List.filter_congr
    intro m inside
    have nonneg := (Selection.chunk_facts chosen inside).2.2.2
    by_cases topic : m.topic = t
    · simp [topic, ChunkRef.wants, shared, admits_seedWindow nonneg, before]
    · simp [topic]
  · intro other member different
    apply List.filter_eq_nil_iff.mpr
    intro m inside topic
    have topic : m.topic = t := of_decide_eq_true topic
    obtain ⟨e', c', entry', shares, first', made'⟩ := (all other member).entry inside
    rw [topic] at entry'
    -- a topic has one entry, so that the other step would have the same key
    have same : c' = chunk :=
      congrArg Prod.snd (List.inj_on_of_nodup_map seedEntries_nodup entry' entry rfl)
    rw [← shares, same] at first' made'
    obtain rfl : e = e' := Option.some.inj (first.symm.trans first')
    exact different (List.inj_on_of_nodup_map distinct member mem (made'.trans ref.symm))

lemma seedSteps_silent (all : ∀ step ∈ steps, SeedStep R sel topics w p step.1 step.2)
    (unseedable : ¬ sel.Seedable topics w t) :
    (steps.flatMap Prod.snd).filter (fun m => m.topic = t) = [] := by
  apply List.filter_eq_nil_iff.mpr
  intro m mem topic
  obtain ⟨step, member, inside⟩ := List.mem_flatMap.mp mem
  obtain ⟨_, c, entry, -⟩ := (all step member).entry inside
  rw [of_decide_eq_true topic] at entry
  exact unseedable (Selection.mem_entries entry).1

lemma Selection.frame_of_kept {m : RawMessage}
    (all : ∀ step ∈ steps, SeedStep R sel topics w
      (sel.producer R (sel.indexes R) plan (latchedArgs topics w) env) step.1 step.2)
    (kept : keptAfter (sel.producer R (sel.indexes R) plan (latchedArgs topics w) env) none t
      (steps.flatMap Prod.snd) = some m) :
    (frame (sel.producer R (sel.indexes R) plan (latchedArgs topics w) env) m).isSome := by
  obtain ⟨rfl, want⟩ := topic_of_keptAfter kept
  rw [keptAfter_none, if_pos want] at kept
  have found := (List.mem_filter.mp (List.argmax_mem (Option.mem_def.mpr kept))).1
  obtain ⟨step, member, inside⟩ := List.mem_flatMap.mp found
  obtain ⟨e, c, -, -, latest, ms⟩ := (all step member).source
  rw [ms] at inside
  have chosen := (List.mem_filter.mp (List.argmax_mem (Option.mem_def.mpr latest))).1
  obtain ⟨r, file, ci, -, rfl⟩ := Selection.mem_chunks.mp chosen
  exact sel.frame_of_survives (fun _ => false) file rfl (List.mem_filter.mp inside).1
    (Finset.mem_union_right _ want)

end Steps

section Run

/-- The plan with its seed. -/
def Selection.seededPlan (R : Runtime) (sel : Selection L) (topics : List String) (w : TimeWindow) :
    Plan :=
  buildLatchedSeed R (sel.basePlan R topics w) (sel.byStart.map Recording.record) (sel.indexes R) topics
    w.startNs

def Selection.seededProducer (R : Runtime) (sel : Selection L) (topics : List String) (w : TimeWindow)
    (env : Setting) : Producer :=
  sel.producer R (sel.indexes R) (sel.seededPlan R topics w) (latchedArgs topics w) env

/-- What is seeded of each topic: nothing if it cannot be, and else what the latest chunk shows of the
    first entry with the same key. -/
structure Selection.Seeds (R : Runtime) (sel : Selection L) (topics : List String) (w : TimeWindow)
    (seeds : List RawMessage) : Prop where
  silent : ∀ t, ¬ sel.Seedable topics w t → seeds.filter (fun m => m.topic = t) = []
  entry : ∀ t chunk, (t, chunk) ∈ sel.entries R topics w → ∃ e c,
    (sel.entries R topics w).find? (fun x => bucketKey x.2 = bucketKey chunk) = some e ∧
      sel.latest w e.1 = some c ∧ seeds.filter (fun m => m.topic = t) = (shown w t c).toList

variable (env) in
lemma Selection.seedPhase_seeds (some : (sel.seededPlan R topics w).seedChunks ≠ []) :
    let p := sel.seededProducer R topics w env
    ∃ s seeds, seedPhase p R = (s, .ok) ∧ s.bb.msgs = [] ∧ sel.Seeds R topics w seeds ∧
      Adds p {} s (seeds.filter (fits p.opts)) (seeds.countP (oversized p)) := by
  intro p
  have perm : (sel.seededPlan R topics w).seedChunks.Perm (coalesce (sel.entries R topics w)) :=
    buildLatchedSeed_seedChunks rfl
  have before : p.plan.seedBeforeNs = w.startNs := buildLatchedSeed_before rfl some
  have topicsEq : p.plan.seedTopics = sel.seedTopics R topics w := buildLatchedSeed_seedTopics rfl
  obtain ⟨steps, refs, all⟩ := exists_pairs fun ref mem =>
    sel.seedStep env (sel.seededPlan R topics w) (perm.mem_iff.mp mem)
  have distinct : (steps.map Prod.fst).Nodup := refs ▸ perm.symm.nodup coalesce_nodup
  have covers : ∀ ref ∈ coalesce (sel.entries R topics w), ref ∈ steps.map Prod.fst :=
    fun ref mem => refs ▸ perm.mem_iff.mpr mem
  obtain ⟨s, seeds, done, closed, adds, found⟩ := seedPhase_adds (p := p) (R := R) refs.symm
    fun step mem => (all step mem).streams
  refine ⟨s, seeds, done, closed, ⟨?_, ?_⟩, ?_⟩
  · intro t unseedable
    rw [found, keptAfter_none, seedSteps_silent all unseedable]
    split <;> rfl
  · intro t chunk entry
    obtain ⟨e, c, first, latest, messages⟩ := seedSteps_filter distinct all covers before entry
    refine ⟨e, c, first, latest, ?_⟩
    have want : t ∈ p.plan.seedTopics := topicsEq ▸ (mem_seedEntries.mp entry).1
    rw [found, keptAfter_none, if_pos want, messages]
    rfl
  · -- every message found has a binding, so that only its size matters
    have keep : seeds.filter (kept p) = seeds.filter (fits p.opts) := by
      apply List.filter_congr
      intro m mem
      have own : m ∈ seeds.filter fun x => x.topic = m.topic := List.mem_filter.mpr ⟨mem, by simp⟩
      rw [found, Option.mem_toList] at own
      have framed : (frame p m).isSome = true := sel.frame_of_kept all own
      have big : oversized p m = !fits p.opts m := oversized_eq
      rw [kept, framed, big, Bool.not_not, Bool.and_true]
    rwa [keep] at adds

variable (R sel topics w env) in
lemma Selection.run_seeds :
    let p := sel.seededProducer R topics w env
    ∃ out seeds, run p R = (out, .ok) ∧
      (out.appended.flatMap Flushed.msgs).map some = out.emitted.map (frame p) ∧
      sel.Seeds R topics w seeds ∧ out.emitted = seeds.filter (fits p.opts) ++
        (sel.walk.filter (latchedArgs topics w).asks).filter (fits p.opts) := by
  intro p
  have chunks : (sel.seededPlan R topics w).chunks = windowChunks (sel.loadWith R fun _ => false)
      (sel.byStart.map Recording.record) (latchedArgs topics w) := buildLatchedSeed_chunks
  have window : ∀ {s : RunState}, s.bb.msgs = [] → _ := fun {s} closed =>
    runWindow_adds env (fun _ => false) (s := s) closed (by intro _ _ h; cases h) chunks
  by_cases none : (sel.seededPlan R topics w).seedChunks = []
  · -- without a seed chunk there is no entry
    obtain ⟨out, done, closed, adds⟩ := window (s := {}) rfl
    refine ⟨out, [], (if_pos none).trans done, adds.framed closed, ⟨fun _ _ => rfl, ?_⟩, adds.emitted⟩
    intro t chunk entry
    obtain ⟨_, _, made⟩ := coalesce_of_mem entry
    have perm : (sel.seededPlan R topics w).seedChunks.Perm (coalesce (sel.entries R topics w)) :=
      buildLatchedSeed_seedChunks rfl
    rw [none] at perm
    exact absurd (perm.mem_iff.mpr made) List.not_mem_nil
  · obtain ⟨s, seeds, phase, closed, found, first⟩ := sel.seedPhase_seeds env none
    obtain ⟨out, done, closed', second⟩ := window closed
    have adds := first.trans second
    exact ⟨out, seeds, (run_seeded none phase).trans done, adds.framed closed', found, adds.emitted⟩

lemma Selection.Seeds.seedable {seeds : List RawMessage} (found : sel.Seeds R topics w seeds)
    {seed : RawMessage} (mem : seed ∈ seeds) : sel.Seedable topics w seed.topic := by
  by_contra unseedable
  have own : seed ∈ seeds.filter fun m => m.topic = seed.topic := List.mem_filter.mpr ⟨mem, by simp⟩
  rw [found.silent _ unseedable] at own
  cases own

variable (R env) in
/-- The law for one choice of orders, in terms of the seeds of the run: that no topic with a message in
    the window has a seed holds in any case. -/
lemma Selection.replays_iff (nonempty : sel.recordings ≠ []) (upright : w.startNs ≤ w.endNs) :
    ∃ seeds, sel.Seeds R topics w seeds ∧ (sel.Replays R topics w env ↔
      ∀ t, sel.Latches topics w t → ∃ m, sel.Newest w t m ∧
        (seeds.filter (fits (sel.seededProducer R topics w env).opts)).filter (fun m => m.topic = t) =
          [m]) := by
  have planned : buildPlan R sel.files (sel.indexes R) (latchedArgs topics w) =
      .ok (sel.seededPlan R topics w) := by
    rw [buildPlan_files nonempty (by rintro _ ⟨⟩; exact upright)]
    rfl
  obtain ⟨out, seeds, done, framed, found, emitted⟩ :=
    sel.run_seeds R topics w env
  refine ⟨seeds, found, ?_, ?_⟩
  · rintro ⟨plan, out', seeds', ok, done', -, emitted', law, -⟩
    obtain rfl := Except.ok.inj (ok.symm.trans planned)
    obtain rfl : out' = out := congrArg Prod.fst (done'.symm.trans done)
    have same : seeds' = seeds.filter (fits (sel.seededProducer R topics w env).opts) :=
      List.append_cancel_right (emitted'.symm.trans emitted)
    exact same ▸ law
  · intro law
    refine ⟨_, out, _, planned, done, framed, emitted, law, ?_⟩
    intro seed mem m inside topic
    exact (found.seedable (List.mem_filter.mp mem).1).absent.missing inside topic

lemma bucketKey_bare {c : ChunkRef} : bucketKey c.bare = bucketKey c := rfl

lemma Selection.Latches.seedable (latches : sel.Latches topics w t) (absent : sel.Absent w t) :
    sel.Seedable topics w t :=
  ⟨latches.requested, absent, latches.listed⟩

lemma filter_shown {seeds : List RawMessage} {c : ChunkRef × List RawMessage} {opts : ProducerOpts}
    {m : RawMessage} (found : seeds.filter (fun m => m.topic = t) = (shown w t c).toList) :
    (seeds.filter (fits opts)).filter (fun m => m.topic = t) = [m] ↔
      shown w t c = some m ∧ fits opts m = true := by
  rw [List.filter_comm, found]
  cases shown w t c with
  | none => simp
  | some m' =>
    by_cases size : fits opts m' = true
    · simp only [Option.toList_some, List.filter_cons_of_pos size, List.filter_nil, Option.some.injEq]
      constructor
      · rintro ⟨⟩
        exact ⟨rfl, size⟩
      · rintro ⟨rfl, -⟩
        rfl
    · simp only [Option.toList_some, List.filter_cons_of_neg size, List.filter_nil, Option.some.injEq]
      constructor
      · rintro ⟨⟩
      · rintro ⟨rfl, fit⟩
        exact absurd fit size

lemma Selection.replayable_of_replays (nonempty : sel.recordings ≠ []) (upright : w.startNs ≤ w.endNs)
    (law : ∀ R, sel.Replays R topics w env) :
    sel.Replayable topics w (producerOpts env.cfg.withSessionDefaults (some w)) := by
  intro t latches
  have absent : sel.Absent w t := by
    by_contra present
    obtain ⟨seeds, found, iff⟩ := sel.replays_iff Runtime.ordered env nonempty upright
    obtain ⟨m, -, only⟩ := iff.mp (law _) t latches
    rw [List.filter_comm, found.silent t fun seedable => present seedable.absent] at only
    cases only
  refine ⟨absent, ?_⟩
  intro t' c c' latest seedable' latest' key
  -- an order in which the other topic comes first makes its chunk the one that is read
  obtain ⟨seeds, found, iff⟩ :=
    sel.replays_iff (Runtime.ordered.first t') env nonempty upright
  obtain ⟨m, newest, only⟩ := iff.mp (law _) t latches
  obtain ⟨chunk, best, bare⟩ := (latches.seedable absent).best (R := Runtime.ordered.first t') latest
  have entry : (t, chunk) ∈ sel.entries (Runtime.ordered.first t') topics w :=
    mem_seedEntries.mpr ⟨(latches.seedable absent).mem_seedTopics, best⟩
  obtain ⟨e, c₀, first, latest₀, shows⟩ := found.entry t chunk entry
  obtain ⟨chunk', best', bare'⟩ := seedable'.best (R := Runtime.ordered.first t') latest'
  obtain ⟨rest, order⟩ := seedEntries_first (R := Runtime.ordered) seedable'.mem_seedTopics best'
  have same : bucketKey chunk' = bucketKey chunk := by
    rw [← bucketKey_bare, bare', key, ← bare, bucketKey_bare]
  rw [Selection.entries, order, List.find?_cons_of_pos (by simpa using same)] at first
  obtain rfl := Option.some.inj first
  obtain rfl : c' = c₀ := Option.some.inj (latest'.symm.trans latest₀)
  obtain ⟨shown, size⟩ := (filter_shown shows).mp only
  exact ⟨m, shown, newest, size⟩

lemma Selection.replays_of_replayable (nonempty : sel.recordings ≠ []) (upright : w.startNs ≤ w.endNs)
    (replayable : sel.Replayable topics w (producerOpts env.cfg.withSessionDefaults (some w))) :
    sel.Replays R topics w env := by
  obtain ⟨seeds, found, iff⟩ := sel.replays_iff R env nonempty upright
  apply iff.mpr
  intro t latches
  obtain ⟨absent, shows⟩ := replayable t latches
  obtain ⟨c, latest⟩ := Option.isSome_iff_exists.mp latches.listed
  obtain ⟨chunk, best, bare⟩ := (latches.seedable absent).best (R := R) latest
  obtain ⟨e, c₀, first, latest₀, filtered⟩ :=
    found.entry t chunk (mem_seedEntries.mpr ⟨(latches.seedable absent).mem_seedTopics, best⟩)
  -- the entry that set the chunk is that of a topic which can be seeded
  obtain ⟨seedable, c₁, latest₁, bare₁⟩ := Selection.mem_entries (List.mem_of_find?_eq_some first)
  obtain rfl : c₀ = c₁ := Option.some.inj (latest₀.symm.trans latest₁)
  have same : bucketKey e.2 = bucketKey chunk := by simpa using List.find?_some first
  have key : bucketKey c₀.1 = bucketKey c.1 := by
    rw [← bare₁, ← bare, bucketKey_bare, bucketKey_bare, same]
  obtain ⟨m, shown, newest, size⟩ := shows e.1 c c₀ latest seedable latest₀ key
  exact ⟨m, newest, (filter_shown filtered).mpr ⟨shown, size⟩⟩

end Run

lemma Selection.Latches.nonempty (latches : sel.Latches topics w t) : sel.recordings ≠ [] := by
  intro empty
  obtain ⟨m, mem, -⟩ := latches.before
  rw [sel.walk_nil empty] at mem
  cases mem

lemma Selection.replays_nil (empty : sel.recordings = []) : sel.Replays R topics w env := by
  refine ⟨{}, {}, [], ?_, rfl, rfl, ?_, fun t latches => absurd empty latches.nonempty, by simp⟩
  · rw [Selection.files, empty]
    rfl
  · rw [sel.walk_nil empty]
    rfl

/-- The selections that are replayed by the law, whatever order the runtime picks, are the replayable
    ones. -/
theorem latched_iff (upright : w.startNs ≤ w.endNs) :
    (∀ R, sel.Replays R topics w env) ↔
      sel.Replayable topics w (producerOpts env.cfg.withSessionDefaults (some w)) := by
  by_cases empty : sel.recordings = []
  · exact ⟨fun _ t latches => absurd empty latches.nonempty, fun _ R => sel.replays_nil empty⟩
  · exact ⟨sel.replayable_of_replays empty upright,
      fun replayable R => sel.replays_of_replayable empty upright replayable⟩

/-- After both files the map latches to its last value. -/
theorem twoFiles_replayed : twoFiles.Replays Runtime.ordered ["/map"] ⟨30, 40⟩ plainSetting := by
  refine (latched_iff (by decide)).mpr ?_ Runtime.ordered
  intro t latches
  obtain rfl : t = "/map" := by simpa using latches.requested
  refine ⟨by unfold Selection.Absent; decide +kernel, ?_⟩
  intro t' c c' _ seedable' latest' _
  obtain rfl : t' = "/map" := by simpa using seedable'.requested
  have latest : (twoFiles.latest ⟨30, 40⟩ "/map").bind (shown ⟨30, 40⟩ "/map") =
      some ⟨"/map", "", "", "cdr", 16, 16, [4]⟩ := by decide +kernel
  rw [latest', Option.bind_some] at latest
  exact ⟨_, latest, ⟨by decide +kernel, rfl, by decide, by decide +kernel⟩, by decide +kernel⟩

/-- With the window inside the second file the map is not replayed: the chunk of that file reaches the
    window and lists the map, but its map comes after the window. -/
theorem straddling_chunk_hides_map :
    twoFiles.Latches ["/map"] ⟨11, 16⟩ "/map" ∧
      ¬ twoFiles.Replays Runtime.ordered ["/map"] ⟨11, 16⟩ plainSetting := by
  have latches : twoFiles.Latches ["/map"] ⟨11, 16⟩ "/map" :=
    ⟨by decide, by decide +kernel, by decide +kernel⟩
  refine ⟨latches, ?_⟩
  rintro ⟨plan, out, seeds, planned, done, -, emitted, law, -⟩
  have nothing : ((buildPlan Runtime.ordered twoFiles.files (twoFiles.indexes Runtime.ordered)
      (latchedArgs ["/map"] ⟨11, 16⟩)).map fun plan => (run (twoFiles.producer Runtime.ordered
        (twoFiles.indexes Runtime.ordered) plan (latchedArgs ["/map"] ⟨11, 16⟩) plainSetting)
          Runtime.ordered).1.emitted) = .ok [] := by
    decide +kernel
  rw [planned] at nothing
  simp only [Except.map, done] at nothing
  rw [Except.ok.inj nothing] at emitted
  obtain ⟨rfl, -⟩ := List.append_eq_nil_iff.mp emitted.symm
  obtain ⟨m, -, only⟩ := law "/map" latches
  cases only

end PjCloud.Planning
