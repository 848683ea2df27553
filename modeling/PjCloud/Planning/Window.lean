import PjCloud.Planning.Tape

/-!
# The window stream

Three filters stand between a selection and the stream of a session: files outside the window are not
loaded, chunks that do not reach the window or carry no requested topic are not planned, and of a planned
chunk only the messages of the requested topics inside the window are emitted. `stream_eq_walk` is that
together they come to the plain filter on the walk over the selection.

`Recording.steps` pairs each planned chunk of a recording with the messages that it streams;
`runWindow_adds` runs the main loop over these pairs.
-/

namespace PjCloud.Planning
open Lib Format
variable {L : Library} {R : Runtime} {sel : Selection L} {r : Recording L} {args : PlanArgs}
  {env : Setting}

/-- The planned chunks of a recording, each with its messages that are asked for. -/
def Recording.steps (r : Recording L) (args : PlanArgs) : List (ChunkRef × List RawMessage) :=
  r.info.chunkIndexes.filterMap fun ci =>
    ((r.ref ci).narrow args.topicNames args.timeRange).map fun ref =>
      (ref, (r.messagesIn ci).filter args.asks)

lemma Recording.steps_fst : (r.steps args).map Prod.fst =
    (planChunks (r.index R) args.topicNames args.timeRange).map ChunkRef.bare := by
  rw [planChunks_bare, Recording.index_bare, Recording.steps, List.map_filterMap, List.filterMap_map]
  apply List.filterMap_congr
  intro ci _
  cases h : (r.ref ci).narrow args.topicNames args.timeRange <;> simp [h]

lemma Recording.asks_narrow {ci : ChunkIndex} {m : RawMessage} (chunk : ci ∈ r.info.chunkIndexes)
    (mem : m ∈ r.messagesIn ci) (asked : args.asks m) :
    ((r.ref ci).narrow args.topicNames args.timeRange).isSome := by
  obtain ⟨lower, upper⟩ := r.ref_encloses chunk mem
  obtain ⟨topic, time⟩ := Bool.and_eq_true_iff.mp asked
  have inside : (r.ref ci).outside args.timeRange = false := ChunkRef.reaches lower upper time
  have some : m.topic ∈ (r.ref ci).selected args.topicNames :=
    Finset.mem_filter.mpr ⟨r.ref_carries chunk mem, by simpa using topic⟩
  rw [ChunkRef.narrow, if_neg]
  · rfl
  · rintro (out | empty)
    · rw [inside] at out
      cases out
    · rw [empty] at some
      exact Finset.notMem_empty _ some

lemma Recording.steps_snd : (r.steps args).flatMap Prod.snd = r.messages.filter args.asks := by
  have piece : ∀ l : List ChunkIndex, (∀ ci ∈ l, ci ∈ r.info.chunkIndexes) →
      (l.filterMap fun ci => ((r.ref ci).narrow args.topicNames args.timeRange).map fun ref =>
        (ref, (r.messagesIn ci).filter args.asks)).flatMap Prod.snd =
      (l.flatMap r.messagesIn).filter args.asks := by
    intro l
    induction l with
    | nil => exact fun _ => rfl
    | cons ci rest ih =>
      intro chunks
      have tail := ih fun ci h => chunks ci (List.mem_cons_of_mem _ h)
      rw [List.filterMap_cons, List.flatMap_cons, List.filter_append, ← tail]
      cases planned : (r.ref ci).narrow args.topicNames args.timeRange with
      | some ref => rfl
      | none =>
        have nothing : (r.messagesIn ci).filter args.asks = [] := by
          apply List.filter_eq_nil_iff.mpr
          intro m mem asked
          have found := r.asks_narrow (chunks ci List.mem_cons_self) mem asked
          rw [planned] at found
          cases found
        rw [nothing]
        rfl
  exact piece _ fun _ h => h

section Skip
variable {skip : Recording L → Bool} {plan : Plan}

def Selection.steps (sel : Selection L) (skip : Recording L → Bool) (args : PlanArgs) :
    List (ChunkRef × List RawMessage) :=
  sel.byStart.flatMap fun r => if skip r then [] else r.steps args

lemma Selection.steps_fst : (sel.steps skip args).map Prod.fst =
    (windowChunks (sel.loadWith R skip) (sel.byStart.map Recording.record) args).map ChunkRef.bare := by
  rw [Selection.steps, windowChunks, List.flatMap_map, List.map_flatMap, List.map_flatMap]
  apply List.flatMap_congr
  intro r mem
  rw [sel.idxByFile_loadWith (sel.mem_byStart.mp mem), Option.map_some, Option.getD_some]
  split
  · rfl
  · exact Recording.steps_fst

/-- The messages of the steps are those of the walk that are asked for, if the files that are not
    loaded have none. -/
lemma Selection.steps_snd
    (quiet : ∀ r ∈ sel.recordings, skip r = true → r.messages.filter args.asks = []) :
    (sel.steps skip args).flatMap Prod.snd = sel.walk.filter args.asks := by
  rw [Selection.steps, Selection.walk, List.flatMap_assoc, List.filter_flatMap]
  apply List.flatMap_congr
  intro r mem
  split
  · rename_i skipped
    rw [quiet r (sel.mem_byStart.mp mem) skipped]
    rfl
  · exact Recording.steps_snd

lemma Selection.mem_steps {step : ChunkRef × List RawMessage} (mem : step ∈ sel.steps skip args) :
    ∃ r ∈ sel.recordings, skip r = false ∧ ∃ ci ∈ r.info.chunkIndexes,
      step = ({ r.ref ci with channelTopics := (r.ref ci).selected args.topicNames },
        (r.messagesIn ci).filter args.asks) := by
  obtain ⟨r, file, mem⟩ := List.mem_flatMap.mp mem
  refine ⟨r, sel.mem_byStart.mp file, ?_⟩
  cases loaded : skip r with
  | true =>
    rw [if_pos loaded] at mem
    cases mem
  | false =>
    rw [if_neg (by simp [loaded])] at mem
    obtain ⟨ci, chunk, planned⟩ := List.mem_filterMap.mp mem
    obtain ⟨ref, narrowed, rfl⟩ := Option.map_eq_some_iff.mp planned
    unfold ChunkRef.narrow at narrowed
    split at narrowed
    · cases narrowed
    · cases narrowed
      exact ⟨rfl, ci, chunk, rfl⟩

variable (skip) in
lemma Selection.frame_of_survives {ci : ChunkIndex} {m : RawMessage} (file : r ∈ sel.recordings)
    (loaded : skip r = false) (mem : m ∈ r.messagesIn ci) (survives : m.topic ∈ planTopicSet plan) :
    (frame (sel.producer R (sel.loadWith R skip) plan args env) m).isSome := by
  have known : (schemaOf (firstSchemas [] (fileSchemas (sel.loadWith R skip))) m.topic).isSome := by
    apply schemaOf_firstSchemas
    obtain ⟨ts, entry, name⟩ := List.mem_map.mp (r.topic_schema (R := R) mem)
    refine List.mem_map.mpr ⟨ts, List.mem_flatMap.mpr ⟨r.index R, ?_, entry⟩, name⟩
    exact List.mem_map.mpr ⟨r, file, if_neg (by simp [loaded])⟩
  rw [frame, Option.isSome_map]
  exact assignBindings_lookup survives known

lemma Selection.steps_stream {step : ChunkRef × List RawMessage} (mem : step ∈ sel.steps skip args) :
    Streams (sel.producer R (sel.loadWith R skip) plan args env) args.timeRange step.1 step.2 := by
  obtain ⟨r, file, loaded, ci, chunk, rfl⟩ := sel.mem_steps mem
  have index : idxByFile (sel.loadWith R skip) r.record.id = some (r.index R) := by
    rw [sel.idxByFile_loadWith file, if_neg (by simp [loaded])]
  -- a message of the chunk is of a topic it carries, so that only the request matters
  have same : (r.messagesIn ci).filter args.asks = (r.messagesIn ci).filter (ChunkRef.wants
      { r.ref ci with channelTopics := (r.ref ci).selected args.topicNames } args.timeRange) := by
    apply List.filter_congr
    intro m mem
    have carried := r.ref_carries chunk mem
    simp [PlanArgs.asks, ChunkRef.wants, ChunkRef.selected, carried]
  rw [same]
  exact r.streams rfl file rfl index chunk rfl rfl rfl

lemma Selection.frame_isSome {m : RawMessage} (chunks : plan.chunks =
      windowChunks (sel.loadWith R skip) (sel.byStart.map Recording.record) args)
    (mem : m ∈ (sel.steps skip args).flatMap Prod.snd) :
    (frame (sel.producer R (sel.loadWith R skip) plan args env) m).isSome := by
  obtain ⟨step, step_mem, mem⟩ := List.mem_flatMap.mp mem
  have planned : step.1 ∈ plan.chunks.map ChunkRef.bare := by
    rw [chunks, ← Selection.steps_fst]
    exact List.mem_map_of_mem step_mem
  obtain ⟨r, file, loaded, ci, chunk, rfl⟩ := sel.mem_steps step_mem
  obtain ⟨mem, asked⟩ := List.mem_filter.mp mem
  have survives : m.topic ∈ planTopicSet plan := by
    obtain ⟨c, planned, bare⟩ := List.mem_map.mp planned
    apply Finset.mem_union_left
    refine mem_chunkTopics.mpr ⟨c, planned, ?_⟩
    have topics : c.channelTopics = (r.ref ci).selected args.topicNames :=
      congrArg ChunkRef.channelTopics bare
    rw [topics]
    have topic := (Bool.and_eq_true_iff.mp asked).1
    exact Finset.mem_filter.mpr ⟨r.ref_carries chunk mem, by simpa using topic⟩
  exact sel.frame_of_survives skip file loaded mem survives

lemma oversized_eq {indexes : List FileChunkIndex} {m : RawMessage} :
    oversized (sel.producer R indexes plan args env) m =
      !fits (sel.producer R indexes plan args env).opts m := by
  have cap : 0 < (sel.producer R indexes plan args env).opts.maxMessageBytes := maxMessageBytes_pos
  simp only [oversized, fits, gt_iff_lt, cap, decide_true, Bool.true_and, ← decide_not, not_le]

variable (skip env) in
lemma runWindow_adds {s : RunState} (closed : s.bb.msgs = [])
    (quiet : ∀ r ∈ sel.recordings, skip r = true → r.messages.filter args.asks = [])
    (chunks : plan.chunks =
      windowChunks (sel.loadWith R skip) (sel.byStart.map Recording.record) args) :
    let p := sel.producer R (sel.loadWith R skip) plan args env
    ∃ s', runChunks p plan.chunks s = (s', .ok) ∧ s'.bb.msgs = [] ∧
      Adds p s s' ((sel.walk.filter args.asks).filter (fits p.opts))
        ((sel.walk.filter args.asks).countP fun m => !fits p.opts m) := by
  intro p
  have streams : ∀ step ∈ sel.steps skip args, Streams p p.opts.timeRange step.1 step.2 :=
    fun step mem => sel.steps_stream mem
  obtain ⟨s', done, closed', adds⟩ := runChunks_adds streams closed
  refine ⟨s', ?_, closed', ?_⟩
  · rw [← runChunks_bare (fun _ => rfl), chunks, ← Selection.steps_fst]
    exact done
  · rw [← sel.steps_snd quiet]
    have keep : ((sel.steps skip args).flatMap Prod.snd).filter (kept p) =
        ((sel.steps skip args).flatMap Prod.snd).filter (fits p.opts) := by
      apply List.filter_congr
      intro m mem
      rw [kept, sel.frame_isSome chunks mem, oversized_eq, Bool.not_not, Bool.and_true]
    have drop : oversized p = fun m => !fits p.opts m := funext fun m => oversized_eq
    rwa [keep, drop] at adds

end Skip

lemma buildPlan_files {indexes : List FileChunkIndex} (nonempty : sel.recordings ≠ [])
    (upright : ∀ w, args.timeRange = some w → w.startNs ≤ w.endNs) :
    buildPlan R sel.files indexes args =
      match args.includeLatched, args.timeRange with
      | true, some w => .ok (buildLatchedSeed R
          (orderedPlan (sel.byStart.map Recording.record) indexes args)
          (sel.byStart.map Recording.record) indexes args.topicNames w.startNs)
      | _, _ => .ok (orderedPlan (sel.byStart.map Recording.record) indexes args) := by
  have window : args.timeRange.filter (fun w => w.endNs < w.startNs) = none := by
    apply Option.filter_eq_none_iff.mpr
    intro w h
    simpa using upright w h
  have files : sel.files ≠ [] := by simpa [Selection.files] using nonempty
  unfold buildPlan
  rw [window]
  split
  · contradiction
  · contradiction
  · cases args.includeLatched <;> cases args.timeRange <;>
      simp [sel.slice_files, firstOverlap_none sel.byStart_sorted]

lemma buildPlan_plain {indexes : List FileChunkIndex} (plain : args.includeLatched = false)
    (upright : ∀ w, args.timeRange = some w → w.startNs ≤ w.endNs) :
    buildPlan R sel.files indexes args =
      .ok (orderedPlan (sel.byStart.map Recording.record) indexes args) := by
  by_cases empty : sel.recordings = []
  · rw [Selection.files, sel.byStart_nil empty, empty]
    rfl
  · rw [buildPlan_files empty upright, plain]

/-- The session with these chunk indexes delivers the walk: the messages that went into batches are
    those that are asked for and fit, framed with the ids of their topics, and the count of dropped
    messages is that of the ones asked for that do not fit. -/
def Selection.Delivers (R : Runtime) (sel : Selection L) (indexes : List FileChunkIndex)
    (args : PlanArgs) (env : Setting) : Prop :=
  ∃ plan out, buildPlan R sel.files indexes args = .ok plan ∧
    let p := sel.producer R indexes plan args env
    run p R = (out, .ok) ∧
    out.emitted = (sel.walk.filter args.asks).filter (fits p.opts) ∧
    (out.appended.flatMap Flushed.msgs).map some = out.emitted.map (frame p) ∧
    out.dropped = (sel.walk.filter args.asks).countP fun m => !fits p.opts m

lemma Selection.delivers_loadWith {skip : Recording L → Bool} (plain : args.includeLatched = false)
    (upright : ∀ w, args.timeRange = some w → w.startNs ≤ w.endNs)
    (quiet : ∀ r ∈ sel.recordings, skip r = true → r.messages.filter args.asks = []) :
    sel.Delivers R (sel.loadWith R skip) args env := by
  have planned : buildPlan R sel.files (sel.loadWith R skip) args =
      .ok (orderedPlan (sel.byStart.map Recording.record) (sel.loadWith R skip) args) :=
    buildPlan_plain plain upright
  have chunks : (orderedPlan (sel.byStart.map Recording.record) (sel.loadWith R skip) args).chunks =
      windowChunks (sel.loadWith R skip) (sel.byStart.map Recording.record) args := rfl
  obtain ⟨out, done, closed, adds⟩ := runWindow_adds env skip (s := {}) rfl quiet chunks
  refine ⟨_, out, planned, (if_pos rfl).trans done, adds.emitted, adds.framed closed, ?_⟩
  rw [adds.dropped]
  exact Nat.zero_add _

/-- The catalog entry of the file encloses its messages. -/
def Recording.Catalogued (r : Recording L) : Prop :=
  ∀ m ∈ r.messages, r.record.startTimeNs ≤ m.logTimeNs ∧ m.logTimeNs ≤ r.record.endTimeNs

lemma Recording.Catalogued.quiet (catalogued : r.Catalogued)
    (skipped : r.record.skipped args.timeRange false = true) : r.messages.filter args.asks = [] := by
  apply List.filter_eq_nil_iff.mpr
  intro m mem asked
  obtain ⟨lower, upper⟩ := catalogued m mem
  have time := (Bool.and_eq_true_iff.mp asked).2
  generalize args.timeRange = tr at skipped time
  cases tr with
  | none => cases skipped
  | some w =>
    simp only [TimeWindow.admits, Bool.and_eq_true, decide_eq_true_eq] at time
    simp only [FileRecord.skipped, Bool.or_eq_true, Bool.and_eq_true, decide_eq_true_eq] at skipped
    omega

/-- The stream of a session is the plain filter on the walk over its files: with the chunk indexes of
    all of them, and with those that the server loads if the catalog entries enclose the messages. -/
theorem stream_eq_walk (plain : args.includeLatched = false)
    (upright : ∀ w, args.timeRange = some w → w.startNs ≤ w.endNs) :
    sel.Delivers R (sel.indexes R) args env ∧
      ((∀ r ∈ sel.recordings, r.Catalogued) → sel.Delivers R (sel.loaded R args) args env) := by
  constructor
  · rw [sel.indexes_eq]
    apply sel.delivers_loadWith plain upright
    intro r _ skipped
    cases skipped
  · intro catalogued
    rw [sel.loaded_eq]
    apply sel.delivers_loadWith plain upright
    intro r mem skipped
    rw [plain] at skipped
    exact (catalogued r mem).quiet skipped

def mapAndTransforms : List (Nat × Channel) :=
  [(1, ⟨"/map", "cdr", 0⟩), (2, ⟨"/tf", "cdr", 0⟩)]

/-- A map at time 1 and a transform at time 10. -/
def earlyTape : Tape where
  record := ⟨1, 1, 10⟩
  channels := mapAndTransforms
  chunks := [⟨⟨1, 10, 0, 40, "", [1, 2]⟩, [⟨1, 1, 1, [1]⟩, ⟨2, 10, 10, [2]⟩]⟩]
  sound := by decide +kernel
  apart := by decide

/-- Transforms at times 15 and 20, and a map between them. -/
def lateTape : Tape where
  record := ⟨2, 10, 20⟩
  channels := mapAndTransforms
  chunks := [⟨⟨10, 20, 0, 60, "", [1, 2]⟩, [⟨2, 15, 15, [3]⟩, ⟨1, 16, 16, [4]⟩, ⟨2, 20, 20, [5]⟩]⟩]
  sound := by decide +kernel
  apart := by decide

/-- Both files, the later one first. -/
def twoFiles : Selection plainLibrary where
  recordings := [lateTape.recording, earlyTape.recording]
  disjoint := by
    apply List.pairwise_pair.mpr
    right
    constructor <;> decide
  distinct := by decide

/-- The transforms from time 10 up to but not at time 20. -/
def transforms : PlanArgs where
  topicNames := ["/tf"]
  timeRange := some ⟨10, 20⟩
  includeLatched := false

/-- Encoders that keep the bytes. -/
def plainSetting : Setting where
  cfg := {}
  codec := { encodeAll := id, marshalBody := fun ms => ms.flatMap Message.payload,
             marshalBatch := MessageBatch.body }
  aged := fun _ => false

/-- A message at the start of the window is streamed and one at its end is not. -/
theorem twoFiles_stream :
    (twoFiles.Delivers Runtime.ordered (twoFiles.indexes Runtime.ordered) transforms plainSetting ∧
      ((∀ r ∈ twoFiles.recordings, r.Catalogued) → twoFiles.Delivers Runtime.ordered
        (twoFiles.loaded Runtime.ordered transforms) transforms plainSetting)) ∧
    (twoFiles.walk.filter transforms.asks).map RawMessage.logTimeNs = [10, 15] := by
  refine ⟨stream_eq_walk rfl ?_, by decide +kernel⟩
  intro w h
  cases h
  decide

end PjCloud.Planning
