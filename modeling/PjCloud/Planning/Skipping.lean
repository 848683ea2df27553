import PjCloud.Lib.Lists
import PjCloud.Planning.Open
import PjCloud.Planning.Overlap

/-!
# Files that the window skips

`openFresh` leaves the index of a file empty that lies outside the window. The plan is the one of the full indexes, but for
the topics of the latched seed where no names are given: they are looked for in the indexes that were loaded.
-/

namespace PjCloud.Planning
open Lib Format

variable {R : Runtime} {files ordered : List FileRecord} {chunkIndex : Nat → FileChunkIndex} {args : PlanArgs}

def fullIndexes (files : List FileRecord) (chunkIndex : Nat → FileChunkIndex) : List FileChunkIndex :=
  files.map fun f => chunkIndex f.id

/-- The bounds of the catalog enclose those of the chunks. -/
def Enclosed (files : List FileRecord) (chunkIndex : Nat → FileChunkIndex) : Prop :=
  ∀ f ∈ files, ∀ c ∈ (chunkIndex f.id).chunks, f.startTimeNs ≤ c.startNs ∧ c.endNs ≤ f.endTimeNs

/-- A topic of a skipped file is a topic of a file that is not skipped. -/
def Shared (files : List FileRecord) (chunkIndex : Nat → FileChunkIndex) (args : PlanArgs) : Prop :=
  ∀ f ∈ files, f.skipped args.timeRange args.includeLatched = true → ∀ topic ∈ chunkTopics (chunkIndex f.id).chunks,
    ∃ f' ∈ files, f'.skipped args.timeRange args.includeLatched = false ∧ topic ∈ chunkTopics (chunkIndex f'.id).chunks

def loadedChunks (chunkIndex : Nat → FileChunkIndex) (args : PlanArgs) (f : FileRecord) : List ChunkRef :=
  if f.skipped args.timeRange args.includeLatched then [] else (chunkIndex f.id).chunks

section Indexes

variable (distinct : (files.map FileRecord.id).Nodup) (own : ∀ id, (chunkIndex id).fileID = id)
include distinct

lemma idxByFile_map {index : FileRecord → FileChunkIndex} (own : ∀ f, (index f).fileID = f.id) {f : FileRecord}
    (mem : f ∈ files) : idxByFile (files.map index) f.id = some (index f) := by
  have ids : ((files.map index).reverse.map FileChunkIndex.fileID).Nodup := by
    rw [List.map_reverse, List.nodup_reverse, List.map_map]
    simpa only [Function.comp_def, own] using distinct
  have found := find_of_nodup ids (List.mem_reverse.mpr (List.mem_map_of_mem mem))
  rwa [own] at found

include own

lemma idxByFile_full {f : FileRecord} (mem : f ∈ files) :
    idxByFile (fullIndexes files chunkIndex) f.id = some (chunkIndex f.id) :=
  @idxByFile_map _ distinct (fun f => chunkIndex f.id) (fun f => own f.id) f mem

lemma idxByFile_loaded {f : FileRecord} (mem : f ∈ files) : idxByFile (loadIndexes files chunkIndex args) f.id =
    some (if f.skipped args.timeRange args.includeLatched then { fileID := f.id } else chunkIndex f.id) := by
  refine idxByFile_map distinct (fun f => ?_) mem
  split
  · rfl
  · exact own f.id

variable (within : ∀ f ∈ ordered, f ∈ files)
include within

lemma allChunks_full : allChunks (fullIndexes files chunkIndex) ordered = ordered.flatMap fun f => (chunkIndex f.id).chunks := by
  refine List.flatMap_congr fun f mem => ?_
  rw [idxByFile_full distinct own (within f mem)]
  rfl

lemma allChunks_loaded : allChunks (loadIndexes files chunkIndex args) ordered =
    ordered.flatMap (loadedChunks chunkIndex args) := by
  refine List.flatMap_congr fun f mem => ?_
  rw [idxByFile_loaded distinct own (within f mem), loadedChunks]
  split <;> rfl

variable (enclosed : Enclosed files chunkIndex)
include enclosed

lemma windowChunks_loaded : windowChunks (loadIndexes files chunkIndex args) ordered args =
    windowChunks (fullIndexes files chunkIndex) ordered args := by
  refine List.flatMap_congr fun f mem => ?_
  have mem := within f mem
  rw [idxByFile_loaded distinct own mem, idxByFile_full distinct own mem]
  split
  · rename_i skipped
    have outside : ∀ c ∈ (chunkIndex f.id).chunks, c.outside args.timeRange = true := by
      intro c memC
      have bounds := enclosed f mem c memC
      unfold FileRecord.skipped at skipped
      cases window : args.timeRange with
      | none => simp [window] at skipped
      | some w =>
        simp only [window, Bool.or_eq_true, Bool.and_eq_true, decide_eq_true_eq] at skipped
        simp only [ChunkRef.outside, Bool.or_eq_true, decide_eq_true_eq]
        rcases skipped with after | ⟨before, -⟩ <;> omega
    simp only [Option.map_some, Option.getD_some, planChunks, List.zipIdx_nil, List.filterMap_nil]
    symm
    apply List.filterMap_eq_nil_iff.mpr
    rintro ⟨c, i⟩ memC
    simp only [outside c (List.fst_mem_of_mem_zipIdx memC), if_true]
  · rfl

end Indexes

lemma early_loaded {w : TimeWindow} (within : ∀ f ∈ ordered, f ∈ files) (enclosed : Enclosed files chunkIndex)
    (window : args.timeRange = some w) (valid : w.startNs ≤ w.endNs)
    (latched : args.includeLatched = true) :
    (ordered.flatMap (loadedChunks chunkIndex args)).filter (fun c => c.startNs < w.startNs) =
      (ordered.flatMap fun f => (chunkIndex f.id).chunks).filter (fun c => c.startNs < w.startNs) := by
  rw [List.filter_flatMap, List.filter_flatMap]
  refine List.flatMap_congr fun f mem => ?_
  unfold loadedChunks
  split
  · rename_i skipped
    simp only [FileRecord.skipped, window, latched, Bool.not_true, Bool.and_false, Bool.or_false, decide_eq_true_eq] at skipped
    symm
    refine List.filter_eq_nil_iff.mpr fun c memC => ?_
    have := enclosed f (within f mem) c memC
    simp only [decide_eq_true_eq]
    omega
  · rfl

/-! ## The latched seed -/

section Seed

variable {chunks chunks' : List ChunkRef} {startNs : Int} {seed seed' : Finset String} {topic : String}

lemma bestByTopic_filter : bestByTopic (chunks.filter fun c => c.startNs < startNs) startNs seed topic =
    bestByTopic chunks startNs seed topic := by
  unfold bestByTopic
  rw [List.foldl_filter]
  refine List.foldl_ext _ _ _ fun best c _ => ?_
  by_cases early : c.startNs < startNs
  · simp [early]
  · simp [early, not_lt.mp early]

lemma bestByTopic_notMem (missing : topic ∉ seed) : bestByTopic chunks startNs seed topic = none := by
  unfold bestByTopic
  induction chunks with
  | nil => rfl
  | cons c chunks ih => simp [missing]

lemma bestByTopic_congr (same : ∀ c ∈ chunks, c.startNs < startNs → topic ∈ c.channelTopics → (topic ∈ seed ↔ topic ∈ seed')) :
    bestByTopic chunks startNs seed topic = bestByTopic chunks startNs seed' topic := by
  unfold bestByTopic
  refine List.foldl_ext _ _ _ fun best c mem => ?_
  by_cases late : c.startNs ≥ startNs
  · simp [late]
  · by_cases carries : topic ∈ c.channelTopics
    · simp only [same c mem (not_le.mp late) carries]
    · simp [carries]

lemma seedEntries_congr (early : chunks.filter (fun c => c.startNs < startNs) = chunks'.filter fun c => c.startNs < startNs)
    (sub : seed ⊆ seed')
    (known : ∀ topic ∈ seed', ∀ c ∈ chunks, c.startNs < startNs → topic ∈ c.channelTopics → topic ∈ seed) :
    seedEntries R chunks startNs seed = seedEntries R chunks' startNs seed' := by
  have best : bestByTopic chunks startNs seed = bestByTopic chunks' startNs seed' := by
    funext topic
    rw [← @bestByTopic_filter chunks', ← early, bestByTopic_filter]
    exact bestByTopic_congr fun c mem before carries =>
      ⟨fun mem' => sub mem', fun mem' => known topic mem' c mem before carries⟩
  have topics : seed.filter (fun topic => (bestByTopic chunks startNs seed topic).isSome) =
      seed'.filter fun topic => (bestByTopic chunks startNs seed topic).isSome := by
    ext topic
    simp only [Finset.mem_filter]
    refine ⟨fun ⟨mem, found⟩ => ⟨sub mem, found⟩, fun ⟨_, found⟩ => ⟨?_, found⟩⟩
    by_contra missing
    rw [bestByTopic_notMem missing] at found
    cases found
  rw [best] at topics
  simp only [seedEntries, best, topics]

lemma buildLatchedSeed_eq {plan : Plan} {indexes : List FileChunkIndex} {names : List String}
    (fresh : plan.seedChunks = [] ∧ plan.seedTopics = ∅) (small : plan.estimatedChunkBytes < 2 ^ 64 ∧ plan.approximateMessages < 2 ^ 64)
    (eq : missingTopics plan (allChunks indexes ordered) names = seed) :
    let built := buildLatchedSeed R plan ordered indexes names startNs
    let refs := coalesce (seedEntries R (allChunks indexes ordered) startNs seed)
    built.chunks = plan.chunks ∧ built.mergedStartNs = plan.mergedStartNs ∧ built.mergedEndNs = plan.mergedEndNs ∧
      built.seedChunks = R.slice (fun c => toLex (c.fileID, c.offset)) refs ∧ built.seedTopics = seed ∧
      built.estimatedChunkBytes = uint64 (plan.estimatedChunkBytes + (refs.map fun c => toUint64 c.length).sum) ∧
      built.approximateMessages = uint64 (plan.approximateMessages + (refs.map fun c => c.channelTopics.card).sum) := by
  intro built refs
  by_cases none : seed = ∅
  · have noRefs : refs = [] := by
      have noEntries : seedEntries R (allChunks indexes ordered) startNs seed = [] := by
        have : R.range (∅ : Finset String) = [] := List.eq_nil_iff_forall_not_mem.mpr fun a mem => by simp at mem
        simp [seedEntries, none, this]
      simp only [refs, noEntries]
      rfl
    have same : built = plan := by simp only [built, buildLatchedSeed, eq, none, if_true]
    have sorted : R.slice (fun c : ChunkRef => toLex (c.fileID, c.offset)) [] = [] := (R.slice_perm _ []).eq_nil
    simp only [same, noRefs, sorted, fresh, none, List.map_nil, List.sum_nil, Nat.add_zero, uint64, Nat.mod_eq_of_lt small.1,
      Nat.mod_eq_of_lt small.2, and_self]
  · simp only [built, refs, buildLatchedSeed, eq, none, if_false, fresh, List.nil_append, and_self]

end Seed

lemma chunkTopics_window {indexes : List FileChunkIndex} :
    chunkTopics (windowChunks indexes ordered args) ⊆ chunkTopics (allChunks indexes ordered) := by
  intro topic mem
  obtain ⟨c, memC, carries⟩ := mem_chunkTopics.mp mem
  obtain ⟨f, memF, inFile⟩ := List.mem_flatMap.mp memC
  cases index : idxByFile indexes f.id with
  | none => simp [index] at inFile
  | some ix =>
    simp only [index, Option.map_some, Option.getD_some, planChunks, List.mem_filterMap] at inFile
    obtain ⟨⟨whole, i⟩, memWhole, narrowed⟩ := inFile
    have topics : c.channelTopics = whole.selected args.topicNames := by
      dsimp only at narrowed
      split_ifs at narrowed <;> exact Option.some.inj narrowed ▸ rfl
    rw [topics] at carries
    refine mem_chunkTopics.mpr ⟨whole, List.mem_flatMap.mpr ⟨f, memF, ?_⟩, (Finset.mem_filter.mp carries).1⟩
    simpa [index] using List.fst_mem_of_mem_zipIdx memWhole

/-- What two plans agree on but for the topics of the seed. -/
structure SameBut (p q : Plan) : Prop where
  chunks : p.chunks = q.chunks
  seedChunks : p.seedChunks = q.seedChunks
  estimatedChunkBytes : p.estimatedChunkBytes = q.estimatedChunkBytes
  approximateMessages : p.approximateMessages = q.approximateMessages
  mergedStartNs : p.mergedStartNs = q.mergedStartNs
  mergedEndNs : p.mergedEndNs = q.mergedEndNs

lemma mem_chunkTopics_loaded (within : ∀ f, f ∈ ordered ↔ f ∈ files) {topic : String} :
    topic ∈ chunkTopics (ordered.flatMap (loadedChunks chunkIndex args)) ↔
      ∃ f ∈ files, f.skipped args.timeRange args.includeLatched = false ∧ topic ∈ chunkTopics (chunkIndex f.id).chunks := by
  simp only [mem_chunkTopics, List.mem_flatMap, loadedChunks, within]
  constructor
  · rintro ⟨c, ⟨f, mem, memC⟩, carries⟩
    split_ifs at memC with skipped
    · cases memC
    · exact ⟨f, mem, by simpa using skipped, c, memC, carries⟩
  · rintro ⟨f, mem, kept, c, memC, carries⟩
    exact ⟨c, ⟨f, mem, by simpa [kept] using memC⟩, carries⟩

lemma sameBut_latched {plan : Plan} {w : TimeWindow} (distinct : (files.map FileRecord.id).Nodup)
    (own : ∀ id, (chunkIndex id).fileID = id) (enclosed : Enclosed files chunkIndex)
    (members : ∀ f, f ∈ ordered ↔ f ∈ files) (window : args.timeRange = some w) (valid : w.startNs ≤ w.endNs)
    (latched : args.includeLatched = true)
    (same : plan = orderedPlan ordered (loadIndexes files chunkIndex args) args) :
    let p := buildLatchedSeed R plan ordered (loadIndexes files chunkIndex args) args.topicNames w.startNs
    let q := buildLatchedSeed R plan ordered (fullIndexes files chunkIndex) args.topicNames w.startNs
    SameBut p q ∧ (p.seedTopics = q.seedTopics ↔ (args.topicNames = [] → Shared files chunkIndex args)) := by
  intro p q
  have within := fun f => (members f).mp
  have fresh : plan.seedChunks = [] ∧ plan.seedTopics = ∅ := by simp [same, orderedPlan]
  have small : plan.estimatedChunkBytes < 2 ^ 64 ∧ plan.approximateMessages < 2 ^ 64 := by
    simp only [same, orderedPlan, uint64]
    exact ⟨Nat.mod_lt _ (by norm_num), Nat.mod_lt _ (by norm_num)⟩
  have narrow : chunkTopics plan.chunks ⊆ chunkTopics (allChunks (loadIndexes files chunkIndex args) ordered) := by
    simp only [same, orderedPlan]
    exact chunkTopics_window
  have left := @buildLatchedSeed_eq R ordered w.startNs _ plan _ args.topicNames fresh small
    (rfl : missingTopics plan (allChunks (loadIndexes files chunkIndex args) ordered) args.topicNames = _)
  have right := @buildLatchedSeed_eq R ordered w.startNs _ plan _ args.topicNames fresh small
    (rfl : missingTopics plan (allChunks (fullIndexes files chunkIndex) ordered) args.topicNames = _)
  rw [allChunks_loaded distinct own within] at left narrow
  rw [allChunks_full distinct own within] at right
  have early := @early_loaded _ _ _ _ w within enclosed window valid latched
  have loaded := @mem_chunkTopics_loaded files ordered chunkIndex args members
  have every (topic : String) : topic ∈ chunkTopics (ordered.flatMap fun f => (chunkIndex f.id).chunks) ↔
      ∃ f ∈ files, topic ∈ chunkTopics (chunkIndex f.id).chunks := by
    simp only [mem_chunkTopics, List.mem_flatMap, members]
    constructor
    · rintro ⟨c, ⟨f, mem, memC⟩, carries⟩
      exact ⟨f, mem, c, memC, carries⟩
    · rintro ⟨f, mem, c, memC, carries⟩
      exact ⟨c, ⟨f, mem, memC⟩, carries⟩
  generalize ordered.flatMap (loadedChunks chunkIndex args) = some at *
  generalize (ordered.flatMap fun f => (chunkIndex f.id).chunks) = all at *
  have sub : chunkTopics some ⊆ chunkTopics all := fun topic mem => by
    obtain ⟨f, memF, -, carries⟩ := loaded.mp mem
    exact (every topic).mpr ⟨f, memF, carries⟩
  have entries : seedEntries R some w.startNs (missingTopics plan some args.topicNames) =
      seedEntries R all w.startNs (missingTopics plan all args.topicNames) := by
    refine seedEntries_congr early ?_ fun topic mem c memC _ carries => ?_
    · unfold missingTopics
      split
      · exact Finset.Subset.rfl
      · exact Finset.sdiff_subset_sdiff sub Finset.Subset.rfl
    · unfold missingTopics at mem ⊢
      split_ifs at mem ⊢
      · exact mem
      · exact Finset.mem_sdiff.mpr ⟨mem_chunkTopics.mpr ⟨c, memC, carries⟩, (Finset.mem_sdiff.mp mem).2⟩
  obtain ⟨chunks, start, stop, seeds, topics, bytes, messages⟩ := left
  obtain ⟨chunks', start', stop', seeds', topics', bytes', messages'⟩ := right
  rw [entries] at seeds bytes messages
  refine ⟨⟨chunks.trans chunks'.symm, seeds.trans seeds'.symm, bytes.trans bytes'.symm, messages.trans messages'.symm,
    start.trans start'.symm, stop.trans stop'.symm⟩, ?_⟩
  rw [show p.seedTopics = _ from topics, show q.seedTopics = _ from topics']
  unfold missingTopics
  by_cases names : args.topicNames = []
  · simp only [names, ne_eq, not_true_eq_false, if_false, true_imp_iff]
    constructor
    · intro eq f mem skipped topic carries
      have inAll := (every topic).mpr ⟨f, mem, carries⟩
      by_cases inWindow : topic ∈ chunkTopics plan.chunks
      · exact loaded.mp (narrow inWindow)
      · have := eq ▸ Finset.mem_sdiff.mpr ⟨inAll, inWindow⟩
        exact loaded.mp (Finset.mem_sdiff.mp this).1
    · intro shared
      suffices chunkTopics some = chunkTopics all by rw [this]
      refine sub.antisymm fun topic mem => loaded.mpr ?_
      obtain ⟨f, memF, carries⟩ := (every topic).mp mem
      cases skipped : f.skipped args.timeRange args.includeLatched with
      | true => exact shared f memF skipped topic carries
      | false => exact ⟨f, memF, skipped, carries⟩
  · simp [names]

/-- Skipping files leaves the plan as it is, and the topics of its seed if and only if names are given, there is no seed, or
every topic of a skipped file is also one of a file that is not skipped. -/
theorem skipping_is_invisible_iff {p q : Plan} (distinct : (files.map FileRecord.id).Nodup)
    (own : ∀ id, (chunkIndex id).fileID = id) (enclosed : Enclosed files chunkIndex)
    (skipping : buildPlan R files (loadIndexes files chunkIndex args) args = .ok p)
    (full : buildPlan R files (fullIndexes files chunkIndex) args = .ok q) :
    SameBut p q ∧ (p.seedTopics = q.seedTopics ↔
      (args.includeLatched = true → args.timeRange.isSome = true → args.topicNames = [] → Shared files chunkIndex args)) := by
  by_cases empty : files = []
  · subst empty
    cases skipping
    cases full
    exact ⟨⟨rfl, rfl, rfl, rfl, rfl, rfl⟩, by simp [Shared]⟩
  obtain ⟨valid, rfl⟩ := eq_planned skipping empty
  obtain ⟨-, rfl⟩ := eq_planned full empty
  have members : ∀ f, f ∈ R.slice FileRecord.startTimeNs files ↔ f ∈ files := fun f => Runtime.mem_slice
  have within := fun f => (members f).mp
  have window := @windowChunks_loaded _ (R.slice FileRecord.startTimeNs files) _ args distinct own within enclosed
  have plans : orderedPlan (R.slice FileRecord.startTimeNs files) (loadIndexes files chunkIndex args) args =
      orderedPlan (R.slice FileRecord.startTimeNs files) (fullIndexes files chunkIndex) args := by
    simp only [orderedPlan, window]
  simp only [planned, plans]
  cases latched : args.includeLatched with
  | false => exact ⟨⟨rfl, rfl, rfl, rfl, rfl, rfl⟩, by simp⟩
  | true =>
    cases range : args.timeRange with
    | none => exact ⟨⟨rfl, rfl, rfl, rfl, rfl, rfl⟩, by simp⟩
    | some w =>
      have valid : w.startNs ≤ w.endNs := by simpa [PlanArgs.valid, range] using valid
      obtain ⟨same, topics⟩ := @sameBut_latched R _ _ _ args _ w distinct own enclosed members range valid latched plans.symm
      exact ⟨same, topics.trans (by simp)⟩

/-- The indexes of two files with one topic each, the second one recorded later. -/
def dayIndex (later : String) (id : Nat) : FileChunkIndex :=
  let startNs := if id = 2 then 20 else 0
  let topic := if id = 2 then later else "/odom"
  { fileID := id
    chunks := [{ fileID := id, startNs, endNs := startNs + 10, offset := 0, length := 8, compression := "",
                 channelTopics := {topic}, messageCount := 1 }] }

def dayFiles : List FileRecord := [⟨1, 0, 10⟩, ⟨2, 20, 30⟩]

def dayArgs : PlanArgs := ⟨[], some ⟨2, 5⟩, true⟩

/-- The later file has no topic of its own. -/
theorem shared_topic_skipped :
    ∃ p q, buildPlan .ordered dayFiles (loadIndexes dayFiles (dayIndex "/odom") dayArgs) dayArgs = .ok p ∧
      buildPlan .ordered dayFiles (fullIndexes dayFiles (dayIndex "/odom")) dayArgs = .ok q ∧
      SameBut p q ∧ p.seedTopics = q.seedTopics := by
  have enclosed : Enclosed dayFiles (dayIndex "/odom") := by simp [Enclosed, dayFiles, dayIndex]
  have shared : Shared dayFiles (dayIndex "/odom") dayArgs := by
    simp [Shared, dayFiles, dayArgs, dayIndex, FileRecord.skipped]
  have plans := @skipping_is_invisible_iff .ordered dayFiles (dayIndex "/odom") dayArgs _ _ (by decide) (fun _ => rfl)
    enclosed rfl rfl
  exact ⟨_, _, rfl, rfl, plans.1, plans.2.mpr fun _ _ _ => shared⟩

/-- The topic of the later file is a seed topic of the plan over all indexes only. -/
theorem later_topic_is_lost : Enclosed dayFiles (dayIndex "/map") ∧
    (buildPlan .ordered dayFiles (loadIndexes dayFiles (dayIndex "/map") dayArgs) dayArgs).map Plan.seedTopics = .ok ∅ ∧
    (buildPlan .ordered dayFiles (fullIndexes dayFiles (dayIndex "/map")) dayArgs).map Plan.seedTopics = .ok {"/map"} := by
  refine ⟨by simp [Enclosed, dayFiles, dayIndex], ?_⟩
  decide +kernel

end PjCloud.Planning
