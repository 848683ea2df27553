import PjCloud.Lib.Lists
import PjCloud.Planning.Build

/-!
# The seed of a plan

What `buildLatchedSeed` computes, in closed form. The chunk for a topic is a greatest element
(`bestByTopic_eq`). Coalescing puts topics whose chunks have the same `bucketKey` into one reference, and
that is the chunk of the topic that came first (`mem_coalesce`, `coalesce_of_mem`): where two different
chunks share a key, which of them is read depends on the order of the topics.
-/

namespace PjCloud.Planning
open Lib Format

/-- The chunk for a seed topic is the one that starts last among those before the window that carry
    the topic, the first of them if several do. -/
lemma bestByTopic_eq {chunks : List ChunkRef} {startNs : Int} {seed : Finset String} {topic : String}
    (want : topic ∈ seed) : bestByTopic chunks startNs seed topic =
      (chunks.filter fun c => c.startNs < startNs ∧ topic ∈ c.channelTopics).argmax
        ChunkRef.startNs := by
  rw [bestByTopic, List.argmax, List.foldl_filter]
  congr 1
  funext best c
  by_cases before : c.startNs < startNs
  · by_cases carries : topic ∈ c.channelTopics
    · cases best <;> simp [before, not_le.mpr before, carries, want, laterChunk, List.argAux]
    · simp [before, not_le.mpr before, carries]
  · simp [before, not_lt.mp before]

section Coalesce
variable {l : List (String × ChunkRef)} {b : List (BitVec 64 × ChunkRef)} {e : String × ChunkRef}
  {k : BitVec 64}

def sharing (l : List (String × ChunkRef)) (k : BitVec 64) : Finset String :=
  ((l.filter fun e => bucketKey e.2 = k).map Prod.fst).toFinset

lemma mem_sharing {topic : String} :
    topic ∈ sharing l k ↔ ∃ c, (topic, c) ∈ l ∧ bucketKey c = k := by
  simp [sharing]

lemma sharing_concat_eq (h : bucketKey e.2 = k) : sharing (l ++ [e]) k = insert e.1 (sharing l k) := by
  ext topic
  simp [sharing, h]

lemma sharing_concat_ne (h : bucketKey e.2 ≠ k) : sharing (l ++ [e]) k = sharing l k := by
  simp [sharing, h]

/-- The buckets after the entries `l`: one for each key, with the chunk of the first entry that has
    the key and the topics of all that do. -/
structure Buckets (l : List (String × ChunkRef)) (b : List (BitVec 64 × ChunkRef)) : Prop where
  nodup : (b.map Prod.fst).Nodup
  keys : ∀ e ∈ l, bucketKey e.2 ∈ b.map Prod.fst
  made : ∀ bucket ∈ b, ∃ e, l.find? (fun e => bucketKey e.2 = bucket.1) = some e ∧
    bucket.2 = { e.2 with channelTopics := sharing l bucket.1 }

@[simp] lemma joinBucket_fst {x : BitVec 64 × ChunkRef} : (joinBucket e x).1 = x.1 := by
  unfold joinBucket
  split <;> rfl

lemma Buckets.join (h : Buckets l b) (found : b.any (·.1 = bucketKey e.2) = true) :
    Buckets (l ++ [e]) (b.map (joinBucket e)) := by
  have fst : (b.map (joinBucket e)).map Prod.fst = b.map Prod.fst := by
    rw [List.map_map]
    exact List.map_congr_left fun x _ => joinBucket_fst
  constructor
  · rw [fst]
    exact h.nodup
  · intro x mem
    rw [fst]
    obtain mem | mem := List.mem_append.mp mem
    · exact h.keys x mem
    · obtain rfl := List.mem_singleton.mp mem
      obtain ⟨y, bucket, same⟩ := List.any_eq_true.mp found
      exact List.mem_map.mpr ⟨y, bucket, of_decide_eq_true same⟩
  · intro x mem
    obtain ⟨y, bucket, rfl⟩ := List.mem_map.mp mem
    obtain ⟨first, earlier, made⟩ := h.made y bucket
    refine ⟨first, ?_, ?_⟩
    · -- the first entry with the key stays the first
      rw [joinBucket_fst, List.find?_append, earlier]
      rfl
    · rw [joinBucket_fst]
      unfold joinBucket
      split
      · rename_i same
        rw [sharing_concat_eq same.symm, made]
      · rename_i other
        rw [sharing_concat_ne (Ne.symm other), made]

lemma Buckets.make (h : Buckets l b) (missing : ¬ b.any (·.1 = bucketKey e.2) = true) :
    Buckets (l ++ [e]) (b ++ [(bucketKey e.2, { e.2 with channelTopics := {e.1} })]) := by
  have fresh : bucketKey e.2 ∉ b.map Prod.fst := by
    intro mem
    obtain ⟨y, bucket, same⟩ := List.mem_map.mp mem
    exact missing (List.any_eq_true.mpr ⟨y, bucket, decide_eq_true same⟩)
  have apart : ∀ x ∈ l, bucketKey x.2 ≠ bucketKey e.2 := by
    intro x mem same
    exact fresh (same ▸ h.keys x mem)
  constructor
  · rw [List.map_append, List.nodup_append]
    refine ⟨h.nodup, List.nodup_singleton _, ?_⟩
    intro x mem y last same
    apply fresh
    rwa [same, List.mem_singleton.mp last] at mem
  · intro x mem
    rw [List.map_append]
    obtain mem | mem := List.mem_append.mp mem
    · exact List.mem_append_left _ (h.keys x mem)
    · obtain rfl := List.mem_singleton.mp mem
      exact List.mem_append_right _ List.mem_cons_self
  · intro x mem
    obtain mem | mem := List.mem_append.mp mem
    · obtain ⟨first, earlier, made⟩ := h.made x mem
      have other : bucketKey e.2 ≠ x.1 := fun same => fresh (same ▸ List.mem_map_of_mem mem)
      refine ⟨first, ?_, ?_⟩
      · rw [List.find?_append, earlier]
        rfl
      · rw [sharing_concat_ne other, made]
    · obtain rfl := List.mem_singleton.mp mem
      have none : l.find? (fun x => bucketKey x.2 = bucketKey e.2) = none := by
        apply List.find?_eq_none.mpr
        intro x mem same
        exact apart x mem (of_decide_eq_true same)
      have alone : sharing l (bucketKey e.2) = ∅ := by
        apply Finset.eq_empty_of_forall_notMem
        intro topic mem
        obtain ⟨c, mem, same⟩ := mem_sharing.mp mem
        exact apart _ mem same
      refine ⟨e, ?_, ?_⟩
      · rw [List.find?_append, none]
        simp
      · rw [sharing_concat_eq rfl, alone]
        rfl

lemma buckets_foldl : Buckets l (l.foldl addToBucket []) := by
  induction l using List.reverseRecOn with
  | nil => exact ⟨List.nodup_nil, by simp, by simp⟩
  | append_singleton l e ih =>
    rw [List.foldl_concat, addToBucket]
    split
    · rename_i found
      exact ih.join found
    · rename_i missing
      exact ih.make missing

lemma mem_coalesce {ref : ChunkRef} (mem : ref ∈ coalesce l) :
    ∃ e ∈ l, l.find? (fun x => bucketKey x.2 = bucketKey e.2) = some e ∧
      ref = { e.2 with channelTopics := sharing l (bucketKey e.2) } := by
  obtain ⟨bucket, inside, rfl⟩ := List.mem_map.mp mem
  obtain ⟨e, found, made⟩ := buckets_foldl.made bucket inside
  have key : bucketKey e.2 = bucket.1 := by simpa using List.find?_some found
  exact ⟨e, List.mem_of_find?_eq_some found, key ▸ found, key ▸ made⟩

lemma coalesce_of_mem (mem : e ∈ l) : ∃ first,
    l.find? (fun x => bucketKey x.2 = bucketKey e.2) = some first ∧
      { first.2 with channelTopics := sharing l (bucketKey e.2) } ∈ coalesce l := by
  obtain ⟨bucket, inside, key⟩ := List.mem_map.mp (buckets_foldl.keys e mem)
  obtain ⟨first, found, made⟩ := buckets_foldl.made bucket inside
  rw [key] at found made
  exact ⟨first, found, List.mem_map.mpr ⟨bucket, inside, made⟩⟩

lemma coalesce_keys : ((coalesce l).map bucketKey).Nodup := by
  have keys : (coalesce l).map bucketKey = (l.foldl addToBucket []).map Prod.fst := by
    rw [coalesce, List.map_map]
    apply List.map_congr_left
    intro bucket mem
    obtain ⟨e, found, made⟩ := buckets_foldl.made bucket mem
    have key : bucketKey e.2 = bucket.1 := by simpa using List.find?_some found
    rw [Function.comp_apply, made, ← key]
    rfl
  rw [keys]
  exact buckets_foldl.nodup

lemma coalesce_nodup : (coalesce l).Nodup := coalesce_keys.of_map

lemma coalesce_places : ((coalesce l).map fun ref => (ref.fileID, ref.offset)).Nodup := by
  -- the key is computed from the place alone
  have keys := coalesce_keys (l := l)
  let key (place : Nat × Int) : BitVec 64 := (BitVec.ofNat 64 place.1 <<< 40) ^^^ BitVec.ofInt 64 place.2
  have through : (coalesce l).map bucketKey = ((coalesce l).map fun ref => (ref.fileID, ref.offset)).map key := by
    rw [List.map_map]
    rfl
  rw [through] at keys
  exact keys.of_map

lemma coalesce_filter (once : (l.map Prod.fst).Nodup) (mem : e ∈ l) : ∃ first ∈ l,
    l.find? (fun x => bucketKey x.2 = bucketKey e.2) = some first ∧ bucketKey first.2 = bucketKey e.2 ∧
      (coalesce l).filter (fun ref => e.1 ∈ ref.channelTopics) =
        [{ first.2 with channelTopics := sharing l (bucketKey e.2) }] := by
  obtain ⟨first, found, inside⟩ := coalesce_of_mem mem
  have key : bucketKey first.2 = bucketKey e.2 := by simpa using List.find?_some found
  refine ⟨first, List.mem_of_find?_eq_some found, found, key, ?_⟩
  have only : ∀ ref ∈ coalesce l, (e.1 ∈ ref.channelTopics ↔
      ref = { first.2 with channelTopics := sharing l (bucketKey e.2) }) := by
    intro ref there
    obtain ⟨other, -, found', rfl⟩ := mem_coalesce there
    constructor
    · intro shares
      obtain ⟨c, entry, same⟩ := mem_sharing.mp shares
      have own : c = e.2 := congrArg Prod.snd (List.inj_on_of_nodup_map once entry mem rfl)
      rw [← same, own, found] at found'
      obtain rfl := Option.some.inj found'
      rw [key]
    · intro same
      rw [same]
      exact mem_sharing.mpr ⟨e.2, mem, rfl⟩
  have single : (coalesce l).filter (fun ref => e.1 ∈ ref.channelTopics) = (coalesce l).filter
      (· = { first.2 with channelTopics := sharing l (bucketKey e.2) }) :=
    List.filter_congr fun ref there => by simpa using only ref there
  rw [single, List.filter_eq, List.count_eq_one_of_mem coalesce_nodup inside]
  rfl

end Coalesce

section Entries
variable {R : Runtime} {all : List ChunkRef} {startNs : Int} {seed : Finset String} {topic : String}
  {c : ChunkRef}

lemma mem_seedEntries : (topic, c) ∈ seedEntries R all startNs seed ↔
    topic ∈ seed ∧ bestByTopic all startNs seed topic = some c := by
  simp only [seedEntries, List.mem_filterMap, Runtime.mem_range, Finset.mem_filter,
    Option.map_eq_some_iff, Prod.mk.injEq]
  constructor
  · rintro ⟨_, ⟨mem, -⟩, _, best, rfl, rfl⟩
    exact ⟨mem, best⟩
  · rintro ⟨mem, best⟩
    exact ⟨topic, ⟨mem, by rw [best]; rfl⟩, c, best, rfl, rfl⟩

lemma seedEntries_nodup : ((seedEntries R all startNs seed).map Prod.fst).Nodup := by
  rw [seedEntries, List.map_filterMap]
  apply (R.range_nodup _).filterMap
  intro a b t ha hb
  simp only [Option.map_map, Option.mem_def, Option.map_eq_some_iff] at ha hb
  obtain ⟨_, -, rfl⟩ := ha
  obtain ⟨_, -, same⟩ := hb
  exact same.symm

lemma seedEntries_first (mem : topic ∈ seed) (best : bestByTopic all startNs seed topic = some c) :
    ∃ rest, seedEntries (R.first topic) all startNs seed = (topic, c) :: rest := by
  have inside : topic ∈ seed.filter fun t => (bestByTopic all startNs seed t).isSome :=
    Finset.mem_filter.mpr ⟨mem, by rw [best]; rfl⟩
  have order : (R.first topic).range (seed.filter fun t => (bestByTopic all startNs seed t).isSome) =
      topic :: R.range ((seed.filter fun t => (bestByTopic all startNs seed t).isSome).erase topic) :=
    if_pos inside
  simp only [seedEntries, order, List.filterMap_cons, best, Option.map_some]
  exact ⟨_, rfl⟩

end Entries

section Build
variable {R : Runtime} {plan : Plan} {ordered : List FileRecord} {indexes : List FileChunkIndex}
  {topicNames : List String} {startNs : Int}

@[simp] lemma buildLatchedSeed_chunks :
    (buildLatchedSeed R plan ordered indexes topicNames startNs).chunks = plan.chunks := by
  unfold buildLatchedSeed
  simp only
  split <;> rfl

lemma buildLatchedSeed_seedTopics (none : plan.seedTopics = ∅) :
    (buildLatchedSeed R plan ordered indexes topicNames startNs).seedTopics =
      missingTopics plan (allChunks indexes ordered) topicNames := by
  unfold buildLatchedSeed
  simp only
  split
  · rename_i empty
    rw [none, empty]
  · rfl

lemma buildLatchedSeed_seedChunks (none : plan.seedChunks = []) :
    (buildLatchedSeed R plan ordered indexes topicNames startNs).seedChunks.Perm
      (coalesce (seedEntries R (allChunks indexes ordered) startNs
        (missingTopics plan (allChunks indexes ordered) topicNames))) := by
  unfold buildLatchedSeed
  simp only
  split
  · rename_i empty
    have nothing : seedEntries R (allChunks indexes ordered) startNs ∅ = [] := by
      apply List.eq_nil_iff_forall_not_mem.mpr
      rintro ⟨topic, c⟩ mem
      exact Finset.notMem_empty _ (mem_seedEntries.mp mem).1
    rw [none, empty, nothing]
    exact List.Perm.refl _
  · rw [none, List.nil_append]
    exact R.slice_perm _ _

lemma buildLatchedSeed_before (none : plan.seedChunks = [])
    (some : (buildLatchedSeed R plan ordered indexes topicNames startNs).seedChunks ≠ []) :
    (buildLatchedSeed R plan ordered indexes topicNames startNs).seedBeforeNs = startNs := by
  unfold buildLatchedSeed at some ⊢
  simp only at some ⊢
  split at some
  · exact absurd none some
  · rename_i seed
    rw [if_neg seed]

end Build

/-! ## Each topic in its chunk -/

def location (c : ChunkRef) : Nat × Int × Int := (c.fileID, c.offset, c.length)

def lastBefore (chunks : List ChunkRef) (startNs : Int) (topic : String) : Option ChunkRef :=
  (chunks.filter fun c => c.startNs < startNs ∧ topic ∈ c.channelTopics).argmax ChunkRef.startNs

/-- Each topic that has a chunk is in one reference, which is for that chunk, and no two references are for the
    same place. -/
structure Faithful (chosen : String → Option ChunkRef) (seed : Finset String) (refs : List ChunkRef) : Prop where
  once : ∀ topic ∈ seed, ∀ c, chosen topic = some c →
    ∃ ref, refs.filter (fun r => topic ∈ r.channelTopics) = [ref] ∧ location ref = location c
  apart : (refs.map fun r => (r.fileID, r.offset)).Nodup

lemma Faithful.perm {chosen : String → Option ChunkRef} {seed : Finset String} {refs refs' : List ChunkRef}
    (faithful : Faithful chosen seed refs) (perm : refs'.Perm refs) : Faithful chosen seed refs' where
  once topic mem c chose := by
    obtain ⟨ref, only, same⟩ := faithful.once topic mem c chose
    have filtered := perm.filter fun r => decide (topic ∈ r.channelTopics)
    rw [only] at filtered
    exact ⟨ref, List.perm_singleton.mp filtered, same⟩
  apart := (perm.map _).nodup_iff.mpr faithful.apart

/-- Whatever the order in which the map is ranged over, the seed is faithful if and only if chunks with the same
    key that are chosen for two of its topics lie at the same place. -/
theorem seed_is_faithful_iff (plan : Plan) (none : plan.seedChunks = []) (ordered : List FileRecord)
    (indexes : List FileChunkIndex) (topicNames : List String) (startNs : Int) :
    (∀ R, Faithful (lastBefore (allChunks indexes ordered) startNs)
      (missingTopics plan (allChunks indexes ordered) topicNames)
      (buildLatchedSeed R plan ordered indexes topicNames startNs).seedChunks) ↔
    ∀ t ∈ missingTopics plan (allChunks indexes ordered) topicNames,
      ∀ t' ∈ missingTopics plan (allChunks indexes ordered) topicNames, ∀ c c',
        lastBefore (allChunks indexes ordered) startNs t = some c →
        lastBefore (allChunks indexes ordered) startNs t' = some c' →
        bucketKey c = bucketKey c' → location c = location c' := by
  generalize seeds : missingTopics plan (allChunks indexes ordered) topicNames = seed
  have best : ∀ t ∈ seed, bestByTopic (allChunks indexes ordered) startNs seed t =
      lastBefore (allChunks indexes ordered) startNs t := fun t want => bestByTopic_eq want
  have perm (R : Runtime) := @buildLatchedSeed_seedChunks R plan ordered indexes topicNames startNs none
  rw [seeds] at perm
  constructor
  · intro faithful t mem t' mem' c c' chose chose' key
    -- the other topic may be the first to be ranged over
    have entry : (t, c) ∈ seedEntries (Runtime.ordered.first t') (allChunks indexes ordered) startNs seed :=
      mem_seedEntries.mpr ⟨mem, (best t mem).trans chose⟩
    obtain ⟨rest, order⟩ := seedEntries_first (R := Runtime.ordered) mem' ((best t' mem').trans chose')
    obtain ⟨first, -, found, -, only⟩ := coalesce_filter seedEntries_nodup entry
    have head : first = (t', c') := by
      rw [order, List.find?_cons_of_pos (by simpa using key.symm)] at found
      exact (Option.some.inj found).symm
    obtain ⟨ref, only', same⟩ := ((faithful _).perm (perm _).symm).once t mem c chose
    obtain rfl := List.singleton_inj.mp (only.symm.trans only')
    rw [← same, head]
    rfl
  · intro apart R
    refine Faithful.perm ⟨fun t mem c chose => ?_, coalesce_places⟩ (perm R)
    have entry : (t, c) ∈ seedEntries R (allChunks indexes ordered) startNs seed :=
      mem_seedEntries.mpr ⟨mem, (best t mem).trans chose⟩
    obtain ⟨⟨t', c'⟩, inside, -, key, only⟩ := coalesce_filter seedEntries_nodup entry
    obtain ⟨mem', best'⟩ := mem_seedEntries.mp inside
    exact ⟨_, only, apart t' mem' t mem c' c ((best t' mem').symm.trans best') chose key⟩

def latchedFile (fileID : Nat) (offset : Int) (topic : String) : FileChunkIndex :=
  { fileID, chunks := [{ fileID, startNs := 1, endNs := 2, offset, length := 10, compression := "",
                         channelTopics := {topic}, messageCount := 1 }] }

def latchedFiles : List FileRecord := [⟨0, 1, 2⟩, ⟨1, 1, 2⟩]

theorem apart_seeds_are_faithful :
    Faithful (lastBefore (allChunks [latchedFile 0 8 "map", latchedFile 1 8 "tf"] latchedFiles) 5)
      (missingTopics {} (allChunks [latchedFile 0 8 "map", latchedFile 1 8 "tf"] latchedFiles) ["map", "tf"])
      (buildLatchedSeed .ordered {} latchedFiles [latchedFile 0 8 "map", latchedFile 1 8 "tf"] ["map", "tf"]
        5).seedChunks := by
  have apart : ∀ t ∈ missingTopics {} (allChunks [latchedFile 0 8 "map", latchedFile 1 8 "tf"] latchedFiles) ["map", "tf"],
      ∀ t' ∈ missingTopics {} (allChunks [latchedFile 0 8 "map", latchedFile 1 8 "tf"] latchedFiles) ["map", "tf"],
      ∀ c ∈ lastBefore (allChunks [latchedFile 0 8 "map", latchedFile 1 8 "tf"] latchedFiles) 5 t,
      ∀ c' ∈ lastBefore (allChunks [latchedFile 0 8 "map", latchedFile 1 8 "tf"] latchedFiles) 5 t',
        bucketKey c = bucketKey c' → location c = location c' := by decide +kernel
  refine (seed_is_faithful_iff {} rfl latchedFiles [latchedFile 0 8 "map", latchedFile 1 8 "tf"] ["map", "tf"] 5).mpr ?_
    .ordered
  exact fun t mem t' mem' c c' chose chose' => apart t mem t' mem' c chose c' chose'

/-- File 1 at the start and file 0 one tebibyte in have the same key: a topic is looked up in the other's chunk. -/
theorem shared_key_misplaces_topic :
    bucketKey ⟨0, 1, 2, 2 ^ 40, 10, "", {"map"}, 1⟩ = bucketKey ⟨1, 1, 2, 0, 10, "", {"tf"}, 1⟩ ∧
    ((buildLatchedSeed Runtime.ordered {} latchedFiles [latchedFile 0 (2 ^ 40) "map", latchedFile 1 0 "tf"]
      ["map", "tf"] 5).seedChunks.map fun r => (location r, r.channelTopics)) =
        [((0, 2 ^ 40, 10), {"map", "tf"})] := by
  decide +kernel

end PjCloud.Planning
