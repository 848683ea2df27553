import PjCloud.Lib.Lists
import PjCloud.Planning.Stream

/-!
# Recordings

What the files behind a session are, apart from the code. A `Recording` is a file with its catalog entry
and its summary, together with what its chunks hold; it is a value of the type only if the summary is
truthful. A `Selection` is a list of recordings that do not overlap. `Selection.walk` is every message of
a selection in the order of the plain reading: the files by start time, the chunks of a file in index
order, the records of a chunk in order.

The second half connects a recording to the code: its chunk index, its chunks in a plan (up to the message
counts, `ChunkRef.bare`) and the messages they stream.
-/

namespace PjCloud.Planning
open Lib Format

/-- A file whose summary is truthful: `contents` says what each chunk holds. -/
structure Recording (L : Library) where
  record : FileRecord
  info : Info
  object : Int → Int → Except String Bytes
  contents : ChunkIndex → List McapMessage
  /-- The bytes at the place of a chunk hold its messages. -/
  holds : ∀ ci ∈ info.chunkIndexes, ∃ chunkBytes,
    object (toInt64 ci.chunkStartOffset) (toInt64 ci.chunkLength) = .ok chunkBytes ∧
      Holds L chunkBytes (contents ci)
  /-- The bounds of a chunk enclose the log times of its messages. -/
  encloses : ∀ ci ∈ info.chunkIndexes, ∀ m ∈ contents ci,
    ci.messageStartTime ≤ m.logTime ∧ m.logTime ≤ ci.messageEndTime
  /-- The index of a chunk lists the channels of its messages. -/
  listed : ∀ ci ∈ info.chunkIndexes, ∀ m ∈ contents ci, m.channelID ∈ ci.messageIndexOffsets
  /-- Times are below `2^63`. -/
  timely : ∀ ci ∈ info.chunkIndexes, ci.messageStartTime < 2 ^ 63 ∧ ci.messageEndTime < 2 ^ 63

section Recording
variable {L : Library}

def Recording.messagesIn (r : Recording L) (ci : ChunkIndex) : List RawMessage :=
  (r.contents ci).filterMap (resolve (channelTable r.info))

def Recording.messages (r : Recording L) : List RawMessage :=
  r.info.chunkIndexes.flatMap r.messagesIn

/-- One file starts first and ends by the time the other starts. -/
def Recording.before (a b : Recording L) : Prop :=
  a.record.startTimeNs < b.record.startTimeNs ∧ a.record.endTimeNs ≤ b.record.startTimeNs

end Recording

/-- Recordings of different files that do not overlap in time. -/
structure Selection (L : Library) where
  recordings : List (Recording L)
  disjoint : recordings.Pairwise fun a b => a.before b ∨ b.before a
  distinct : (recordings.map fun r => r.record.id).Nodup

section Selection
variable {L : Library}

def Selection.byStart (sel : Selection L) : List (Recording L) :=
  sel.recordings.insertionSort fun a b => a.record.startTimeNs ≤ b.record.startTimeNs

def Selection.walk (sel : Selection L) : List RawMessage := sel.byStart.flatMap Recording.messages

def PlanArgs.asks (args : PlanArgs) (m : RawMessage) : Bool :=
  (args.topicNames = [] || m.topic ∈ args.topicNames) && TimeWindow.admits args.timeRange m.logTimeNs

def fits (opts : ProducerOpts) (m : RawMessage) : Bool := (m.payload.length : Int) ≤ opts.maxMessageBytes

def Selection.files (sel : Selection L) : List FileRecord := sel.recordings.map Recording.record

def Selection.find (sel : Selection L) (id : Nat) : Option (Recording L) :=
  sel.recordings.find? fun r => r.record.id = id

def Recording.index (R : Runtime) (r : Recording L) : FileChunkIndex :=
  chunkIndexFromInfo R r.info r.record.id

def Selection.indexes (R : Runtime) (sel : Selection L) : List FileChunkIndex :=
  sel.recordings.map (Recording.index R)

def Selection.loaded (R : Runtime) (sel : Selection L) (args : PlanArgs) : List FileChunkIndex :=
  loadIndexes sel.files (fun id => ((sel.find id).map (Recording.index R)).getD { fileID := id }) args

/-- `blobChunkReader.ReadChunk` over the objects of the selection. -/
def Selection.readChunk (sel : Selection L) (ref : ChunkRef) : Except String Bytes :=
  match sel.find ref.fileID with
  | none =>
    let id := ref.fileID
    .error s!"session: no object key for file {id}"
  | some r => r.object ref.offset ref.length

/-- What is left open around a session: its configuration, the encoders and the ages of batches. -/
structure Setting where
  cfg : SessionConfig
  codec : Codec
  aged : Nat → Bool

/-- The producer that `openFresh` sets up for a plan. -/
def Selection.producer (R : Runtime) (sel : Selection L) (indexes : List FileChunkIndex) (plan : Plan)
    (args : PlanArgs) (env : Setting) : Producer where
  plan := plan
  indexes := indexes
  readChunk := sel.readChunk
  opts := producerOpts env.cfg.withSessionDefaults args.timeRange
  bindings := assignBindings R (firstSchemas [] (fileSchemas indexes)) (planTopicSet plan)
  library := L
  codec := env.codec
  aged := env.aged

end Selection

section Files
variable {L : Library} {R : Runtime} {sel : Selection L} {r : Recording L}

lemma Selection.byStart_perm : sel.byStart.Perm sel.recordings := List.perm_insertionSort _ _

@[simp] lemma Selection.mem_byStart : r ∈ sel.byStart ↔ r ∈ sel.recordings :=
  sel.byStart_perm.mem_iff

lemma Selection.byStart_nil (empty : sel.recordings = []) : sel.byStart = [] := by
  rw [Selection.byStart, empty, List.insertionSort_nil]

lemma Selection.walk_nil (empty : sel.recordings = []) : sel.walk = [] := by
  rw [Selection.walk, sel.byStart_nil empty, List.flatMap_nil]

lemma Selection.byStart_sorted : sel.byStart.Pairwise Recording.before := by
  have total : Std.Total fun a b : Recording L => a.record.startTimeNs ≤ b.record.startTimeNs :=
    ⟨fun a b => le_total a.record.startTimeNs b.record.startTimeNs⟩
  have trans : IsTrans (Recording L) fun a b => a.record.startTimeNs ≤ b.record.startTimeNs :=
    ⟨fun _ _ _ => le_trans⟩
  have sorted := List.pairwise_insertionSort (fun a b : Recording L =>
    a.record.startTimeNs ≤ b.record.startTimeNs) sel.recordings
  have disjoint := (sel.byStart_perm.pairwise_iff fun h => h.symm).mpr sel.disjoint
  apply (sorted.and disjoint).imp
  rintro a b ⟨le, h | h⟩
  · exact h
  · exact absurd h.1 (not_lt.mpr le)

/-- There is only one order for `buildPlan` to find. -/
lemma Selection.slice_files :
    R.slice FileRecord.startTimeNs sel.files = sel.byStart.map Recording.record := by
  apply Runtime.slice_eq (sel.byStart_perm.map _)
  apply List.pairwise_map.mpr
  exact sel.byStart_sorted.imp fun h => h.1

lemma firstOverlap_none : ∀ {l : List (Recording L)}, l.Pairwise Recording.before →
    firstOverlap (l.map Recording.record) = none
  | [], _ => rfl
  | [_], _ => rfl
  | a :: b :: rest, sorted => by
    obtain ⟨first, sorted⟩ := List.pairwise_cons.mp sorted
    have apart : ¬ b.record.startTimeNs < a.record.endTimeNs :=
      not_lt.mpr (first b List.mem_cons_self).2
    rw [List.map_cons, List.map_cons, firstOverlap, if_neg apart]
    exact firstOverlap_none sorted

lemma Selection.find_id (mem : r ∈ sel.recordings) : sel.find r.record.id = some r :=
  find_of_nodup sel.distinct mem

def Selection.loadWith (R : Runtime) (sel : Selection L) (skip : Recording L → Bool) :
    List FileChunkIndex :=
  sel.recordings.map fun r => if skip r then { fileID := r.record.id } else r.index R

lemma Selection.idxByFile_loadWith {skip : Recording L → Bool} (mem : r ∈ sel.recordings) :
    idxByFile (sel.loadWith R skip) r.record.id =
      some (if skip r then { fileID := r.record.id } else r.index R) := by
  have stamped : ∀ r : Recording L,
      (if skip r then { fileID := r.record.id } else r.index R : FileChunkIndex).fileID = r.record.id := by
    intro r
    split
    · rfl
    · exact chunkIndexFromInfo_fileID
  have ids : ((sel.loadWith R skip).reverse.map FileChunkIndex.fileID).Nodup := by
    rw [List.map_reverse, List.nodup_reverse, Selection.loadWith, List.map_map]
    simpa only [Function.comp_def, stamped] using sel.distinct
  have found := find_of_nodup ids (List.mem_reverse.mpr (List.mem_map_of_mem mem))
  rwa [stamped] at found

lemma Selection.indexes_eq : sel.indexes R = sel.loadWith R fun _ => false := rfl

lemma Selection.loaded_eq {args : PlanArgs} : sel.loaded R args =
    sel.loadWith R fun r => r.record.skipped args.timeRange args.includeLatched := by
  unfold Selection.loaded loadIndexes Selection.files
  rw [List.map_map]
  apply List.map_congr_left
  intro r mem
  simp only [Function.comp, sel.find_id mem, Option.map_some, Option.getD_some]

end Files

section Chunks
variable {L : Library} {R : Runtime} {sel : Selection L} {r : Recording L} {ci : ChunkIndex}
  {m : RawMessage}

def Recording.ref (r : Recording L) (ci : ChunkIndex) : ChunkRef :=
  chunkRef (channelTable r.info) r.record.id ci

lemma Recording.ref_fileID : (r.ref ci).fileID = r.record.id := rfl

lemma Recording.mem_messagesIn (mem : m ∈ r.messagesIn ci) :
    ∃ held ∈ r.contents ci, ∃ ch, (channelTable r.info).lookup held.channelID = some ch ∧
      rawMessage ch held = m := by
  obtain ⟨held, mem, resolved⟩ := List.mem_filterMap.mp mem
  obtain ⟨ch, found, raw⟩ := Option.map_eq_some_iff.mp resolved
  exact ⟨held, mem, ch, found, raw⟩

lemma Recording.ref_encloses (chunk : ci ∈ r.info.chunkIndexes) (mem : m ∈ r.messagesIn ci) :
    (r.ref ci).startNs ≤ m.logTimeNs ∧ m.logTimeNs ≤ (r.ref ci).endNs := by
  obtain ⟨held, inside, ch, -, rfl⟩ := Recording.mem_messagesIn mem
  obtain ⟨lower, upper⟩ := r.encloses ci chunk held inside
  obtain ⟨start, finish⟩ := r.timely ci chunk
  change toInt64 ci.messageStartTime ≤ toInt64 held.logTime ∧
    toInt64 held.logTime ≤ toInt64 ci.messageEndTime
  rw [toInt64_of_lt start, toInt64_of_lt finish, toInt64_of_lt (upper.trans_lt finish)]
  omega

lemma Recording.logTime_nonneg (chunk : ci ∈ r.info.chunkIndexes) (mem : m ∈ r.messagesIn ci) :
    0 ≤ m.logTimeNs := by
  have lower := (r.ref_encloses chunk mem).1
  have start : (r.ref ci).startNs = ci.messageStartTime := toInt64_of_lt (r.timely ci chunk).1
  omega

lemma Recording.ref_carries (chunk : ci ∈ r.info.chunkIndexes) (mem : m ∈ r.messagesIn ci) :
    m.topic ∈ (r.ref ci).channelTopics := by
  obtain ⟨held, inside, ch, found, rfl⟩ := Recording.mem_messagesIn mem
  apply List.mem_toFinset.mpr
  apply List.mem_filterMap.mpr
  exact ⟨held.channelID, r.listed ci chunk held inside, by rw [found]; rfl⟩

lemma Recording.topic_schema (mem : m ∈ r.messagesIn ci) :
    m.topic ∈ (r.index R).schemas.map TopicSchemaInfo.topicName := by
  obtain ⟨held, -, ch, found, rfl⟩ := Recording.mem_messagesIn mem
  have entry : (held.channelID, ch) ∈ channelTable r.info := by
    obtain ⟨before, after, split, -⟩ := List.lookup_eq_some_iff.mp found
    rw [split]
    exact List.mem_append_right _ List.mem_cons_self
  obtain ⟨source, channel, same⟩ := List.mem_map.mp entry
  obtain ⟨-, rfl⟩ := Prod.mk.inj same
  obtain ⟨ts, known, name⟩ := List.mem_map.mp (topic_mem_topicSchemas channel)
  unfold Recording.index
  rw [chunkIndexFromInfo_schemas]
  exact List.mem_map.mpr ⟨ts, Runtime.mem_slice.mpr known, name⟩

lemma Recording.mem_messages :
    m ∈ r.messages ↔ ∃ ci ∈ r.info.chunkIndexes, m ∈ r.messagesIn ci :=
  List.mem_flatMap

lemma Recording.index_bare :
    (r.index R).chunks.map ChunkRef.bare = r.info.chunkIndexes.map r.ref :=
  chunkIndexFromInfo_bare

lemma Recording.streams {p : Producer} {tr : Option TimeWindow} {ref : ChunkRef}
    (read : p.readChunk = sel.readChunk) (mem : r ∈ sel.recordings)
    (library : p.library = L) (index : idxByFile p.indexes r.record.id = some (r.index R))
    (chunk : ci ∈ r.info.chunkIndexes) (file : ref.fileID = r.record.id)
    (offset : ref.offset = (r.ref ci).offset) (length : ref.length = (r.ref ci).length) :
    Streams p tr ref ((r.messagesIn ci).filter (ChunkRef.wants ref tr)) := by
  obtain ⟨chunkBytes, bytes, holds⟩ := r.holds ci chunk
  refine ⟨chunkBytes, r.index R, r.contents ci, ?_, ?_, ?_, ?_⟩
  · rw [read, Selection.readChunk, file, sel.find_id mem, offset, length]
    exact bytes
  · rw [file]
    exact index
  · rw [library]
    exact holds
  · unfold Recording.index
    rw [chunkIndexFromInfo_channels]
    rfl

end Chunks

end PjCloud.Planning
