import Mathlib.Algebra.BigOperators.Group.Finset.Basic
import PjCloud.Format.Records
import PjCloud.Lib.Runtime

/-!
# Chunk indexes

`server/internal/format/chunks.go` above the byte level: the chunk index of a file, built from the file's
summary (`chunkIndexFromInfo`, `fillEstimatedCounts`), the selection of chunks for a session
(`planChunks`) and the iteration over one fetched chunk (`iterate`).

A Go set of topics is a `Finset String`. The maps of the summary are lists of pairs in any order, since
a Go map is ranged over in any order. `iterate_messages` says what `iterate` emits for a chunk whose
bytes hold a given list of messages.
-/

namespace PjCloud.Format
open Lib

/-- A half-open range of time. -/
structure TimeWindow where
  startNs : Int
  endNs : Int
  deriving DecidableEq, Repr

/-- A log time is inside an optional window. -/
def TimeWindow.admits (tr : Option TimeWindow) (logTimeNs : Int) : Bool :=
  match tr with
  | none => true
  | some w => w.startNs ≤ logTimeNs && logTimeNs < w.endNs

/-- A topic with its schema and encodings. -/
structure TopicSchemaInfo where
  topicName : String
  schemaName : String
  schemaEncoding : String
  schemaData : Bytes
  messageEncoding : String
  deriving DecidableEq, Repr

/-- A chunk of a file and the topics in it that the session wants. `endNs` is inclusive. -/
structure ChunkRef where
  fileID : Nat
  startNs : Int
  endNs : Int
  offset : Int
  length : Int
  compression : String
  channelTopics : Finset String
  messageCount : Nat
  deriving DecidableEq

/-- A message as the producer gets it. -/
structure RawMessage where
  topic : String
  schemaName : String
  schemaEncoding : String
  messageEncoding : String
  logTimeNs : Int
  publishTimeNs : Int
  payload : Bytes
  deriving DecidableEq, Repr

/-- What a channel id stands for in a file. -/
structure ChannelInfo where
  topic : String
  schemaName : String
  schemaEncoding : String
  messageEncoding : String
  deriving DecidableEq, Repr

/-- The message counts of a chunk by topic, where they are known. -/
structure ChunkCounts where
  exact : Bool
  perTopic : String → Nat

/-- The chunk index of a file with its channel and schema tables. -/
structure FileChunkIndex where
  fileID : Nat
  chunks : List ChunkRef := []
  schemas : List TopicSchemaInfo := []
  channels : List (Nat × ChannelInfo) := []
  chunkCounts : List ChunkCounts := []

/-- `mcap.Channel`. -/
structure Channel where
  topic : String
  messageEncoding : String
  schemaID : Nat
  deriving DecidableEq, Repr

/-- `mcap.Schema`. -/
structure Schema where
  name : String
  encoding : String
  data : Bytes
  deriving DecidableEq, Repr

/-- `mcap.ChunkIndex`; of the message index offsets only the channel ids are read. -/
structure ChunkIndex where
  messageStartTime : Nat
  messageEndTime : Nat
  chunkStartOffset : Nat
  chunkLength : Nat
  compression : String
  messageIndexOffsets : List Nat
  deriving DecidableEq, Repr

/-- The summary of a file (`mcap.Info`). -/
structure Info where
  channels : List (Nat × Channel)
  schemas : List (Nat × Schema)
  chunkIndexes : List ChunkIndex
  channelMessageCounts : Option (List (Nat × Nat))
  deriving DecidableEq, Repr

/-- The entry of a channel in the global table. -/
def channelInfo (info : Info) (ch : Channel) : ChannelInfo where
  topic := ch.topic
  schemaName := ((info.schemas.lookup ch.schemaID).map Schema.name).getD ""
  schemaEncoding := ((info.schemas.lookup ch.schemaID).map Schema.encoding).getD ""
  messageEncoding := ch.messageEncoding

def channelTable (info : Info) : List (Nat × ChannelInfo) :=
  info.channels.map fun ch => (ch.1, channelInfo info ch.2)

/-- The schema entry that a channel makes for its topic. -/
def topicSchema (info : Info) (ch : Channel) : TopicSchemaInfo where
  topicName := ch.topic
  schemaName := (channelInfo info ch).schemaName
  schemaEncoding := (channelInfo info ch).schemaEncoding
  schemaData := ((info.schemas.lookup ch.schemaID).map Schema.data).getD []
  messageEncoding := ch.messageEncoding

def topicSchemas (info : Info) : List TopicSchemaInfo :=
  info.channels.foldl (fun seen ch =>
    if seen.any (·.topicName = ch.2.topic) then seen else seen ++ [topicSchema info ch.2]) []

/-- The reference to a chunk. Channel ids that the table does not have are left out. -/
def chunkRef (channels : List (Nat × ChannelInfo)) (fileID : Nat) (ci : ChunkIndex) : ChunkRef where
  fileID := fileID
  startNs := toInt64 ci.messageStartTime
  endNs := toInt64 ci.messageEndTime
  offset := toInt64 ci.chunkStartOffset
  length := toInt64 ci.chunkLength
  compression := ci.compression
  channelTopics :=
    (ci.messageIndexOffsets.filterMap fun id => (channels.lookup id).map ChannelInfo.topic).toFinset
  messageCount := 0

def topicTotal (channels : List (Nat × ChannelInfo)) (counts : List (Nat × Nat)) (topic : String) : Nat :=
  uint64 ((counts.filter fun c =>
    (channels.lookup c.1).map ChannelInfo.topic = some topic).map Prod.snd).sum

def topicChunks (chunks : List ChunkRef) (topic : String) : Nat :=
  chunks.countP fun c => topic ∈ c.channelTopics

/-- The estimates of the chunks in order. `remainder` is what is left to hand out one by one. -/
def shareOut (total carriers : String → Nat) :
    (String → Nat) → List ChunkRef → List (ChunkRef × ChunkCounts)
  | _, [] => []
  | remainder, ref :: rest =>
    let counted := ref.channelTopics.filter fun topic => carriers topic ≠ 0
    let share := fun topic => total topic / carriers topic + if remainder topic > 0 then 1 else 0
    let left := fun topic =>
      if topic ∈ counted ∧ remainder topic > 0 then remainder topic - 1 else remainder topic
    ({ ref with messageCount := uint64 (∑ topic ∈ counted, share topic) },
      { exact := true, perTopic := fun topic => if topic ∈ counted then share topic else 0 }) ::
      shareOut total carriers left rest

/-- Estimate the counts of each chunk from the counts of the file. -/
def fillEstimatedCounts (idx : FileChunkIndex) (info : Info) : FileChunkIndex :=
  match info.channelMessageCounts with
  | none => { idx with chunkCounts := idx.chunks.map fun _ => { exact := false, perTopic := fun _ => 0 } }
  | some counts =>
    let total := topicTotal idx.channels counts
    let carriers := topicChunks idx.chunks
    let remainder := fun topic => if carriers topic > 0 then total topic % carriers topic else 0
    let shared := shareOut total carriers remainder idx.chunks
    { idx with chunks := shared.map Prod.fst, chunkCounts := shared.map Prod.snd }

/-- The chunk index of a file from its summary. -/
def chunkIndexFromInfo (R : Runtime) (info : Info) (fileID : Nat) : FileChunkIndex :=
  fillEstimatedCounts
    { fileID := fileID
      channels := channelTable info
      schemas := R.slice TopicSchemaInfo.topicName (topicSchemas info)
      chunks := info.chunkIndexes.map (chunkRef (channelTable info) fileID) }
    info

/-- A chunk has no message in the window: it ends before the start, or starts at or after the end. -/
def ChunkRef.outside (c : ChunkRef) (tr : Option TimeWindow) : Bool :=
  match tr with
  | none => false
  | some w => c.endNs < w.startNs || c.startNs ≥ w.endNs

lemma ChunkRef.reaches {c : ChunkRef} {tr : Option TimeWindow} {t : Int} (lower : c.startNs ≤ t)
    (upper : t ≤ c.endNs) (inside : TimeWindow.admits tr t) : c.outside tr = false := by
  cases tr with
  | none => rfl
  | some w =>
    simp only [TimeWindow.admits, Bool.and_eq_true, decide_eq_true_eq] at inside
    simp only [ChunkRef.outside, Bool.or_eq_false_iff, decide_eq_false_iff_not]
    omega

def ChunkRef.selected (c : ChunkRef) (topics : List String) : Finset String :=
  c.channelTopics.filter fun topic => topics = [] ∨ topic ∈ topics

/-- The chunks that a session has to fetch, each narrowed to the selected topics. -/
def planChunks (idx : FileChunkIndex) (topics : List String) (tr : Option TimeWindow) : List ChunkRef :=
  idx.chunks.zipIdx.filterMap fun (c, i) =>
    if c.outside tr then
      none
    else if c.selected topics = ∅ then
      none
    else
      let counts := idx.chunkCounts.getD i { exact := false, perTopic := fun _ => 0 }
      let messageCount :=
        if counts.exact then uint64 (∑ topic ∈ c.selected topics, counts.perTopic topic)
        else c.messageCount
      some { c with channelTopics := c.selected topics, messageCount := messageCount }

section Bare
variable {R : Runtime} {info : Info} {fileID : Nat} {idx : FileChunkIndex} {topics : List String}
  {tr : Option TimeWindow}

def ChunkRef.bare (c : ChunkRef) : ChunkRef := { c with messageCount := 0 }

lemma ChunkRef.bare_fileID {c : ChunkRef} : c.bare.fileID = c.fileID := rfl

lemma ChunkRef.bare_offset {c : ChunkRef} : c.bare.offset = c.offset := rfl

lemma ChunkRef.bare_length {c : ChunkRef} : c.bare.length = c.length := rfl

lemma shareOut_bare {total carriers : String → Nat} {chunks : List ChunkRef} : ∀ {remainder},
    ((shareOut total carriers remainder chunks).map Prod.fst).map ChunkRef.bare =
      chunks.map ChunkRef.bare := by
  induction chunks with
  | nil =>
    intro remainder
    rfl
  | cons ref rest ih =>
    intro remainder
    simp only [shareOut, List.map_cons, ih]
    rfl

lemma chunkIndexFromInfo_bare :
    (chunkIndexFromInfo R info fileID).chunks.map ChunkRef.bare =
      info.chunkIndexes.map (chunkRef (channelTable info) fileID) := by
  have bare : (info.chunkIndexes.map (chunkRef (channelTable info) fileID)).map ChunkRef.bare =
      info.chunkIndexes.map (chunkRef (channelTable info) fileID) := by
    rw [List.map_map]
    apply List.map_congr_left
    intro ci _
    simp only [Function.comp, ChunkRef.bare, chunkRef]
  unfold chunkIndexFromInfo fillEstimatedCounts
  split
  · exact bare
  · exact shareOut_bare.trans bare

@[simp] lemma chunkIndexFromInfo_fileID : (chunkIndexFromInfo R info fileID).fileID = fileID := by
  unfold chunkIndexFromInfo fillEstimatedCounts
  split <;> rfl

@[simp] lemma chunkIndexFromInfo_channels :
    (chunkIndexFromInfo R info fileID).channels = channelTable info := by
  unfold chunkIndexFromInfo fillEstimatedCounts
  split <;> rfl

@[simp] lemma chunkIndexFromInfo_schemas :
    (chunkIndexFromInfo R info fileID).schemas =
      R.slice TopicSchemaInfo.topicName (topicSchemas info) := by
  unfold chunkIndexFromInfo fillEstimatedCounts
  split <;> rfl

def ChunkRef.narrow (topics : List String) (tr : Option TimeWindow) (c : ChunkRef) : Option ChunkRef :=
  if c.outside tr ∨ c.selected topics = ∅ then none
  else some { c with channelTopics := c.selected topics }

lemma planChunks_bare : (planChunks idx topics tr).map ChunkRef.bare =
    (idx.chunks.map ChunkRef.bare).filterMap (ChunkRef.narrow topics tr) := by
  have fst : idx.chunks.map ChunkRef.bare = idx.chunks.zipIdx.map fun x => x.1.bare := by
    rw [← Function.comp_def ChunkRef.bare Prod.fst, ← List.map_map, List.zipIdx_map_fst]
  rw [fst, planChunks, List.map_filterMap, List.filterMap_map]
  apply List.filterMap_congr
  rintro ⟨c, i⟩ -
  have same : c.bare.outside tr = c.outside tr ∧ c.bare.selected topics = c.selected topics := ⟨rfl, rfl⟩
  simp only [Function.comp, ChunkRef.narrow, same]
  by_cases out : c.outside tr = true
  · simp [out]
  · by_cases none : c.selected topics = ∅ <;> simp [out, none, ChunkRef.bare]

lemma topic_mem_topicSchemas {ch : Nat × Channel} (mem : ch ∈ info.channels) :
    ch.2.topic ∈ (topicSchemas info).map TopicSchemaInfo.topicName := by
  -- entries stay, and a channel whose topic has none makes one
  have stays : ∀ {l : List (Nat × Channel)} {seen : List TopicSchemaInfo} {topic : String},
      topic ∈ seen.map TopicSchemaInfo.topicName ∨ topic ∈ l.map (fun ch => ch.2.topic) →
      topic ∈ (l.foldl (fun seen ch => if seen.any (·.topicName = ch.2.topic) then seen
        else seen ++ [topicSchema info ch.2]) seen).map TopicSchemaInfo.topicName := by
    intro l
    induction l with
    | nil =>
      intro seen topic h
      simpa using h
    | cons ch rest ih =>
      intro seen topic h
      rw [List.foldl_cons]
      apply ih
      rw [List.map_cons, List.mem_cons, ← or_assoc] at h
      refine h.imp_left ?_
      split
      · rename_i found
        rintro (h | rfl)
        · exact h
        · simpa using found
      · rintro (h | rfl)
        · exact List.mem_map.mpr ((List.mem_map.mp h).imp fun ts h => ⟨List.mem_append_left _ h.1, h.2⟩)
        · simp [topicSchema]
  exact stays (Or.inr (List.mem_map.mpr ⟨ch, mem, rfl⟩))

end Bare

section Iterate
variable {σ : Type} {emit : σ → RawMessage → σ × Option String} {L : Library}

/-- A message with its channel resolved. -/
def rawMessage (ci : ChannelInfo) (m : McapMessage) : RawMessage where
  topic := ci.topic
  schemaName := ci.schemaName
  schemaEncoding := ci.schemaEncoding
  messageEncoding := ci.messageEncoding
  logTimeNs := toInt64 m.logTime
  publishTimeNs := toInt64 m.publishTime
  payload := m.data

/-- What the loop of `iterate` does with one record. -/
def visitRecord (L : Library) (idx : FileChunkIndex) (ref : ChunkRef) (tr : Option TimeWindow)
    (emit : σ → RawMessage → σ × Option String) (s : σ) (op : UInt8) (body : Bytes) :
    σ × Option String :=
  if op ≠ opMessage then
    (s, none)
  else
    match L.parseMessage body with
    | .error e => (s, some ("format: parse message: " ++ e))
    | .ok m =>
      match idx.channels.lookup m.channelID with
      | none => (s, none)
      | some ci =>
        if ci.topic ∉ ref.channelTopics then (s, none)
        else if !TimeWindow.admits tr (toInt64 m.logTime) then (s, none)
        else emit s (rawMessage ci m)

/-- Emit the messages of a fetched chunk that the session wants. -/
def iterate (L : Library) (idx : FileChunkIndex) (chunkBytes : Bytes) (ref : ChunkRef)
    (tr : Option TimeWindow) (emit : σ → RawMessage → σ × Option String) (s : σ) : σ × Outcome :=
  match decodeChunkRecords L chunkBytes with
  | .error outcome => (s, outcome)
  | .ok records => walk (visitRecord L idx ref tr emit) records (records.length + 1) 0 s

/-- The messages among the records, in order. -/
inductive Messages (L : Library) : List (UInt8 × Bytes) → List McapMessage → Prop where
  | nil : Messages L [] []
  | other {op body recs ms} : op ≠ opMessage → Messages L recs ms → Messages L ((op, body) :: recs) ms
  | message {body m recs ms} :
    L.parseMessage body = .ok m →
    Messages L recs ms →
    Messages L ((opMessage, body) :: recs) (m :: ms)

/-- The bytes are a chunk that holds these messages. -/
def Holds (L : Library) (chunkBytes : Bytes) (ms : List McapMessage) : Prop :=
  ∃ stream recs, decodeChunkRecords L chunkBytes = .ok stream ∧ stream.length < 2 ^ 63 ∧
    Framed stream recs ∧ Messages L recs ms

def resolve (channels : List (Nat × ChannelInfo)) (m : McapMessage) : Option RawMessage :=
  (channels.lookup m.channelID).map fun ci => rawMessage ci m

/-- The filter of `iterate`. -/
def ChunkRef.wants (ref : ChunkRef) (tr : Option TimeWindow) (m : RawMessage) : Bool :=
  m.topic ∈ ref.channelTopics && TimeWindow.admits tr m.logTimeNs

/-- Emit a list of messages until one fails. -/
def feed (emit : σ → RawMessage → σ × Option String) : List RawMessage → σ → σ × Outcome
  | [], s => (s, .ok)
  | m :: ms, s =>
    match emit s m with
    | (s, some e) => (s, .error e)
    | (s, none) => feed emit ms s

lemma visitRecord_message {idx ref tr s body m} (parsed : L.parseMessage body = .ok m) :
    visitRecord L idx ref tr emit s opMessage body =
      match (resolve idx.channels m).filter (ChunkRef.wants ref tr) with
      | none => (s, none)
      | some raw => emit s raw := by
  unfold visitRecord resolve ChunkRef.wants
  rw [if_neg (by simp), parsed]
  cases found : idx.channels.lookup m.channelID with
  | none => simp [found]
  | some ci =>
    by_cases topic : ci.topic ∈ ref.channelTopics <;>
      cases inside : TimeWindow.admits tr (toInt64 m.logTime) <;>
      simp [found, topic, inside, rawMessage, Option.filter]

lemma visitAll_messages {idx ref tr recs ms} (messages : Messages L recs ms) :
    ∀ {s}, visitAll (visitRecord L idx ref tr emit) recs s =
      feed emit ((ms.filterMap (resolve idx.channels)).filter (ChunkRef.wants ref tr)) s := by
  induction messages with
  | nil =>
    intro s
    rfl
  | other different _ ih =>
    intro s
    rw [visitAll, visitRecord, if_pos different]
    exact ih
  | @message body m recs ms parsed _ ih =>
    intro s
    rw [visitAll, visitRecord_message parsed, List.filterMap_cons]
    cases resolve idx.channels m with
    | none => exact ih
    | some raw =>
      cases want : ChunkRef.wants ref tr raw with
      | true =>
        rw [Option.filter_some_pos want, List.filter_cons_of_pos want, feed]
        obtain ⟨⟨s', failed⟩, called⟩ : ∃ next, next = emit s raw := ⟨_, rfl⟩
        simp only [← called]
        cases failed with
        | none => exact ih
        | some err => rfl
      | false =>
        rw [Option.filter_some_neg want, List.filter_cons_of_neg (by simp [want])]
        exact ih

/-- On a chunk that holds the messages, `iterate` emits the wanted ones in order. -/
lemma iterate_messages {idx ref tr s chunkBytes ms} (holds : Holds L chunkBytes ms) :
    iterate L idx chunkBytes ref tr emit s =
      feed emit ((ms.filterMap (resolve idx.channels)).filter (ChunkRef.wants ref tr)) s := by
  obtain ⟨stream, recs, decoded, small, framed, messages⟩ := holds
  rw [iterate, decoded, ← visitAll_messages messages]
  exact walk_framed [] framed small (Nat.lt_succ_self _)

end Iterate

end PjCloud.Format
