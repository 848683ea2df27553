import Mathlib.Data.Prod.Lex
import PjCloud.Format.Chunks

/-!
# Session plans

`server/internal/session/plan.go`: `buildPlan` orders the selected files by start time, refuses files that
overlap, and lists the chunks that the session has to fetch; `buildLatchedSeed` adds the chunks from
before the window that hold the last value of the topics missing in it.

`sort.Slice` and the order in which a map is ranged over are the `Runtime`'s.
-/

namespace PjCloud.Planning
open Lib Format

/-- A file as the catalog knows it. -/
structure FileRecord where
  id : Nat
  startTimeNs : Int
  endTimeNs : Int
  deriving DecidableEq, Repr

/-- What a session asks for (`PlanArgs`). -/
structure PlanArgs where
  topicNames : List String
  timeRange : Option TimeWindow
  includeLatched : Bool
  deriving DecidableEq, Repr

/-- The chunks to fetch with the estimates for the client. -/
structure Plan where
  chunks : List ChunkRef := []
  estimatedChunkBytes : Nat := 0
  approximateMessages : Nat := 0
  mergedStartNs : Int := 0
  mergedEndNs : Int := 0
  seedChunks : List ChunkRef := []
  seedTopics : Finset String := ∅
  seedBeforeNs : Int := 0
  deriving DecidableEq

def Plan.empty (p : Plan) : Bool := p.chunks.isEmpty && p.seedChunks.isEmpty

/-- Why a selection is refused. -/
inductive PlanError where
  | invalidTimeRange (endNs startNs : Int)
  | overlap (prev next : FileRecord)
  deriving DecidableEq, Repr

/-- The text of a refusal. -/
def PlanError.message : PlanError → String
  | .invalidTimeRange endNs startNs => s!"invalid time range: end {endNs} < start {startNs}"
  | .overlap prev next =>
    let (prevID, prevEnd) := (prev.id, prev.endTimeNs)
    let (nextID, nextStart) := (next.id, next.startTimeNs)
    s!"overlapping file time ranges: file {prevID} ends at {prevEnd}, file {nextID} starts at {nextStart}"

/-- `ErrIsOverlap`. -/
def PlanError.isOverlap : PlanError → Bool
  | .overlap _ _ => true
  | _ => false

/-- The conversion from `int64` to `uint64`. -/
def toUint64 (n : Int) : Nat := (n % 2 ^ 64).toNat

/-- The first two neighbours of which the second starts before the first ends. -/
def firstOverlap : List FileRecord → Option (FileRecord × FileRecord)
  | a :: b :: rest =>
    if b.startTimeNs < a.endTimeNs then some (a, b) else firstOverlap (b :: rest)
  | _ => none

def idxByFile (indexes : List FileChunkIndex) (id : Nat) : Option FileChunkIndex :=
  indexes.reverse.find? fun ix => ix.fileID = id

def chunkTopics (chunks : List ChunkRef) : Finset String :=
  chunks.foldr (fun c topics => c.channelTopics ∪ topics) ∅

@[simp] lemma mem_chunkTopics {chunks : List ChunkRef} {topic : String} :
    topic ∈ chunkTopics chunks ↔ ∃ c ∈ chunks, topic ∈ c.channelTopics := by
  induction chunks with
  | nil => simp [chunkTopics]
  | cons c rest ih =>
    change topic ∈ c.channelTopics ∪ chunkTopics rest ↔ _
    rw [Finset.mem_union, ih]
    simp

def allChunks (indexes : List FileChunkIndex) (ordered : List FileRecord) : List ChunkRef :=
  ordered.flatMap fun f => ((idxByFile indexes f.id).map FileChunkIndex.chunks).getD []

/-- The chunks of the window, in file order. -/
def windowChunks (indexes : List FileChunkIndex) (ordered : List FileRecord) (args : PlanArgs) :
    List ChunkRef :=
  ordered.flatMap fun f =>
    ((idxByFile indexes f.id).map fun ix => planChunks ix args.topicNames args.timeRange).getD []

/-- Keep the chunk that starts last; the earlier one when they start together. -/
def laterChunk (best : Option ChunkRef) (c : ChunkRef) : Option ChunkRef :=
  match best with
  | none => some c
  | some prev => if c.startNs > prev.startNs then some c else some prev

/-- The chunk to look for a topic's last value in: of those that start before the window and carry
    the topic, the one that starts last. -/
def bestByTopic (chunks : List ChunkRef) (startNs : Int) (seed : Finset String) (topic : String) :
    Option ChunkRef :=
  chunks.foldl (fun best c =>
    if c.startNs ≥ startNs then best
    else if topic ∈ c.channelTopics ∧ topic ∈ seed then laterChunk best c
    else best) none

def bucketKey (c : ChunkRef) : BitVec 64 :=
  (BitVec.ofNat 64 c.fileID <<< 40) ^^^ BitVec.ofInt 64 c.offset

/-- The topic joins the bucket if that has its chunk's key. -/
def joinBucket (entry : String × ChunkRef) (b : BitVec 64 × ChunkRef) : BitVec 64 × ChunkRef :=
  if b.1 = bucketKey entry.2 then
    (b.1, { b.2 with channelTopics := insert entry.1 b.2.channelTopics })
  else b

/-- Put one topic in the bucket of its chunk's key. The topic that makes the bucket sets the chunk. -/
def addToBucket (buckets : List (BitVec 64 × ChunkRef)) (entry : String × ChunkRef) :
    List (BitVec 64 × ChunkRef) :=
  if buckets.any (·.1 = bucketKey entry.2) then
    buckets.map (joinBucket entry)
  else
    buckets ++ [(bucketKey entry.2, { entry.2 with channelTopics := {entry.1} })]

def coalesce (entries : List (String × ChunkRef)) : List ChunkRef :=
  (entries.foldl addToBucket []).map Prod.snd

/-- The requested topics that no chunk of the window carries. No names mean every topic. -/
def missingTopics (plan : Plan) (all : List ChunkRef) (topicNames : List String) : Finset String :=
  let inWindow := chunkTopics plan.chunks
  let requested := if topicNames ≠ [] then topicNames.toFinset else chunkTopics all
  requested \ inWindow

/-- The seed topics that have a chunk to look in, each with its chunk, in the order of the map. -/
def seedEntries (R : Runtime) (all : List ChunkRef) (startNs : Int) (seed : Finset String) :
    List (String × ChunkRef) :=
  let best := bestByTopic all startNs seed
  (R.range (seed.filter fun topic => (best topic).isSome)).filterMap fun topic =>
    (best topic).map fun c => (topic, c)

/-- Add the chunks that hold the last value before the window of each topic missing in it. -/
def buildLatchedSeed (R : Runtime) (plan : Plan) (ordered : List FileRecord)
    (indexes : List FileChunkIndex) (topicNames : List String) (startNs : Int) : Plan :=
  let all := allChunks indexes ordered
  let seed := missingTopics plan all topicNames
  if seed = ∅ then
    plan
  else
    let refs := coalesce (seedEntries R all startNs seed)
    { plan with
      seedChunks := R.slice (fun c => toLex (c.fileID, c.offset)) (plan.seedChunks ++ refs)
      seedTopics := seed
      seedBeforeNs := startNs
      estimatedChunkBytes :=
        uint64 (plan.estimatedChunkBytes + (refs.map fun c => toUint64 c.length).sum)
      approximateMessages :=
        uint64 (plan.approximateMessages + (refs.map fun c => c.channelTopics.card).sum) }

/-- The plan without a seed, for files in order. -/
def orderedPlan (ordered : List FileRecord) (indexes : List FileChunkIndex) (args : PlanArgs) : Plan :=
  let chunks := windowChunks indexes ordered args
  { chunks := chunks
    estimatedChunkBytes := uint64 (chunks.map fun c => toUint64 c.length).sum
    approximateMessages := uint64 (chunks.map ChunkRef.messageCount).sum
    mergedStartNs := (ordered.head?.map FileRecord.startTimeNs).getD 0
    mergedEndNs := (ordered.getLast?.map FileRecord.endTimeNs).getD 0 }

/-- The plan of a session over the selected files, of which `indexes` holds the chunk indexes. -/
def buildPlan (R : Runtime) (files : List FileRecord) (indexes : List FileChunkIndex)
    (args : PlanArgs) : Except PlanError Plan :=
  match files, args.timeRange.filter fun w => w.endNs < w.startNs with
  | [], _ => .ok {}
  | _, some w => .error (.invalidTimeRange w.endNs w.startNs)
  | _, none =>
    let ordered := R.slice FileRecord.startTimeNs files
    match firstOverlap ordered with
    | some (prev, next) => .error (.overlap prev next)
    | none =>
      let plan := orderedPlan ordered indexes args
      match args.includeLatched, args.timeRange with
      | true, some w => .ok (buildLatchedSeed R plan ordered indexes args.topicNames w.startNs)
      | _, _ => .ok plan

end PjCloud.Planning
