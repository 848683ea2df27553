import Mathlib.Logic.Function.Basic
import PjCloud.Planning.Open
import PjCloud.Session.State

/-!
# The producer

`Producer.Run` (`server/internal/session/producer.go`): it reads the chunks of the plan in order, frames
each message for the wire and groups the messages into batches. With a latched seed it first looks for the
newest message of each seed topic and emits those.

The chunk fetches are pipelined in the source but consumed in plan order, so a fetch is `readChunk`. Whether
a batch is too old when a message has been added (`ageExceeded`) is the schedule `aged`. `Codec` is
protobuf and zstd. The producer's context is live throughout: what cancelling it does is part of the
session's machine.

`RunState.emitted` is history: the messages that went into a batch. `Adds` says what a part of the run adds
to the stream, and each part has a lemma that gives its `Adds`.
-/

namespace PjCloud.Planning
open Lib Format

/-- The session block of the configuration (`SessionConfig`). -/
structure SessionConfig where
  maxConcurrent : Int := 0
  retainAfterDisconnect : Int := 0
  retainMaxSeqs : Int := 0
  retainMaxBytes : Int := 0
  maxBatchBytes : Int := 0
  maxBatchAge : Int := 0
  maxMessageBytes : Int := 0
  compressThresholdBytes : Int := 0
  bodyZstdLevel : Int := 0
  deriving DecidableEq, Repr

/-- The defaults, with times in nanoseconds. -/
def defaultSession : SessionConfig where
  maxConcurrent := 16
  retainAfterDisconnect := 60 * 10 ^ 9
  retainMaxSeqs := 256
  retainMaxBytes := 64 * 2 ^ 20
  maxBatchBytes := 512 * 2 ^ 10
  maxBatchAge := 50 * 10 ^ 6
  maxMessageBytes := 16 * 2 ^ 20
  compressThresholdBytes := 4096
  bodyZstdLevel := 3

def orDefault (value default : Int) : Int := if value ≤ 0 then default else value

/-- Fill in the fields that the file leaves out. -/
def SessionConfig.withSessionDefaults (s : SessionConfig) : SessionConfig where
  maxConcurrent := orDefault s.maxConcurrent defaultSession.maxConcurrent
  retainAfterDisconnect := orDefault s.retainAfterDisconnect defaultSession.retainAfterDisconnect
  retainMaxSeqs := orDefault s.retainMaxSeqs defaultSession.retainMaxSeqs
  retainMaxBytes := orDefault s.retainMaxBytes defaultSession.retainMaxBytes
  maxBatchBytes := orDefault s.maxBatchBytes defaultSession.maxBatchBytes
  maxBatchAge := orDefault s.maxBatchAge defaultSession.maxBatchAge
  maxMessageBytes := orDefault s.maxMessageBytes defaultSession.maxMessageBytes
  compressThresholdBytes := orDefault s.compressThresholdBytes defaultSession.compressThresholdBytes
  bodyZstdLevel := orDefault s.bodyZstdLevel defaultSession.bodyZstdLevel

/-- The producer's options. -/
structure ProducerOpts where
  maxBatchBytes : Int
  maxMessageBytes : Int
  compressThresholdBytes : Int
  timeRange : Option TimeWindow
  deriving DecidableEq, Repr

/-- The options from the configuration. -/
def producerOpts (cfg : SessionConfig) (tr : Option TimeWindow) : ProducerOpts where
  maxBatchBytes := cfg.maxBatchBytes
  maxMessageBytes := cfg.maxMessageBytes
  compressThresholdBytes := cfg.compressThresholdBytes
  timeRange := tr

lemma orDefault_pos {value default : Int} (h : 0 < default) : 0 < orDefault value default := by
  unfold orDefault
  split <;> omega

lemma maxMessageBytes_pos {cfg : SessionConfig} {tr : Option TimeWindow} :
    0 < (producerOpts cfg.withSessionDefaults tr).maxMessageBytes :=
  orDefault_pos (by decide)

/-- How the payload of one message is packed (`PayloadEncoding`). -/
inductive PayloadEncoding where
  | raw
  | zstd
  deriving DecidableEq, Repr

/-- How the body of a batch is packed (`BodyEncoding`). -/
inductive BodyEncoding where
  | none
  | zstd
  deriving DecidableEq, Repr

/-- A message on the wire (`pb.Message`). -/
structure Message where
  topicID : Nat
  schemaID : Nat
  logTimeNs : Int
  publishTimeNs : Int
  payloadEncoding : PayloadEncoding
  payload : Bytes
  deriving DecidableEq, Repr

/-- A batch on the wire (`pb.MessageBatch`). -/
structure MessageBatch where
  seq : Nat
  sourceFileID : Nat
  bodyEncoding : BodyEncoding
  bodyUncompressedSize : Nat := 0
  body : Bytes := []
  messages : List Message := []
  deriving DecidableEq, Repr

/-- The encoders: zstd, the body of a batch and a whole batch. -/
structure Codec where
  encodeAll : Bytes → Bytes
  marshalBody : List Message → Bytes
  marshalBatch : MessageBatch → Bytes

/-- The batch that is being filled (`batchBuilder`). -/
structure BatchBuilder where
  msgs : List Message := []
  totalBytes : Int := 0
  deriving DecidableEq, Repr

/-- A flushed batch with the messages that went into it and its bytes. -/
structure Flushed where
  batch : MessageBatch
  msgs : List Message
  payload : Bytes
  deriving DecidableEq, Repr

/-- A flushed batch as the session streams it. -/
def Flushed.toBatch (b : Flushed) : Session.Batch Message where
  sourceFileID := b.batch.sourceFileID
  bytes := b.payload.length
  msgs := b.msgs

/-- What `Run` keeps between two messages. -/
structure RunState where
  bb : BatchBuilder := {}
  nextSeq : Nat := 0
  appended : List Flushed := []
  dropped : Nat := 0
  fetchedBytes : Nat := 0
  ticks : Nat := 0
  emitted : List RawMessage := []
  deriving DecidableEq, Repr

/-- The producer of a session. -/
structure Producer where
  plan : Plan
  indexes : List FileChunkIndex
  readChunk : ChunkRef → Except String Bytes
  opts : ProducerOpts
  bindings : Bindings
  library : Library
  codec : Codec
  aged : Nat → Bool

section Run
variable (p : Producer)

def protoMsgSize (m : Message) : Int := m.payload.length + 32

/-- A message alone in its batch and above the batch target is not packed with its batch. -/
def singleton (opts : ProducerOpts) (msgs : List Message) : Option Message :=
  match msgs with
  | [m] => if (m.payload.length : Int) > opts.maxBatchBytes then some m else none
  | _ => none

/-- The batch for the messages taken from the builder. -/
def encodeBatch (seq sourceFileID : Nat) (msgs : List Message) : MessageBatch :=
  match singleton p.opts msgs with
  | some m =>
    let packed :=
      if p.opts.compressThresholdBytes > 0 ∧ (m.payload.length : Int) ≥ p.opts.compressThresholdBytes
      then { m with payload := p.codec.encodeAll m.payload, payloadEncoding := .zstd }
      else m
    { seq := seq, sourceFileID := sourceFileID, bodyEncoding := .none, messages := [packed] }
  | none =>
    let rawBody := p.codec.marshalBody msgs
    { seq := seq
      sourceFileID := sourceFileID
      bodyEncoding := .zstd
      bodyUncompressedSize := rawBody.length
      body := p.codec.encodeAll rawBody }

/-- Close the batch that is being filled and append it. -/
def flush (sourceFileID : Nat) (s : RunState) : RunState :=
  if s.bb.msgs = [] then
    s
  else
    let batch := encodeBatch p (s.nextSeq + 1) sourceFileID s.bb.msgs
    { s with
      bb := {}
      nextSeq := s.nextSeq + 1
      appended := s.appended ++ [⟨batch, s.bb.msgs, p.codec.marshalBatch batch⟩] }

def oversized (m : RawMessage) : Bool :=
  p.opts.maxMessageBytes > 0 && (m.payload.length : Int) > p.opts.maxMessageBytes

/-- The message for the wire; none if the session does not bind its topic. -/
def frame (m : RawMessage) : Option Message :=
  (p.bindings.lookup m.topic).map fun b =>
    { topicID := b.topicID
      schemaID := b.schemaID
      logTimeNs := m.logTimeNs
      publishTimeNs := m.publishTimeNs
      payloadEncoding := .raw
      payload := m.payload }

/-- Add a message to the batch that is being filled. -/
def add (m : RawMessage) (msg : Message) (s : RunState) : RunState :=
  { s with
    bb := { msgs := s.bb.msgs ++ [msg], totalBytes := s.bb.totalBytes + protoMsgSize msg }
    ticks := s.ticks + 1
    emitted := s.emitted ++ [m] }

/-- Put one message into the stream, with the flush before it and the flush after it. -/
def emit (sourceFileID : Nat) (s : RunState) (m : RawMessage) : RunState :=
  if oversized p m then
    { s with dropped := s.dropped + 1 }
  else
    match frame p m with
    | none => s
    | some msg =>
      let full := s.bb.msgs ≠ [] ∧ s.bb.totalBytes + protoMsgSize msg > p.opts.maxBatchBytes
      let s := add m msg (if full then flush p sourceFileID s else s)
      if s.bb.totalBytes ≥ p.opts.maxBatchBytes ∨ p.aged s.ticks then flush p sourceFileID s else s

/-- `indexChunkIterator.Iterate`: iterate with the index of the chunk's file. -/
def iterateFile {σ : Type} (chunkBytes : Bytes) (ref : ChunkRef) (tr : Option TimeWindow)
    (emit : σ → RawMessage → σ × Option String) (s : σ) : σ × Outcome :=
  match idxByFile p.indexes ref.fileID with
  | none =>
    let id := ref.fileID
    (s, .error s!"session: no chunk index for file {id}")
  | some idx => iterate p.library idx chunkBytes ref tr emit s

/-- Read one chunk and iterate over it. `what` is the word that the error texts have for the chunk. -/
def streamChunk {σ : Type} (what : String) (tr : Option TimeWindow) (fetched : Nat → σ → σ)
    (emit : σ → RawMessage → σ × Option String) (ref : ChunkRef) (s : σ) : σ × Outcome :=
  let (id, off) := (ref.fileID, ref.offset)
  match p.readChunk ref with
  | .error e => (s, .error s!"session: read {what} f={id} off={off}: {e}")
  | .ok chunkBytes =>
    match iterateFile p chunkBytes ref tr emit (fetched chunkBytes.length s) with
    | (s, .error e) => (s, .error s!"session: iterate {what} f={id} off={off}: {e}")
    | done => done

/-- What the seed phase has found: the newest message of a topic and its file. -/
structure SeedState where
  last : String → Option (RawMessage × Nat) := fun _ => none
  fetchedBytes : Nat := 0

/-- Keep a message of a seed topic that is newer than the one kept. -/
def keepNewest (fileID : Nat) (st : SeedState) (m : RawMessage) : SeedState :=
  let keep := { st with last := Function.update st.last m.topic (some (m, fileID)) }
  if m.topic ∈ p.plan.seedTopics then
    match st.last m.topic with
    | none => keep
    | some (cur, _) => if m.logTimeNs > cur.logTimeNs then keep else st
  else
    st

def seedWindow : Option TimeWindow := some ⟨-2 ^ 63, p.plan.seedBeforeNs⟩

/-- Scan the seed chunks. -/
def scanSeeds : List ChunkRef → SeedState → SeedState × Outcome
  | [], st => (st, .ok)
  | ref :: rest, st =>
    let count := fun n (st : SeedState) => { st with fetchedBytes := st.fetchedBytes + n }
    match streamChunk p "seed chunk" (seedWindow p) count
        (fun st m => (keepNewest p ref.fileID st m, none)) ref st with
    | (st, .ok) => scanSeeds rest st
    | failed => failed

/-- Emit the seeds, with a flush wherever the file changes and at the end. -/
def emitSeeds : List (RawMessage × Nat) → Option Nat → RunState → RunState
  | [], none, s => s
  | [], some curFile, s => flush p curFile s
  | (m, f) :: rest, curFile, s =>
    let s := match curFile with
      | some c => if f ≠ c then flush p c s else s
      | none => s
    emitSeeds rest (some f) (emit p f s m)

/-- The seed phase. -/
def seedPhase (R : Runtime) : RunState × Outcome :=
  match scanSeeds p p.plan.seedChunks {} with
  | (st, .ok) =>
    let found := R.range (p.plan.seedTopics.filter fun topic => (st.last topic).isSome)
    let seeded := R.slice (fun e => e.1.logTimeNs) (found.filterMap st.last)
    (emitSeeds p seeded none { fetchedBytes := st.fetchedBytes }, .ok)
  | (st, failed) => ({ fetchedBytes := st.fetchedBytes }, failed)

/-- Stream the chunks of the window, with a flush after each. -/
def runChunks : List ChunkRef → RunState → RunState × Outcome
  | [], s => (s, .ok)
  | ref :: rest, s =>
    let count := fun n (s : RunState) => { s with fetchedBytes := s.fetchedBytes + n }
    match streamChunk p "chunk" p.opts.timeRange count
        (fun s m => (emit p ref.fileID s m, none)) ref s with
    | (s, .ok) => runChunks rest (flush p ref.fileID s)
    | failed => failed

/-- Stream the plan. -/
def run (R : Runtime) : RunState × Outcome :=
  if p.plan.seedChunks = [] then
    runChunks p p.plan.chunks {}
  else
    match seedPhase p R with
    | (s, .ok) => runChunks p p.plan.chunks s
    | failed => failed

end Run

end PjCloud.Planning
