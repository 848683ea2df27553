import PjCloud.Client.Decode
import PjCloud.Lib.Wire
import PjCloud.Planning.Batches
import PjCloud.Planning.Tape

/-!
# From the producer's messages to the client's

What the producer packs, `decodeBatch` unpacks: the messages of a run reach the client in the order of
emission, each under the file it was read from, if the libraries on the two sides are inverse to each other
and nothing that the client decompresses is above its ceiling.
-/

namespace PjCloud.Client
open Lib Format Planning

section Inverse
variable {c : Codec} {D : Decoders} {maxBytes : Nat}

def wirePayloadEncoding : Planning.PayloadEncoding → PayloadEncoding
  | .raw => .raw
  | .zstd => .zstd

def wireBodyEncoding : Planning.BodyEncoding → BodyEncoding
  | .none => .none
  | .zstd => .zstd

/-- A message of the server as the client parses it. -/
def wireMessage (m : Planning.Message) : Message where
  topicID := m.topicID
  schemaID := m.schemaID
  logTimeNs := m.logTimeNs
  publishTimeNs := m.publishTimeNs
  payloadEncoding := wirePayloadEncoding m.payloadEncoding
  payload := m.payload

/-- A batch of the server as the client parses it. -/
def wireBatch (b : Planning.MessageBatch) : MessageBatch where
  seq := b.seq
  sourceFileID := b.sourceFileID
  messages := b.messages.map wireMessage
  bodyEncoding := wireBodyEncoding b.bodyEncoding
  bodyUncompressedSize := b.bodyUncompressedSize
  body := b.body

/-- The libraries of the client undo those of the server. The encoder writes no frame for no bytes. -/
structure Inverse (c : Codec) (D : Decoders) : Prop where
  contentSize : ∀ bytes, bytes ≠ [] → D.contentSize (c.encodeAll bytes) = .known bytes.length
  decompress : ∀ bytes, bytes ≠ [] → D.decompress bytes.length (c.encodeAll bytes) = .ok bytes
  parseBody : ∀ msgs, D.parseBody (c.marshalBody msgs) = some (msgs.map wireMessage)
  parseBatch : ∀ batch, D.parseBatch (c.marshalBatch batch) = some (wireBatch batch)
  nonempty : ∀ msgs, msgs ≠ [] → c.marshalBody msgs ≠ []

lemma Inverse.zstdDecodeAll (inverse : Inverse c D) {bytes : Bytes} (some : bytes ≠ []) :
    zstdDecodeAll D maxBytes (c.encodeAll bytes) =
      if bytes.length > maxBytes then
        .error s!"ZSTD frame declares {bytes.length} bytes (over the decode ceiling)"
      else .ok bytes := by
  rw [Client.zstdDecodeAll, inverse.contentSize bytes some]
  dsimp only
  rw [inverse.decompress bytes some]
  rfl

def received (m : Planning.Message) : DecodedMessage := (wireMessage m).decodedWith m.payload

/-- What has to be below the ceiling: the body of the batch and each of its payloads. -/
def withinCeiling (c : Codec) (maxBytes : Nat) (msgs : List Planning.Message) : Prop :=
  (c.marshalBody msgs).length ≤ maxBytes ∧ ∀ m ∈ msgs, m.payload.length ≤ maxBytes

variable {p : Producer}

lemma singleton_eq_some {opts : ProducerOpts} {msgs : List Planning.Message} {m : Planning.Message}
    (single : singleton opts msgs = some m) :
    msgs = [m] ∧ (m.payload.length : Int) > opts.maxBatchBytes := by
  unfold Planning.singleton at single
  split at single
  · split at single
    · rename_i large
      obtain rfl := Option.some.inj single
      exact ⟨rfl, large⟩
    · cases single
  · cases single

lemma decodeBatch_encodeBatch (inverse : Inverse p.codec D) (ceiling : maxBytes ≤ intMax)
    (positive : 0 < p.opts.maxBatchBytes) {seq file : Nat} {msgs : List Planning.Message}
    (some : msgs ≠ []) (raw : ∀ m ∈ msgs, m.payloadEncoding = .raw)
    (within : withinCeiling p.codec maxBytes msgs) :
    decodeBatch D maxBytes (wireBatch (encodeBatch p seq file msgs)) = .ok (msgs.map received) := by
  unfold encodeBatch
  cases single : singleton p.opts msgs with
  | none =>
    -- the body of the batch is one frame
    have body := within.1
    have parsed : decodeBody D (p.codec.marshalBody msgs).length (p.codec.marshalBody msgs) =
        .ok (msgs.map received) := by
      rw [decodeBody, if_neg (by simp), if_neg (by omega), inverse.parseBody]
      simp only [List.map_map]
      rfl
    dsimp only [wireBatch, wireBodyEncoding, decodeBatch]
    rw [inverse.zstdDecodeAll (inverse.nonempty msgs some), if_neg (by omega)]
    exact parsed
  | some m =>
    -- the message is alone, and its payload is packed if it is large enough
    obtain ⟨rfl, large⟩ := singleton_eq_some single
    have payload := within.2 m List.mem_cons_self
    have long : m.payload ≠ [] := by
      intro none
      rw [none, List.length_nil] at large
      omega
    dsimp only [wireBatch, wireBodyEncoding, decodeBatch]
    split
    · simp only [List.map_cons, List.map_nil, List.mapM_cons, List.mapM_nil, decodePayload, wireMessage,
        wirePayloadEncoding, inverse.zstdDecodeAll long, if_neg (not_lt.mpr payload)]
      rfl
    · simp only [List.map_cons, List.map_nil, List.mapM_cons, List.mapM_nil, decodePayload, wireMessage,
        wirePayloadEncoding, raw m List.mem_cons_self]
      rfl

end Inverse

section RoundTrip
variable {p : Producer} {R : Runtime} {D : Decoders}

def receive (D : Decoders) (payload : Bytes) : Option (List (Nat × DecodedMessage)) :=
  (D.parseBatch payload).bind fun batch =>
    (decodeBatch D kMaxDecodedBatchBytes batch).toOption.map (List.map (Prod.mk batch.sourceFileID))

def receiveAll (D : Decoders) (payloads : List Bytes) : Option (List (Nat × DecodedMessage)) :=
  (payloads.mapM (receive D)).map List.flatten

/-- The batches of a run are numbered from one, the client decodes them to the messages of the run in the
order of emission, each from the file of its batch, and several messages together keep within the target.
What a run that fails has not flushed is the `rest`. -/
structure RoundTrips (p : Producer) (R : Runtime) (D : Decoders) : Prop where
  seqs : (run p R).1.appended.map (fun b => b.batch.seq) = List.range' 1 (run p R).1.appended.length
  messages : ∃ (srcs : List Sourced) (arrived : List (Nat × DecodedMessage))
      (rest : List (Nat × Option DecodedMessage)),
    srcs.Perm (streamed p R) ∧ srcs.map Sourced.raw = (run p R).1.emitted ∧
    receiveAll D ((run p R).1.appended.map Flushed.payload) = some arrived ∧
    srcs.map (fun src => (src.fileID, (frame p src.raw).map received)) =
      arrived.map (fun x => (x.1, some x.2)) ++ rest ∧
    ((run p R).2 = .ok → rest = [])
  sizes : ∀ b ∈ (run p R).1.appended, 1 < b.msgs.length →
    (b.msgs.map fun m => (m.payload.length : Int) + 32).sum ≤ p.opts.maxBatchBytes

lemma receive_packed (inverse : Inverse p.codec D) (positive : 0 < p.opts.maxBatchBytes) {b : Flushed}
    (packed : Packed p b) (within : withinCeiling p.codec kMaxDecodedBatchBytes b.msgs) :
    receive D b.payload = some (b.msgs.map fun m => (b.batch.sourceFileID, received m)) := by
  have decoded : decodeBatch D kMaxDecodedBatchBytes (wireBatch b.batch) = .ok (b.msgs.map received) := by
    rw [packed.batch]
    exact decodeBatch_encodeBatch inverse (by decide) positive packed.nonempty packed.raw within
  rw [receive, packed.payload, inverse.parseBatch, Option.bind_some, decoded]
  simp [Except.toOption, wireBatch]

lemma receiveAll_packed (inverse : Inverse p.codec D) (positive : 0 < p.opts.maxBatchBytes)
    {batches : List Flushed} (packed : ∀ b ∈ batches, Packed p b)
    (within : ∀ b ∈ batches, withinCeiling p.codec kMaxDecodedBatchBytes b.msgs) :
    receiveAll D (batches.map Flushed.payload) =
      some (batches.flatMap fun b => b.msgs.map fun m => (b.batch.sourceFileID, received m)) := by
  have each : (batches.map Flushed.payload).mapM (receive D) =
      some (batches.map fun b => b.msgs.map fun m => (b.batch.sourceFileID, received m)) := by
    induction batches with
    | nil => rfl
    | cons b rest ih =>
      have first := receive_packed inverse positive (packed b List.mem_cons_self)
        (within b List.mem_cons_self)
      have others := ih (fun b mem => packed b (List.mem_cons_of_mem _ mem))
        fun b mem => within b (List.mem_cons_of_mem _ mem)
      simp [first, others]
  rw [receiveAll, each]
  rfl

end RoundTrip

section Camera
variable {m : Planning.Message} {msgs : List Planning.Message}

/-- A payload encoding as its number. -/
def payloadEncodingWire : Wire Planning.PayloadEncoding :=
  Wire.varint.via (fun e => match e with | .raw => 1 | .zstd => 2)
    (fun n => if n = 1 then some .raw else if n = 2 then some .zstd else none)
    (fun e => by cases e <;> rfl)

/-- A body encoding as its number. -/
def bodyEncodingWire : Wire Planning.BodyEncoding :=
  Wire.varint.via (fun e => match e with | .none => 1 | .zstd => 2)
    (fun n => if n = 1 then some .none else if n = 2 then some .zstd else none)
    (fun e => by cases e <;> rfl)

/-- The fields of a message, each with its tag. -/
def messageWire : Wire Planning.Message :=
  (Wire.both (.tagged 0x08 .varint) (.both (.tagged 0x10 .varint) (.both (.tagged 0x18 .zigzag)
    (.both (.tagged 0x20 .zigzag) (.both (.tagged 0x28 payloadEncodingWire) (.tagged 0x32 .block)))))).via
    (fun m => (m.topicID, m.schemaID, m.logTimeNs, m.publishTimeNs, m.payloadEncoding, m.payload))
    (fun (topic, schema, log, publish, encoding, payload) =>
      some ⟨topic, schema, log, publish, encoding, payload⟩)
    (fun _ => rfl)

def entryWire : Wire Planning.Message := .tagged 0x0a (.sized messageWire)

lemma entryWire_nonempty (m : Planning.Message) : entryWire.write m ≠ [] := by
  simp [entryWire, Wire.tagged]

def bodyWire : Wire (List Planning.Message) :=
  Wire.block.via entryWire.writeAll (fun bytes => entryWire.readAll bytes.length bytes) fun _ =>
    Wire.readAll_writeAll entryWire_nonempty (Wire.length_le_writeAll entryWire_nonempty)

/-- The fields of a batch. -/
def batchWire : Wire Planning.MessageBatch :=
  (Wire.both (.tagged 0x08 .varint) (.both (.tagged 0x10 .varint) (.both (.tagged 0x20 bodyEncodingWire)
    (.both (.tagged 0x28 .varint) (.both (.tagged 0x32 .block) bodyWire))))).via
    (fun b => (b.seq, b.sourceFileID, b.bodyEncoding, b.bodyUncompressedSize, b.body, b.messages))
    (fun (seq, file, encoding, size, body, messages) => some ⟨seq, file, encoding, size, body, messages⟩)
    (fun _ => rfl)

/-- Protobuf, with every field written, and frames that store their content. -/
def storedCodec : Codec where
  encodeAll := id
  marshalBody := entryWire.writeAll
  marshalBatch := batchWire.write

/-- The libraries of the client for these encoders. -/
def storedDecoders : Decoders where
  Dctx := Unit
  contentSize bytes := .known bytes.length
  decompress cap bytes := if bytes.length ≤ cap then .ok bytes else .error "Destination buffer is too small"
  createContext := .error "no LZ4"
  lz4Decompress _ _ _ := .error "no LZ4"
  parseBody bytes := (entryWire.readAll bytes.length bytes).map (List.map wireMessage)
  parseBatch bytes := (batchWire.read bytes).map fun x => wireBatch x.1

lemma stored_inverse : Inverse storedCodec storedDecoders where
  contentSize _ _ := rfl
  decompress bytes _ := if_pos (Nat.le_refl _)
  parseBody msgs := by
    have read := Wire.readAll_writeAll entryWire_nonempty (Wire.length_le_writeAll (l := msgs)
      entryWire_nonempty)
    simp only [storedDecoders, storedCodec, read]
    rfl
  parseBatch batch := by
    have read := batchWire.read_write batch []
    rw [List.append_nil] at read
    simp only [storedDecoders, storedCodec, read]
    rfl
  nonempty msgs some := by
    obtain ⟨m, rest, rfl⟩ := List.exists_cons_of_ne_nil some
    simp [storedCodec, Wire.writeAll, entryWire_nonempty]

/-- A chunk of one file, with the messages of a camera. -/
def cameraChunk : ChunkRef where
  fileID := 7
  startNs := 5
  endNs := 5
  offset := 0
  length := 0
  compression := ""
  channelTopics := {"/camera"}
  messageCount := 0

def cameraMessages (payloads : List Bytes) : List McapMessage := payloads.map fun data => ⟨1, 5, 5, data⟩

/-- A producer that streams the chunk. -/
def camera (payloads : List Bytes) (maxBatchBytes : Int) : Producer where
  plan := { chunks := [cameraChunk] }
  indexes := [{ fileID := 7, channels := [(1, ⟨"/camera", "Image", "ros2msg", "cdr"⟩)] }]
  readChunk _ := .ok (encodeRecord opChunk (encodeStream (cameraMessages payloads)))
  opts := { maxBatchBytes := maxBatchBytes, maxMessageBytes := 2 ^ 30, compressThresholdBytes := 4,
            timeRange := none }
  bindings := { topics := [⟨1, "/camera", 1, "cdr"⟩] }
  library := plainLibrary
  codec := storedCodec
  aged _ := false

/-- The ceiling can be checked. -/
instance {c : Codec} {maxBytes : Nat} : Decidable (withinCeiling c maxBytes msgs) :=
  inferInstanceAs (Decidable (_ ∧ _))

section Rejected
variable {payload : Bytes} {R : Runtime} {limit : Nat}

def cameraRaw (payload : Bytes) : RawMessage :=
  rawMessage ⟨"/camera", "Image", "ros2msg", "cdr"⟩ ⟨1, 5, 5, payload⟩

def cameraMessage (payload : Bytes) : Planning.Message :=
  ⟨1, 1, toInt64 5, toInt64 5, .raw, payload⟩

lemma camera_streams (small : payload.length < 2 ^ 32) :
    Streams (camera [payload] limit) none cameraChunk [cameraRaw payload] := by
  refine ⟨_, _, cameraMessages [payload], rfl, rfl, ?_, ?_⟩
  · apply holds_encodeStream
    · intro m mem
      obtain rfl := List.mem_singleton.mp mem
      simpa [plainMessage] using small
    · simp [encodeStream, encodeMessages, cameraMessages, encodeRecord, encodeMessage]
      omega
  · simp [cameraMessages, resolve, ChunkRef.wants, cameraChunk, cameraRaw, rawMessage, TimeWindow.admits]

lemma camera_frame : frame (camera [payload] limit) (cameraRaw payload) = some (cameraMessage payload) := by
  simp [frame, camera, Bindings.lookup, cameraRaw, cameraMessage, rawMessage]

lemma camera_kept (small : payload.length ≤ 2 ^ 30) :
    kept (camera [payload] limit) (cameraRaw payload) = true := by
  have fits : oversized (camera [payload] limit) (cameraRaw payload) = false := by
    simp [oversized, camera, cameraRaw, rawMessage]
    omega
  rw [kept, fits, camera_frame]
  rfl

lemma lt_length_marshalBody : m.payload.length + 1 < (storedCodec.marshalBody [m]).length := by
  simp only [storedCodec, Wire.writeAll, entryWire, Wire.tagged, Wire.sized, Wire.via, Wire.block,
    messageWire, Wire.both, List.flatMap_cons, List.flatMap_nil, List.length_append, List.length_cons]
  omega

lemma camera_run (small : payload.length ≤ 2 ^ 30) :
    (run (camera [payload] limit) R).1.emitted = [cameraRaw payload] ∧
      (run (camera [payload] limit) R).1.appended.flatMap Flushed.msgs = [cameraMessage payload] := by
  obtain ⟨s', ran, closed, adds⟩ := @runChunks_adds (camera [payload] limit)
    [(cameraChunk, [cameraRaw payload])] {} (by
      intro step mem
      obtain rfl := List.mem_singleton.mp mem
      exact camera_streams (by omega)) rfl
  have same : (run (camera [payload] limit) R).1 = s' := by
    rw [run, if_pos (show (camera [payload] limit).plan.seedChunks = [] from rfl)]
    exact congrArg Prod.fst ran
  have emitted : s'.emitted = [cameraRaw payload] := by
    rw [adds.emitted, List.flatMap_singleton, List.filter_cons_of_pos (camera_kept small)]
    rfl
  have framed := adds.framed closed
  rw [emitted, List.map_singleton, camera_frame] at framed
  rw [same]
  exact ⟨emitted, List.map_injective_iff.mpr (Option.some_injective _) framed⟩

lemma camera_appended (small : payload.length ≤ 2 ^ 30) : ∃ b rest,
    (run (camera [payload] limit) R).1.appended = b :: rest ∧ b.msgs = [cameraMessage payload] ∧
      Packed (camera [payload] limit) b := by
  obtain ⟨f, srcs, -, packs, -⟩ := @run_packs (camera [payload] limit) R
  have packed := (packs.batched (.empty (n := 0))).packed
  have all := (@camera_run payload R limit small).2
  cases appended : (run (camera [payload] limit) R).1.appended with
  | nil =>
    rw [appended] at all
    cases all
  | cons b rest =>
    have first := packed b (appended ▸ List.mem_cons_self)
    rw [appended, List.flatMap_cons] at all
    refine ⟨b, rest, rfl, ?_, first⟩
    obtain ⟨m, ms, msgs⟩ := List.exists_cons_of_ne_nil first.nonempty
    rw [msgs] at all ⊢
    obtain ⟨rfl, none⟩ := List.cons.inj all
    rw [(List.append_eq_nil_iff.mp none).1]

lemma camera_below (full : payload.length + 1 = kMaxDecodedBatchBytes) :
    ∀ m ∈ (run (camera [payload] limit) R).1.emitted, m.payload.length < kMaxDecodedBatchBytes := by
  have small : payload.length ≤ 2 ^ 30 := by
    rw [kMaxDecodedBatchBytes] at full
    omega
  intro m mem
  rw [(camera_run small).1] at mem
  obtain rfl := List.mem_singleton.mp mem
  have below : payload.length < kMaxDecodedBatchBytes := by omega
  exact below

lemma camera_rejected (full : payload.length + 1 = kMaxDecodedBatchBytes) :
    ¬ RoundTrips (camera [payload] kMaxDecodedBatchBytes) R storedDecoders := by
  have small : payload.length ≤ 2 ^ 30 := by
    rw [kMaxDecodedBatchBytes] at full
    omega
  obtain ⟨b, rest, appended, msgs, packed⟩ := camera_appended small
  have batch := packed.batch
  have together : singleton (camera [payload] kMaxDecodedBatchBytes).opts b.msgs = none := by
    rw [msgs]
    exact if_neg (by simp [camera, cameraMessage]; omega)
  rw [encodeBatch, together] at batch
  have rejected : receive storedDecoders b.payload = none := by
    have long := @lt_length_marshalBody (cameraMessage payload)
    rw [receive, packed.payload]
    rw [show (camera [payload] kMaxDecodedBatchBytes).codec = storedCodec from rfl] at batch ⊢
    rw [stored_inverse.parseBatch, Option.bind_some, batch]
    dsimp only [wireBatch, wireBodyEncoding, decodeBatch]
    rw [stored_inverse.zstdDecodeAll (stored_inverse.nonempty _ packed.nonempty), msgs,
      if_pos (by rw [← full]; exact long)]
    rfl
  intro trips
  obtain ⟨srcs, arrived, _, -, -, all, -⟩ := trips.messages
  rw [appended] at all
  simp [receiveAll, rejected] at all

def largePayload : Bytes := List.replicate (kMaxDecodedBatchBytes - 1) 0

lemma length_largePayload : largePayload.length + 1 = kMaxDecodedBatchBytes := by
  rw [largePayload, List.length_replicate, kMaxDecodedBatchBytes]

def largeCamera : Producer := camera [largePayload] kMaxDecodedBatchBytes

end Rejected

end Camera

end PjCloud.Client
