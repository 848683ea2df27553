import Mathlib.Data.List.DropRight
import PjCloud.Client.Decode
import PjCloud.Lib.Wire

/-!
# The compressed envelope

A response of the server goes out as it is marshaled, or, if the client has negotiated it, compressed inside an
`EncodedServerMessage`: `marshalResponse` (`server/internal/ws/compress.go`) decides. The client takes it out
again in `decodeEncodedEnvelope` (`session_decode.cpp`) and routes what is inside in `onBinaryFrame`
(`backend_connection.cpp`).

The contents of the responses are of any type. `Library` has protobuf and zstd, and `Lossless` is what is
assumed of them, with the size that protobuf gives the envelope.
-/

namespace PjCloud.Rpc
open Lib Format Client

/-- The payloads of a `ServerMessage` other than the envelope. -/
inductive Kind where
  | helloResponse
  | listFiles
  | getFile
  | updateTags
  | openSession
  | batch
  | progress
  | eos
  | error
  | getVocabulary
  deriving DecidableEq, Repr

/-- The values of `CompressionEncoding` that the client can meet. -/
inductive CompressionEncoding where
  | unspecified
  | zstd
  | other (n : Int)
  deriving DecidableEq, Repr

structure EncodedServerMessage where
  encoding : CompressionEncoding
  uncompressedSize : Nat
  body : Bytes
  deriving DecidableEq, Repr

/-- The `oneof` of a `ServerMessage`. -/
inductive Payload (Content : Type) where
  | none
  | response (kind : Kind) (content : Content)
  | encoded (e : EncodedServerMessage)
  deriving DecidableEq, Repr

structure ServerMessage (Content : Type) where
  requestID : Nat := 0
  subscriptionID : Nat := 0
  payload : Payload Content := .none
  deriving DecidableEq, Repr

/-- Protobuf and zstd. -/
structure Library (Content : Type) where
  marshal : ServerMessage Content → Except String Bytes
  parse : Bytes → Option (ServerMessage Content)
  encodeAll : Bytes → Bytes
  findFrameCompressedSize : Bytes → Option Nat
  contentSize : Bytes → ContentSize
  decompress : Nat → Bytes → Except String Bytes

variable {Content : Type}

/-! ## The server -/

/-- `responseCompressor` -/
structure Compressor where
  threshold : Int

/-- The payloads that may be compressed. -/
def compressible (m : ServerMessage Content) : Bool :=
  match m.payload with
  | .response .listFiles _ => true
  | .response .getFile _ => true
  | .response .openSession _ => true
  | .response .getVocabulary _ => true
  | .response .updateTags _ => true
  | _ => false

def envelope (L : Library Content) (raw : Bytes) : ServerMessage Content :=
  { payload := .encoded ⟨.zstd, raw.length, L.encodeAll raw⟩ }

def marshalResponse (L : Library Content) (rc : Option Compressor) (m : ServerMessage Content)
    (negotiated : Bool) : Except String Bytes :=
  match L.marshal m with
  | .error e => .error e
  | .ok raw =>
    match rc with
    | none => .ok raw
    | some c =>
      if negotiated = false ∨ compressible m = false ∨ (raw.length : Int) < c.threshold then .ok raw
      else if (L.encodeAll raw).length ≥ raw.length then .ok raw
      else
        match L.marshal (envelope L raw) with
        | .error _ => .ok raw
        | .ok wrapped => .ok wrapped

/-! ## The client -/

def kMaxDecodedEnvelopeBytes : Nat := 64 * 1024 * 1024

def decodeEncodedEnvelope (L : Library Content) (body : Bytes) (announcedSize : Nat) : Option Bytes :=
  if announcedSize = 0 ∨ announcedSize > kMaxDecodedEnvelopeBytes then none
  else if body = [] ∨ body.length > kMaxDecodedEnvelopeBytes then none
  else if L.findFrameCompressedSize body ≠ some body.length then none
  else
    match L.contentSize body with
    | .error => none
    | .unknown => none
    | .known content =>
      if content ≠ announcedSize ∨ content > kMaxDecodedEnvelopeBytes then none
      else
        match L.decompress content body with
        | .error _ => none
        | .ok out => if out.length ≠ content then none else some out

/-- A caller of `sendAndWait` that waits. -/
structure Pending (Content : Type) where
  ready : Bool := false
  message : Option (ServerMessage Content) := none

/-- What `onBinaryFrame` uses of the connection. -/
structure Connection (Content : Type) where
  pending : Nat → Option (Pending Content) := fun _ => none
  sessionActive : Bool := false
  sessionSubscriptionID : Nat := 0
  sessionInbox : List (ServerMessage Content) := []
  sessionWireBytes : Nat := 0

/-- The frames of a session. -/
def ofSession (m : ServerMessage Content) : Bool :=
  match m.payload with
  | .response .batch _ => true
  | .response .progress _ => true
  | .response .eos _ => true
  | .response .error _ => true
  | _ => false

/-- `onBinaryFrame` from the message on, for a frame of a given size. -/
def route (s : Connection Content) (size : Nat) (m : ServerMessage Content) : Connection Content :=
  if m.requestID ≠ 0 then
    match s.pending m.requestID with
    | none => s
    | some _ => { s with pending := Function.update s.pending m.requestID (some ⟨true, some m⟩) }
  else if s.sessionActive = true ∧ ofSession m = true then
    if s.sessionSubscriptionID ≠ 0 ∧ m.subscriptionID ≠ s.sessionSubscriptionID then s
    else
      { s with
        sessionWireBytes := s.sessionWireBytes + size
        sessionInbox := s.sessionInbox ++ [m] }
  else s

/-- The message inside an envelope, or the message itself. -/
def unwrap (L : Library Content) (m : ServerMessage Content) : Option (ServerMessage Content) :=
  match m.payload with
  | .encoded e =>
    if e.encoding ≠ .zstd then none
    else
      match decodeEncodedEnvelope L e.body e.uncompressedSize with
      | none => none
      | some raw =>
        match L.parse raw with
        | none => none
        | some inner =>
          match inner.payload with
          | .encoded _ => none
          | _ => some inner
  | _ => some m

def onBinaryFrame (L : Library Content) (s : Connection Content) (bytes : Bytes) : Connection Content :=
  match (L.parse bytes).bind (unwrap L) with
  | none => s
  | some m => route s bytes.length m

/-! ## The libraries -/

def varintSize (n : Nat) : Nat := (Wire.varint.write n).length

/-- The size that protobuf gives an envelope: the tag of field 20 and the length, and inside the encoding, the
size and the body with their tags. -/
def envelopeSize (size body : Nat) : Nat :=
  let inner := 2 + (1 + varintSize size) + (1 + varintSize body + body)
  2 + varintSize inner + inner

/-- Protobuf and zstd are lossless, and a frame has its content size. -/
structure Lossless (L : Library Content) : Prop where
  parse_marshal : ∀ m b, L.marshal m = .ok b → L.parse b = some m
  envelope_size : ∀ raw b, raw ≠ [] → L.marshal (envelope L raw) = .ok b →
    b.length = envelopeSize raw.length (L.encodeAll raw).length
  nonempty : ∀ raw, raw ≠ [] → L.encodeAll raw ≠ []
  oneFrame : ∀ raw, raw ≠ [] → L.findFrameCompressedSize (L.encodeAll raw) = some (L.encodeAll raw).length
  content : ∀ raw, raw ≠ [] → L.contentSize (L.encodeAll raw) = .known raw.length
  decompress : ∀ raw, raw ≠ [] → L.decompress raw.length (L.encodeAll raw) = .ok raw

variable {L : Library Content} {rc : Option Compressor} {m : ServerMessage Content} {negotiated : Bool}
  {raw frame : Bytes}

/-- A message that is sent as an envelope. -/
structure Wraps (L : Library Content) (rc : Option Compressor) (m : ServerMessage Content) (negotiated : Bool)
    (raw frame : Bytes) : Prop where
  negotiated : negotiated = true
  compressible : compressible m = true
  threshold : ∃ c, rc = some c ∧ c.threshold ≤ raw.length
  saves : (L.encodeAll raw).length < raw.length
  wrapped : L.marshal (envelope L raw) = .ok frame

lemma marshalResponse_cases (marshaled : L.marshal m = .ok raw)
    (sent : marshalResponse L rc m negotiated = .ok frame) :
    Wraps L rc m negotiated raw frame ∨
      frame = raw ∧ ∀ frame', ¬ Wraps L rc m negotiated raw frame' := by
  unfold marshalResponse at sent
  rw [marshaled] at sent
  dsimp only at sent
  split at sent
  · cases sent
    refine .inr ⟨rfl, fun _ wraps => ?_⟩
    obtain ⟨c, rc, -⟩ := wraps.threshold
    cases rc
  · rename_i c
    split at sent
    · rename_i plain
      cases sent
      refine .inr ⟨rfl, fun _ wraps => ?_⟩
      obtain ⟨_, ⟨⟩, le⟩ := wraps.threshold
      obtain off | off | off := plain
      · rw [wraps.negotiated] at off
        cases off
      · rw [wraps.compressible] at off
        cases off
      · omega
    · rename_i eligible
      simp only [not_or, Bool.not_eq_false, Int.not_lt] at eligible
      split at sent
      · rename_i large
        cases sent
        exact .inr ⟨rfl, fun _ wraps => absurd wraps.saves (Nat.not_lt.mpr large)⟩
      · rename_i saves
        split at sent
        · rename_i failed
          cases sent
          refine .inr ⟨rfl, fun _ wraps => ?_⟩
          have wrapped := wraps.wrapped
          rw [failed] at wrapped
          cases wrapped
        · rename_i wrapped
          cases sent
          exact .inl ⟨eligible.1, eligible.2.1, ⟨c, rfl, eligible.2.2⟩, Nat.lt_of_not_le saves, wrapped⟩

variable (rc negotiated) in
lemma marshalResponse_total (marshaled : L.marshal m = .ok raw) :
    ∃ frame, marshalResponse L rc m negotiated = .ok frame := by
  unfold marshalResponse
  rw [marshaled]
  dsimp only
  split
  · exact ⟨_, rfl⟩
  · split
    · exact ⟨_, rfl⟩
    · split
      · exact ⟨_, rfl⟩
      · split <;> exact ⟨_, rfl⟩

/-! ## What the client makes of an envelope -/

lemma decodeEncodedEnvelope_encodeAll (lossless : Lossless L)
    (saves : (L.encodeAll raw).length < raw.length) :
    decodeEncodedEnvelope L (L.encodeAll raw) raw.length =
      if raw.length ≤ kMaxDecodedEnvelopeBytes then some raw else none := by
  have some : raw ≠ [] := by
    rintro rfl
    exact Nat.not_lt_zero _ saves
  have positive : raw.length ≠ 0 := fun zero => some (List.length_eq_zero_iff.mp zero)
  unfold decodeEncodedEnvelope
  split
  · rename_i over'
    rw [if_neg (by omega)]
  · rename_i announced
    have below : raw.length ≤ kMaxDecodedEnvelopeBytes := by omega
    have body : ¬ (L.encodeAll raw = [] ∨ (L.encodeAll raw).length > kMaxDecodedEnvelopeBytes) := by
      rintro (empty | large)
      · exact lossless.nonempty raw some empty
      · omega
    have exact : ¬ (raw.length ≠ raw.length ∨ raw.length > kMaxDecodedEnvelopeBytes) := by omega
    rw [if_neg body, lossless.oneFrame raw some, if_neg (not_not_intro rfl), lossless.content raw some]
    dsimp only
    rw [if_neg exact, lossless.decompress raw some]
    dsimp only
    rw [if_neg (not_not_intro rfl), if_pos below]

lemma unwrap_of_compressible (allowed : compressible m = true) : unwrap L m = some m := by
  obtain ⟨_, _, payload⟩ := m
  cases payload with
  | none => rfl
  | response => rfl
  | encoded => cases allowed

lemma unwrap_envelope (lossless : Lossless L) (marshaled : L.marshal m = .ok raw)
    (allowed : compressible m = true) (saves : (L.encodeAll raw).length < raw.length) :
    unwrap L (envelope L raw) = if raw.length ≤ kMaxDecodedEnvelopeBytes then some m else none := by
  simp only [unwrap, envelope, ne_eq, not_true_eq_false, if_false,
    decodeEncodedEnvelope_encodeAll lossless saves]
  by_cases below : raw.length ≤ kMaxDecodedEnvelopeBytes
  · rw [if_pos below, if_pos below]
    dsimp only
    rw [lossless.parse_marshal m raw marshaled]
    obtain ⟨_, _, payload⟩ := m
    cases payload with
    | none => rfl
    | response => rfl
    | encoded => cases allowed
  · rw [if_neg below, if_neg below]

lemma onBinaryFrame_of_parse {s : Connection Content} (parsed : L.parse raw = some m) :
    onBinaryFrame L s raw = match unwrap L m with
      | none => s
      | some inner => route s raw.length inner := by
  rw [onBinaryFrame, parsed, Option.bind_some]

lemma ofSession_of_compressible (allowed : compressible m = true) : ofSession m = false := by
  obtain ⟨_, _, payload⟩ := m
  cases payload with
  | none => rfl
  | encoded => rfl
  | response kind _ => cases kind <;> first | rfl | cases allowed

lemma route_of_compressible {s : Connection Content} {size size' : Nat} (allowed : compressible m = true) :
    route s size m = route s size' m := by
  have other : ¬ (s.sessionActive = true ∧ ofSession m = true) := by
    simp [ofSession_of_compressible allowed]
  rw [route, if_neg other, route, if_neg other]

lemma route_unrequested {s : Connection Content} {size : Nat} (allowed : compressible m = true)
    (unrequested : m.requestID = 0) : route s size m = s := by
  have other : ¬ (s.sessionActive = true ∧ ofSession m = true) := by
    simp [ofSession_of_compressible allowed]
  rw [route, if_neg (not_not_intro unrequested), if_neg other]

lemma route_awaited {size : Nat} (requested : m.requestID ≠ 0) :
    route { pending := fun _ => some {} } size m ≠ ({ pending := fun _ => some {} } : Connection Content) := by
  intro same
  have told := congrArg (fun s : Connection Content => (s.pending m.requestID).map Pending.ready) same
  simp [route, requested] at told

/-! ## Transparency -/

/-- A frame does what the message as it was marshaled would have done. -/
structure Transparent (L : Library Content) (m : ServerMessage Content) (negotiated : Bool)
    (raw frame : Bytes) : Prop where
  routes : ∀ s, onBinaryFrame L s frame = onBinaryFrame L s raw
  wrapsOnly : frame ≠ raw → negotiated = true ∧ compressible m = true
  smaller : frame ≠ raw → frame.length < raw.length

/-- A message that is sent as an envelope is below the client's ceiling, if anyone waits for it, and is shorter
with the wrapper. -/
def Fits (L : Library Content) (rc : Option Compressor) (m : ServerMessage Content) (negotiated : Bool)
    (raw : Bytes) : Prop :=
  (∃ frame, Wraps L rc m negotiated raw frame) →
    (raw.length ≤ kMaxDecodedEnvelopeBytes ∨ m.requestID = 0) ∧
      envelopeSize raw.length (L.encodeAll raw).length < raw.length

lemma Wraps.ne_raw (wraps : Wraps L rc m negotiated raw frame) (lossless : Lossless L)
    (marshaled : L.marshal m = .ok raw) : frame ≠ raw := by
  rintro rfl
  have inside := lossless.parse_marshal m _ marshaled
  rw [lossless.parse_marshal _ _ wraps.wrapped] at inside
  have allowed := wraps.compressible
  rw [← Option.some.inj inside] at allowed
  cases allowed

lemma Wraps.length (wraps : Wraps L rc m negotiated raw frame) (lossless : Lossless L) :
    frame.length = envelopeSize raw.length (L.encodeAll raw).length := by
  refine lossless.envelope_size raw frame ?_ wraps.wrapped
  rintro rfl
  exact Nat.not_lt_zero _ wraps.saves

lemma Wraps.routes_iff (wraps : Wraps L rc m negotiated raw frame) (lossless : Lossless L)
    (marshaled : L.marshal m = .ok raw) :
    (∀ s, onBinaryFrame L s frame = onBinaryFrame L s raw) ↔
      raw.length ≤ kMaxDecodedEnvelopeBytes ∨ m.requestID = 0 := by
  have plain (s : Connection Content) : onBinaryFrame L s raw = route s raw.length m := by
    rw [onBinaryFrame_of_parse (lossless.parse_marshal m raw marshaled),
      unwrap_of_compressible wraps.compressible]
  have wrapped (s : Connection Content) :
      onBinaryFrame L s frame =
        if raw.length ≤ kMaxDecodedEnvelopeBytes then route s frame.length m else s := by
    rw [onBinaryFrame_of_parse (lossless.parse_marshal _ _ wraps.wrapped),
      unwrap_envelope lossless marshaled wraps.compressible wraps.saves]
    by_cases below : raw.length ≤ kMaxDecodedEnvelopeBytes
    · rw [if_pos below, if_pos below]
    · rw [if_neg below, if_neg below]
  constructor
  · intro routes
    by_contra large
    simp only [not_or] at large
    have same := routes { pending := fun _ => some {} }
    rw [plain, wrapped, if_neg large.1] at same
    exact route_awaited large.2 same.symm
  · rintro (below | unrequested) s
    · rw [plain, wrapped, if_pos below, route_of_compressible wraps.compressible]
    · rw [plain, wrapped, route_unrequested wraps.compressible unrequested,
        route_unrequested wraps.compressible unrequested, ite_self]

/-- A message that marshals is sent, and its frame is transparent if and only if it fits. -/
theorem response_transparent_iff (lossless : Lossless L) (marshaled : L.marshal m = .ok raw) :
    ∃ frame, marshalResponse L rc m negotiated = .ok frame ∧
      (Transparent L m negotiated raw frame ↔ Fits L rc m negotiated raw) := by
  obtain ⟨frame, sent⟩ := marshalResponse_total rc negotiated marshaled
  refine ⟨frame, sent, ?_⟩
  obtain wraps | ⟨rfl, plain⟩ := marshalResponse_cases marshaled sent
  · have differs := wraps.ne_raw lossless marshaled
    constructor
    · intro clear _
      have smaller := clear.smaller differs
      rw [wraps.length lossless] at smaller
      exact ⟨(wraps.routes_iff lossless marshaled).mp clear.routes, smaller⟩
    · intro fits
      obtain ⟨ceiling, smaller⟩ := fits ⟨frame, wraps⟩
      refine ⟨(wraps.routes_iff lossless marshaled).mpr ceiling,
        fun _ => ⟨wraps.negotiated, wraps.compressible⟩, fun _ => ?_⟩
      rw [wraps.length lossless]
      exact smaller
  · constructor
    · rintro - ⟨frame', wraps⟩
      exact absurd wraps (plain frame')
    · intro _
      exact ⟨fun _ => rfl, fun differs => absurd rfl differs, fun differs => absurd rfl differs⟩

/-! ## Frames that count trailing zeros -/

/-- The values of the encoding, in one byte for those that have a name. -/
def encodingWire : Wire CompressionEncoding :=
  Wire.varint.via
    (fun e => match e with
      | .unspecified => 0
      | .zstd => 1
      | .other (.ofNat n) => 2 * n + 2
      | .other (.negSucc n) => 2 * n + 3)
    (fun n => some (if n = 0 then .unspecified else if n = 1 then .zstd
      else if n % 2 = 0 then .other (.ofNat (n / 2 - 1)) else .other (.negSucc (n / 2 - 1))))
    (fun e => by
      obtain _ | _ | n := e
      · rfl
      · rfl
      · cases n with
        | ofNat n => simp
        | negSucc n =>
          have odd : (2 * n + 3) % 2 = 1 := by omega
          have half : (2 * n + 3) / 2 - 1 = n := by omega
          simp [odd, half])

/-- The fields of an envelope, each with its tag. -/
def encodedWire : Wire EncodedServerMessage :=
  (Wire.both (.tagged 0x08 encodingWire) (.both (.tagged 0x10 .varint) (.tagged 0x1a .block))).via
    (fun e => (e.encoding, e.uncompressedSize, e.body))
    (fun (encoding, size, body) => some ⟨encoding, size, body⟩)
    (fun _ => rfl)

/-- The number of the field. -/
def Kind.field : Kind → Nat
  | .helloResponse => 10
  | .listFiles => 11
  | .getFile => 12
  | .updateTags => 13
  | .openSession => 14
  | .batch => 15
  | .progress => 16
  | .eos => 17
  | .error => 18
  | .getVocabulary => 19

def kindOf (n : Nat) : Option Kind :=
  [Kind.helloResponse, .listFiles, .getFile, .updateTags, .openSession, .batch, .progress, .eos, .error,
    .getVocabulary].find? fun k => k.field = n

/-- A payload as the number of its field and its bytes. -/
def payloadWire : Wire (Payload Bytes) :=
  (Wire.both .varint .block).via
    (fun p => match p with
      | .none => (0, [])
      | .response kind content => (kind.field, content)
      | .encoded e => (20, encodedWire.write e))
    (fun (n, bytes) =>
      if n = 0 then some .none
      else if n = 20 then (encodedWire.read bytes).map fun x => .encoded x.1
      else (kindOf n).map fun kind => .response kind bytes)
    (fun p => by
      cases p with
      | none => rfl
      | response kind _ => cases kind <;> rfl
      | encoded e =>
        have read := encodedWire.read_write e []
        rw [List.append_nil] at read
        simp [read])

/-- The numbers of a message and its payload. -/
def fieldsWire : Wire (ServerMessage Bytes) :=
  (Wire.both .varint (.both .varint payloadWire)).via
    (fun m => (m.requestID, m.subscriptionID, m.payload))
    (fun (request, subscription, payload) => some ⟨request, subscription, payload⟩)
    (fun _ => rfl)

def envelopeWire : Wire EncodedServerMessage := .tagged 0xa2 (.tagged 0x01 (.sized encodedWire))

def writeMessage : ServerMessage Bytes → Bytes
  | ⟨0, 0, .encoded e⟩ => envelopeWire.write e
  | m => (Wire.tagged 0x08 fieldsWire).write m

/-- Messages, told apart by their first tag. -/
def serverMessageWire : Wire (ServerMessage Bytes) where
  write := writeMessage
  read bytes := ((Wire.tagged 0x08 fieldsWire).read bytes).or
    ((envelopeWire.read bytes).map fun x => ({ payload := .encoded x.1 }, x.2))
  read_write m rest := by
    unfold writeMessage
    split
    · rename_i e
      have other : (Wire.tagged 0x08 fieldsWire).read (envelopeWire.write e ++ rest) = none := by
        simp [envelopeWire, Wire.tagged]
      rw [other, Option.none_or, envelopeWire.read_write, Option.map_some]
    · rw [(Wire.tagged 0x08 fieldsWire).read_write, Option.some_or]

def frameWire : Wire (Bytes × Nat) := .both .block .varint

/-- Protobuf, and frames that count the zeros at the end. -/
def zeroLibrary : Library Bytes where
  marshal m := .ok (serverMessageWire.write m)
  parse bytes := (serverMessageWire.read bytes).map Prod.fst
  encodeAll raw := frameWire.write (raw.rdropWhile (· = 0), (raw.rtakeWhile (· = 0)).length)
  findFrameCompressedSize bytes := (frameWire.read bytes).map fun x => bytes.length - x.2.length
  contentSize bytes := match frameWire.read bytes with
    | none => .error
    | some ((start, zeros), _) => .known (start.length + zeros)
  decompress cap bytes := match frameWire.read bytes with
    | none => .error "Unknown frame descriptor"
    | some ((start, zeros), _) =>
      if start.length + zeros ≤ cap then .ok (start ++ List.replicate zeros 0)
      else .error "Destination buffer is too small"

lemma rdropWhile_append_zeros {raw : Bytes} :
    raw.rdropWhile (· = 0) ++ List.replicate (raw.rtakeWhile (· = 0)).length 0 = raw := by
  have zeros : raw.rtakeWhile (· = 0) = List.replicate (raw.rtakeWhile (· = 0)).length 0 := by
    rw [List.eq_replicate_iff]
    refine ⟨rfl, fun b member => ?_⟩
    have zero := List.mem_rtakeWhile_imp member
    exact of_decide_eq_true zero
  rw [← zeros, List.rdropWhile_append_rtakeWhile]

lemma length_rdropWhile_add {raw : Bytes} :
    (raw.rdropWhile (· = 0)).length + (raw.rtakeWhile (· = 0)).length = raw.length := by
  rw [← List.length_append, List.rdropWhile_append_rtakeWhile]

lemma read_encodeAll {raw : Bytes} :
    frameWire.read (zeroLibrary.encodeAll raw) =
      some ((raw.rdropWhile (· = 0), (raw.rtakeWhile (· = 0)).length), []) := by
  have read := frameWire.read_write (raw.rdropWhile (· = 0), (raw.rtakeWhile (· = 0)).length) []
  rwa [List.append_nil] at read

lemma length_encodedWire {size : Nat} {body : Bytes} :
    (encodedWire.write ⟨.zstd, size, body⟩).length =
      2 + (1 + varintSize size) + (1 + varintSize body.length + body.length) := by
  have one : (encodingWire.write .zstd).length = 1 := rfl
  simp only [encodedWire, Wire.via, Wire.both, Wire.tagged, Wire.block, List.length_append, List.length_cons,
    one, varintSize]
  omega

lemma length_envelopeWire {size : Nat} {body : Bytes} :
    (envelopeWire.write ⟨.zstd, size, body⟩).length = envelopeSize size body.length := by
  simp only [envelopeWire, Wire.tagged, Wire.sized, Wire.via, Wire.block, List.length_cons,
    List.length_append, length_encodedWire]
  simp only [envelopeSize, varintSize]
  omega

lemma zeroLibrary_lossless : Lossless zeroLibrary where
  parse_marshal m b marshaled := by
    cases marshaled
    have read := serverMessageWire.read_write m []
    rw [List.append_nil] at read
    simp [zeroLibrary, read]
  envelope_size raw b _ marshaled := by
    cases marshaled
    exact length_envelopeWire
  nonempty raw _ empty := by
    have read : frameWire.read (zeroLibrary.encodeAll raw) = _ := read_encodeAll
    rw [empty] at read
    cases read
  oneFrame raw _ := by
    change (frameWire.read (zeroLibrary.encodeAll raw)).map _ = _
    rw [read_encodeAll]
    rfl
  content raw _ := by
    change (match frameWire.read (zeroLibrary.encodeAll raw) with
      | none => ContentSize.error
      | some ((start, zeros), _) => .known (start.length + zeros)) = _
    rw [read_encodeAll]
    exact congrArg ContentSize.known length_rdropWhile_add
  decompress raw _ := by
    simp only [zeroLibrary]
    change (match frameWire.read (zeroLibrary.encodeAll raw) with
      | none => Except.error "Unknown frame descriptor"
      | some ((start, zeros), _) =>
        if start.length + zeros ≤ raw.length then Except.ok (start ++ List.replicate zeros 0)
        else .error "Destination buffer is too small") = _
    rw [read_encodeAll]
    dsimp only
    rw [if_pos (Nat.le_of_eq length_rdropWhile_add), rdropWhile_append_zeros]

def zeros (n : Nat) : ServerMessage Bytes :=
  { requestID := 1, payload := .response .getVocabulary (List.replicate n 0) }

lemma write_zeros {n : Nat} : ∃ start : Bytes, start.length = 4 + varintSize n ∧
    serverMessageWire.write (zeros n) = start ++ List.replicate n 0 := by
  refine ⟨0x08 :: 0x01 :: 0x00 :: 0x13 :: Wire.varint.write n, ?_, ?_⟩
  · simp only [List.length_cons, varintSize]
    omega
  · simp [serverMessageWire, writeMessage, zeros, Wire.tagged, fieldsWire, payloadWire, Wire.via, Wire.both,
      Wire.block, Kind.field, Wire.varint, Wire.groups]

lemma le_length_rtakeWhile {start : Bytes} {n : Nat} :
    n ≤ ((start ++ List.replicate n 0).rtakeWhile (· = 0)).length := by
  induction n with
  | zero => exact Nat.zero_le _
  | succ n ih =>
    rw [List.replicate_succ', ← List.append_assoc, List.rtakeWhile_concat_pos _ _ _ (by rfl),
      List.length_append]
    exact Nat.succ_le_succ ih

lemma encodeAll_zeros {n : Nat} (many : 64 ≤ n) :
    (zeroLibrary.encodeAll (serverMessageWire.write (zeros n))).length <
      (serverMessageWire.write (zeros n)).length := by
  obtain ⟨start, length, written⟩ := write_zeros (n := n)
  rw [written]
  have counted : n ≤ ((start ++ List.replicate n 0).rtakeWhile (· = 0)).length := le_length_rtakeWhile
  have total : _ = (start ++ List.replicate n 0).length := length_rdropWhile_add
  have field : varintSize n ≤ n / 64 + 1 := Wire.length_varint_le
  simp only [zeroLibrary, frameWire, Wire.both, Wire.block, List.length_append, List.length_replicate]
    at total ⊢
  generalize ((start ++ List.replicate n 0).rtakeWhile (· = 0)).length = z at counted total ⊢
  generalize ((start ++ List.replicate n 0).rdropWhile (· = 0)).length = h at total ⊢
  have head : (Wire.varint.write h).length ≤ h / 64 + 1 := Wire.length_varint_le
  have tail : (Wire.varint.write z).length ≤ z / 64 + 1 := Wire.length_varint_le
  omega

lemma wraps_zeros {n : Nat} (many : 64 ≤ n) :
    Wraps zeroLibrary (some ⟨0⟩) (zeros n) true (serverMessageWire.write (zeros n))
      (serverMessageWire.write (envelope zeroLibrary (serverMessageWire.write (zeros n)))) where
  negotiated := rfl
  compressible := rfl
  threshold := ⟨_, rfl, Int.natCast_nonneg _⟩
  saves := encodeAll_zeros many
  wrapped := rfl

/-- A list of a hundred zeros is wrapped, and its frame is transparent. -/
theorem vocabulary_response_transparent :
    Lossless zeroLibrary ∧
    (∃ frame, Wraps zeroLibrary (some ⟨0⟩) (zeros 100) true (serverMessageWire.write (zeros 100)) frame) ∧
    ∃ frame, marshalResponse zeroLibrary (some ⟨0⟩) (zeros 100) true = .ok frame ∧
      Transparent zeroLibrary (zeros 100) true (serverMessageWire.write (zeros 100)) frame := by
  have fits : Fits zeroLibrary (some ⟨0⟩) (zeros 100) true (serverMessageWire.write (zeros 100)) := by
    intro _
    exact ⟨.inl (by decide +kernel), by decide +kernel⟩
  obtain ⟨frame, sent, clear⟩ := response_transparent_iff zeroLibrary_lossless
    (show zeroLibrary.marshal (zeros 100) = .ok (serverMessageWire.write (zeros 100)) from rfl)
  exact ⟨zeroLibrary_lossless, ⟨_, wraps_zeros (by decide)⟩, frame, sent, clear.mpr fits⟩

/-- A list of zeros at the client's ceiling is wrapped, and the caller that waits for it is never told. -/
theorem large_response_dropped :
    Lossless zeroLibrary ∧
    zeroLibrary.marshal (zeros kMaxDecodedEnvelopeBytes) =
      .ok (serverMessageWire.write (zeros kMaxDecodedEnvelopeBytes)) ∧
    ∃ frame, marshalResponse zeroLibrary (some ⟨0⟩) (zeros kMaxDecodedEnvelopeBytes) true = .ok frame ∧
      ¬ Transparent zeroLibrary (zeros kMaxDecodedEnvelopeBytes) true
        (serverMessageWire.write (zeros kMaxDecodedEnvelopeBytes)) frame := by
  generalize size : kMaxDecodedEnvelopeBytes = n
  have many : 64 ≤ n := by
    rw [← size, kMaxDecodedEnvelopeBytes]
    decide
  have marshaled : zeroLibrary.marshal (zeros n) = .ok (serverMessageWire.write (zeros n)) := rfl
  obtain ⟨frame, sent⟩ := marshalResponse_total (some ⟨0⟩) true marshaled
  refine ⟨zeroLibrary_lossless, rfl, frame, sent, fun clear => ?_⟩
  obtain wraps | ⟨-, plain⟩ := marshalResponse_cases marshaled sent
  · obtain below | unrequested := (wraps.routes_iff zeroLibrary_lossless marshaled).mp clear.routes
    · obtain ⟨start, length, written⟩ := write_zeros (n := n)
      rw [written, List.length_append, List.length_replicate, length, size] at below
      omega
    · cases unrequested
  · exact plain _ (wraps_zeros many)

end PjCloud.Rpc
