import Mathlib.Tactic.Lemma
import PjCloud.Format.Records

/-!
# The client's decoder

`decodeBatch` (`plugin/toolbox_mcap_cloud/src/session_decode.cpp`), as the native build has it: from a
`MessageBatch` of the wire to its messages. Nothing is allocated above the ceiling that the caller sets, and
an encoding that the client does not know is an error.

`Decoders` are the libraries: zstd, the frame decoder of LZ4, and the protobuf parser.
-/

namespace PjCloud.Client
open Format

/-- The values of `PayloadEncoding` that the client can meet. -/
inductive PayloadEncoding where
  | unspecified
  | raw
  | zstd
  | lz4
  | other (n : Int)
  deriving DecidableEq, Repr

/-- The values of `BodyEncoding` that the client can meet. -/
inductive BodyEncoding where
  | unspecified
  | none
  | zstd
  | other (n : Int)
  deriving DecidableEq, Repr

/-- `pj_cloud::v1::Message`. -/
structure Message where
  topicID : Nat
  schemaID : Nat
  logTimeNs : Int
  publishTimeNs : Int
  payloadEncoding : PayloadEncoding
  payload : Bytes
  deriving DecidableEq, Repr

/-- `pj_cloud::v1::MessageBatch`. -/
structure MessageBatch where
  seq : Nat
  sourceFileID : Nat
  messages : List Message
  bodyEncoding : BodyEncoding
  bodyUncompressedSize : Nat
  body : Bytes
  deriving DecidableEq, Repr

/-- A message as the client uses it. -/
structure DecodedMessage where
  topicID : Nat
  schemaID : Nat
  logTimeNs : Int
  publishTimeNs : Int
  payload : Bytes
  deriving DecidableEq, Repr

/-- What `ZSTD_getFrameContentSize` returns. -/
inductive ContentSize where
  | error
  | unknown
  | known (n : Nat)
  deriving DecidableEq, Repr

/-- What a call of `LZ4F_decompress` returns. -/
structure Lz4Pass (Dctx : Type) where
  dctx : Dctx
  produced : Bytes
  consumed : Nat
  hint : Nat

/-- The libraries of the client. A `Dctx` is a decompression context of LZ4. -/
structure Decoders where
  Dctx : Type
  contentSize : Bytes → ContentSize
  decompress : Nat → Bytes → Except String Bytes
  createContext : Except String Dctx
  lz4Decompress : Dctx → Nat → Bytes → Except String (Lz4Pass Dctx)
  parseBody : Bytes → Option (List Message)
  parseBatch : Bytes → Option MessageBatch

def kMaxDecodedBatchBytes : Nat := 512 * 1024 * 1024

section Decode
variable (D : Decoders) (maxBytes : Nat)

/-- Decode one zstd frame. -/
def zstdDecodeAll (bytes : Bytes) : Except String Bytes :=
  let decode cap := (D.decompress cap bytes).mapError ("ZSTD decode failed: " ++ ·)
  match D.contentSize bytes with
  | .error => .error "invalid ZSTD frame"
  | .unknown => decode (min (bytes.length * 8 + 1024) maxBytes)
  | .known content =>
    if content > maxBytes then
      .error s!"ZSTD frame declares {content} bytes (over the decode ceiling)"
    else
      decode content

/-- The passes over an LZ4 frame. The library consumes no more than it is given. -/
def lz4Passes (dctx : D.Dctx) (out src : Bytes) : Except String Bytes :=
  match D.lz4Decompress dctx (64 * 1024) src with
  | .error e => .error ("LZ4 decode failed: " ++ e)
  | .ok pass =>
    let thisSrc := min pass.consumed src.length
    if maxBytes < (out ++ pass.produced).length then
      .error "LZ4 decode exceeds the decode ceiling"
    else if pass.hint = 0 then
      if src.length - thisSrc ≠ 0 then .error "LZ4 decode failed: trailing data after frame end"
      else .ok (out ++ pass.produced)
    else if thisSrc = 0 ∧ pass.produced = [] then
      .error "LZ4 decode failed: truncated frame"
    else
      lz4Passes pass.dctx (out ++ pass.produced) (src.drop thisSrc)
  termination_by src.length + (maxBytes - out.length)
  decreasing_by
    -- a pass consumes something or produces something, and what it produces keeps within the ceiling
    rename_i within _ stuck
    rw [List.length_append] at within ⊢
    rw [List.length_drop]
    by_cases idle : pass.produced = []
    · have some : thisSrc ≠ 0 := fun none => stuck ⟨none, idle⟩
      omega
    · have some := List.length_pos_iff.mpr idle
      omega

/-- Decode one LZ4 frame. -/
def lz4DecodeAll (bytes : Bytes) : Except String Bytes :=
  match D.createContext with
  | .error e => .error ("LZ4 ctx create failed: " ++ e)
  | .ok dctx => lz4Passes D maxBytes dctx [] bytes

/-- A message with its payload decoded. -/
def Message.decodedWith (m : Message) (payload : Bytes) : DecodedMessage where
  topicID := m.topicID
  schemaID := m.schemaID
  logTimeNs := m.logTimeNs
  publishTimeNs := m.publishTimeNs
  payload := payload

/-- The payload of a message that is not packed with its batch. -/
def decodePayload (m : Message) : Except String Bytes :=
  match m.payloadEncoding with
  | .zstd => zstdDecodeAll D maxBytes m.payload
  | .lz4 => lz4DecodeAll D maxBytes m.payload
  | .raw | .unspecified | .other _ => .ok m.payload

/-- `std::numeric_limits<int>::max()`. -/
def intMax : Nat := 2 ^ 31 - 1

/-- The messages in the body of a batch, with the size that the server announced for it. -/
def decodeBody (size : Nat) (raw : Bytes) : Except String (List DecodedMessage) :=
  if raw.length ≠ size then .error "batch body_uncompressed_size mismatch"
  else if raw.length > intMax then .error "batch body too large to parse"
  else
    match D.parseBody raw with
    | none => .error "corrupt MessageBatchBody"
    | some messages => .ok (messages.map fun m => m.decodedWith m.payload)

/-- Decode a batch. -/
def decodeBatch (batch : MessageBatch) : Except String (List DecodedMessage) :=
  match batch.bodyEncoding with
  | .zstd => zstdDecodeAll D maxBytes batch.body >>= decodeBody D batch.bodyUncompressedSize
  | .none | .unspecified =>
    batch.messages.mapM fun m => (decodePayload D maxBytes m).map m.decodedWith
  | .other n => .error s!"unknown body_encoding {n} (client rejects)"

end Decode

end PjCloud.Client
