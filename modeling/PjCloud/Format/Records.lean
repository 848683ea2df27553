import Mathlib.Data.Nat.Digits.Defs
import Mathlib.Tactic.Lemma

/-!
# Chunk records

The byte level of `server/internal/format/chunks.go`. A chunk is fetched as one MCAP record, an opcode
and a little-endian 64-bit length in front of the body; the body unpacks to a stream of records of the
same shape. `decodeChunkRecords` takes the chunk apart and `walk` is the loop of `Iterate` over the
stream, for any action on a record.

`Framed` says what a stream of records is without reference to the loop: `walk_framed` is that the loop
then acts on exactly those records, in order. The parsers of the `mcap` library and the decompressors
are the fields of `Library`.
-/

namespace PjCloud.Format

abbrev Bytes := List UInt8

/-- The result of `uint64` arithmetic. -/
def uint64 (n : Nat) : Nat := n % 2 ^ 64

/-- The conversion from `uint64` to `int64`. -/
@[irreducible] def toInt64 (n : Nat) : Int := Int.bmod n (2 ^ 64)

/-- Numbers below `2^63` are converted as they are. -/
lemma toInt64_of_lt {n : Nat} (h : n < 2 ^ 63) : toInt64 n = n := by
  unfold toInt64
  apply Int.bmod_eq_of_le <;> omega

/-- Addition of `int`. -/
def addInt64 (a b : Int) : Int := Int.bmod (a + b) (2 ^ 64)

/-- `binary.LittleEndian.Uint64`. -/
def leUint64 (bytes : Bytes) : Nat := Nat.ofDigits 256 (bytes.map UInt8.toNat)

/-- How a call returns: without an error, with one, or by a run-time panic. -/
inductive Outcome where
  | ok
  | error (message : String)
  | panicked
  deriving DecidableEq, Repr

/-- One hexadecimal digit of `%02x`. -/
def hexDigit (n : Nat) : Char := Nat.digitChar (n % 16)

/-- The `%02x` of a byte. -/
def hex2 (b : UInt8) : String := String.ofList [hexDigit (b.toNat / 16), hexDigit b.toNat]

/-- A chunk as `mcap.ParseChunk` returns it. -/
structure Chunk where
  compression : String
  uncompressedSize : Nat
  records : Bytes
  deriving DecidableEq, Repr

/-- A message as `mcap.ParseMessage` returns it. -/
structure McapMessage where
  channelID : Nat
  logTime : Nat
  publishTime : Nat
  data : Bytes
  deriving DecidableEq, Repr

/-- The `mcap` parsers, and the two decompressors with the size to reserve. -/
structure Library where
  parseChunk : Bytes → Except String Chunk
  parseMessage : Bytes → Except String McapMessage
  zstd : Nat → Bytes → Except String Bytes
  lz4 : Nat → Bytes → Except String Bytes

def recordHeaderLen : Nat := 9

/-- `mcap.OpChunk`. -/
def opChunk : UInt8 := 0x06

/-- `mcap.OpMessage`. -/
def opMessage : UInt8 := 0x05

/-- Unpack the records of a chunk. -/
def decompressChunk (L : Library) (chunk : Chunk) : Except String Bytes :=
  if chunk.compression = "" then
    .ok chunk.records
  else if chunk.compression = "zstd" then
    (L.zstd chunk.uncompressedSize chunk.records).mapError ("format: zstd decode chunk: " ++ ·)
  else if chunk.compression = "lz4" then
    (L.lz4 chunk.uncompressedSize chunk.records).mapError ("format: lz4 decode chunk: " ++ ·)
  else
    .error ("format: unsupported chunk compression " ++ chunk.compression.quote)

/-- Take the record of a chunk apart. -/
def decodeChunkRecords (L : Library) (chunkBytes : Bytes) : Except Outcome Bytes :=
  let size := chunkBytes.length
  if size < recordHeaderLen then
    .error (.error s!"format: chunk blob too short ({size} bytes)")
  else if chunkBytes.headD 0 ≠ opChunk then
    let op := hex2 (chunkBytes.headD 0)
    .error (.error s!"format: expected chunk record (op 0x06), got op 0x{op}")
  else
    let bodyLen := leUint64 ((chunkBytes.drop 1).take 8)
    let bodyEnd := addInt64 recordHeaderLen (toInt64 bodyLen)
    if bodyEnd > size then
      .error (.error s!"format: chunk record truncated (need {bodyEnd}, have {size})")
    else if bodyEnd < recordHeaderLen then
      -- the slice expression chunkBytes[recordHeaderLen:bodyEnd] is out of range
      .error .panicked
    else
      match L.parseChunk ((chunkBytes.drop recordHeaderLen).take (bodyEnd.toNat - recordHeaderLen)) with
      | .error e => .error (.error ("format: parse chunk: " ++ e))
      | .ok chunk => (decompressChunk L chunk).mapError .error

section Walk
variable {σ : Type} {visit : σ → UInt8 → Bytes → σ × Option String}

/-- The loop over the records from `off` on. `visit` acts on one record; its error ends the loop. -/
def walk (visit : σ → UInt8 → Bytes → σ × Option String) (records : Bytes) :
    Nat → Nat → σ → σ × Outcome
  | 0, _, s => (s, .ok)
  | fuel + 1, off, s =>
    if off + recordHeaderLen ≤ records.length then
      let op := records.getD off 0
      let bodyLen := leUint64 ((records.drop (off + 1)).take 8)
      let bodyStart := off + recordHeaderLen
      let bodyEnd := addInt64 bodyStart (toInt64 bodyLen)
      if bodyEnd > records.length then
        let code := hex2 op
        let avail := records.length - bodyStart
        (s, .error s!"format: truncated record in chunk (op=0x{code} len={bodyLen} avail={avail})")
      else if bodyEnd < bodyStart then
        -- the slice expression records[bodyStart:bodyEnd] is out of range
        (s, .panicked)
      else
        let body := (records.drop bodyStart).take (bodyEnd.toNat - bodyStart)
        match visit s op body with
        | (s, some e) => (s, .error e)
        | (s, none) => walk visit records fuel bodyEnd.toNat s
    else
      (s, .ok)

/-- Act on a list of records. -/
def visitAll (visit : σ → UInt8 → Bytes → σ × Option String) : List (UInt8 × Bytes) → σ → σ × Outcome
  | [], s => (s, .ok)
  | (op, body) :: rest, s =>
    match visit s op body with
    | (s, some e) => (s, .error e)
    | (s, none) => visitAll visit rest s

/-- The bytes are these records one after the other, up to a rest too short for a record. -/
inductive Framed : Bytes → List (UInt8 × Bytes) → Prop where
  | done {tail} : tail.length < recordHeaderLen → Framed tail []
  | record {op len body rest recs} :
    len.length = 8 →
    leUint64 len = body.length →
    Framed rest recs →
    Framed (op :: (len ++ (body ++ rest))) ((op, body) :: recs)

lemma walk_record {pre len body rest : Bytes} {op fuel s} (eight : len.length = 8)
    (size : leUint64 len = body.length)
    (small : (pre ++ op :: (len ++ (body ++ rest))).length < 2 ^ 63) :
    walk visit (pre ++ op :: (len ++ (body ++ rest))) (fuel + 1) pre.length s =
      match visit s op body with
      | (s, some e) => (s, .error e)
      | (s, none) => walk visit (pre ++ op :: (len ++ (body ++ rest))) fuel
          (pre.length + recordHeaderLen + body.length) s := by
  have total : (pre ++ op :: (len ++ (body ++ rest))).length =
      pre.length + recordHeaderLen + body.length + rest.length := by
    simp only [List.length_append, List.length_cons, eight, recordHeaderLen]
    omega
  rw [total] at small
  have hop : (pre ++ op :: (len ++ (body ++ rest))).getD pre.length 0 = op := by simp
  have hlen : leUint64 (((pre ++ op :: (len ++ (body ++ rest))).drop (pre.length + 1)).take 8) =
      body.length := by
    rw [← size, List.drop_length_add_append, List.drop_succ_cons, List.drop_zero, List.take_left' eight]
  -- a slice is shorter than 2^63 bytes, so the end of the body does not wrap around
  have hend : addInt64 (pre.length + recordHeaderLen : Nat) (toInt64 body.length) =
      (pre.length + recordHeaderLen + body.length : Nat) := by
    rw [toInt64_of_lt (by omega)]
    apply Int.bmod_eq_of_le <;> omega
  have hbody : ((pre ++ op :: (len ++ (body ++ rest))).drop (pre.length + recordHeaderLen)).take
      (pre.length + recordHeaderLen + body.length - (pre.length + recordHeaderLen)) = body := by
    rw [List.drop_length_add_append, Nat.add_sub_cancel_left, recordHeaderLen, List.drop_succ_cons,
      List.drop_left' eight, List.take_left' rfl]
  have go : pre.length + recordHeaderLen ≤
      pre.length + recordHeaderLen + body.length + rest.length := by
    omega
  have fits : ¬ ((pre.length + recordHeaderLen + body.length : Nat) : Int) >
      (pre.length + recordHeaderLen + body.length + rest.length : Nat) := by
    omega
  have forward : ¬ ((pre.length + recordHeaderLen + body.length : Nat) : Int) <
      (pre.length + recordHeaderLen : Nat) := by
    omega
  simp only [walk, total, go, hop, hlen, hend, fits, forward, hbody, if_true, if_false,
    Int.toNat_natCast]

lemma walk_framed (pre : Bytes) {rest : Bytes} {recs} (framed : Framed rest recs) :
    ∀ {fuel s}, (pre ++ rest).length < 2 ^ 63 → rest.length < fuel →
      walk visit (pre ++ rest) fuel pre.length s = visitAll visit recs s := by
  induction framed generalizing pre with
  | @done tail short =>
    intro fuel s _ enough
    obtain ⟨fuel, rfl⟩ := Nat.exists_eq_add_one_of_ne_zero (Nat.ne_zero_of_lt enough)
    have stop : ¬ pre.length + recordHeaderLen ≤ (pre ++ tail).length := by
      rw [List.length_append]
      omega
    simp only [walk, stop, if_false, visitAll]
  | @record op len body rest recs eight size framed ih =>
    intro fuel s small enough
    obtain ⟨fuel, rfl⟩ := Nat.exists_eq_add_one_of_ne_zero (Nat.ne_zero_of_lt enough)
    rw [walk_record eight size small, visitAll]
    -- the rest of the stream is framed with this record in front of it
    have split : pre ++ op :: (len ++ (body ++ rest)) = (pre ++ op :: (len ++ body)) ++ rest := by simp
    have place : pre.length + recordHeaderLen + body.length = (pre ++ op :: (len ++ body)).length := by
      simp only [List.length_append, List.length_cons, eight, recordHeaderLen]
      omega
    have shorter : rest.length < fuel := by
      simp only [List.length_cons, List.length_append] at enough
      omega
    rw [split] at small ⊢
    rw [place]
    split
    · rfl
    · exact ih _ small shorter

lemma walk_rel {τ : Type} {visit' : τ → UInt8 → Bytes → τ × Option String} (rel : σ → τ → Prop)
    (together : ∀ s t op body, rel s t →
      rel (visit s op body).1 (visit' t op body).1 ∧ (visit s op body).2 = (visit' t op body).2)
    (records : Bytes) (fuel : Nat) : ∀ (off : Nat) {s t}, rel s t →
      rel (walk visit records fuel off s).1 (walk visit' records fuel off t).1 ∧
        (walk visit records fuel off s).2 = (walk visit' records fuel off t).2 := by
  induction fuel with
  | zero =>
    intro off s t start
    exact ⟨start, rfl⟩
  | succ fuel ih =>
    intro off s t start
    simp only [walk]
    split
    · -- the checks on the record do not look at the state
      generalize addInt64 _ _ = bodyEnd
      generalize List.take (bodyEnd.toNat - (off + recordHeaderLen)) _ = body
      generalize records.getD off 0 = op
      split
      · exact ⟨start, rfl⟩
      · split
        · exact ⟨start, rfl⟩
        · obtain ⟨next, same⟩ := together s t op body start
          revert next same
          generalize visit s op body = x
          generalize visit' t op body = y
          obtain ⟨x, e⟩ := x
          obtain ⟨y, e'⟩ := y
          intro next same
          obtain rfl : e = e' := same
          cases e with
          | none => exact ih _ next
          | some e => exact ⟨next, rfl⟩
    · exact ⟨start, rfl⟩

end Walk

section Encode
variable {L : Library}

def leBytes : Nat → Nat → Bytes
  | 0, _ => []
  | width + 1, n => UInt8.ofNat (n % 256) :: leBytes width (n / 256)

@[simp] lemma length_leBytes {width n : Nat} : (leBytes width n).length = width := by
  induction width generalizing n with
  | zero => rfl
  | succ width ih => rw [leBytes, List.length_cons, ih]

lemma leUint64_leBytes {width n : Nat} (h : n < 256 ^ width) : leUint64 (leBytes width n) = n := by
  induction width generalizing n with
  | zero =>
    rw [Nat.pow_zero] at h
    exact (Nat.lt_one_iff.mp h).symm
  | succ width ih =>
    have rest := ih (Nat.div_lt_of_lt_mul (by rwa [Nat.pow_succ'] at h) : n / 256 < 256 ^ width)
    have byte : (UInt8.ofNat (n % 256)).toNat = n % 256 := by
      rw [UInt8.toNat_ofNat']
      exact Nat.mod_mod_of_dvd _ (dvd_refl _)
    unfold leUint64 at rest ⊢
    rw [leBytes, List.map_cons, Nat.ofDigits_cons, rest, byte]
    exact Nat.mod_add_div n 256

def encodeRecord (op : UInt8) (body : Bytes) : Bytes := op :: (leBytes 8 body.length ++ body)

lemma framed_encodeRecord {recs : List (UInt8 × Bytes)} (small : ∀ rec ∈ recs, rec.2.length < 2 ^ 64) :
    Framed (recs.flatMap fun rec => encodeRecord rec.1 rec.2) recs := by
  induction recs with
  | nil => exact .done (by decide)
  | cons rec rest ih =>
    have tail := ih fun rec h => small rec (List.mem_cons_of_mem _ h)
    rw [List.flatMap_cons, encodeRecord, List.cons_append, List.append_assoc]
    exact .record length_leBytes (leUint64_leBytes (small rec List.mem_cons_self)) tail

lemma decodeChunkRecords_encodeRecord {body : Bytes} {chunk : Chunk} (small : body.length < 2 ^ 62)
    (parsed : L.parseChunk body = .ok chunk) :
    decodeChunkRecords L (encodeRecord opChunk body) = (decompressChunk L chunk).mapError .error := by
  have total : (encodeRecord opChunk body).length = recordHeaderLen + body.length := by
    simp only [encodeRecord, List.length_cons, List.length_append, length_leBytes, recordHeaderLen]
    omega
  have hlen : leUint64 (((encodeRecord opChunk body).drop 1).take 8) = body.length := by
    rw [encodeRecord, List.drop_succ_cons, List.drop_zero, List.take_left' length_leBytes]
    exact leUint64_leBytes (by omega)
  have hend : addInt64 recordHeaderLen (toInt64 body.length) = (recordHeaderLen + body.length : Nat) := by
    rw [toInt64_of_lt (by omega)]
    apply Int.bmod_eq_of_le <;> simp only [recordHeaderLen] <;> omega
  have hbody : ((encodeRecord opChunk body).drop recordHeaderLen).take
      (recordHeaderLen + body.length - recordHeaderLen) = body := by
    rw [Nat.add_sub_cancel_left, encodeRecord, recordHeaderLen, List.drop_succ_cons,
      List.drop_left' length_leBytes, List.take_length]
  have op : (encodeRecord opChunk body).headD 0 = opChunk := rfl
  have long : ¬ recordHeaderLen + body.length < recordHeaderLen := by omega
  have fits : ¬ ((recordHeaderLen + body.length : Nat) : Int) > (recordHeaderLen + body.length : Nat) :=
    lt_irrefl _
  have forward : ¬ ((recordHeaderLen + body.length : Nat) : Int) < recordHeaderLen := by omega
  simp only [decodeChunkRecords, total, long, hlen, hend, fits, forward, Int.toNat_natCast, hbody,
    parsed, op, if_false, ne_eq, not_true_eq_false]

end Encode

end PjCloud.Format
