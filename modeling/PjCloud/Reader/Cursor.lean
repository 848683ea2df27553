import PjCloud.Lib.Wire

/-!
# Page tokens

The cursor of a listing (`server/internal/ws/handlers_catalog.go`): the position, the generation that it is of and
the hash of the filter, packed into bytes and written in base64. `Base64` is the encoding of the library. A token
is read exactly if its bytes are those of a cursor (`decodeListCursor_iff`).
-/

namespace PjCloud.Reader
open Lib

/-- The base64 encoding for URLs without padding. -/
structure Base64 where
  encodeToString : List UInt8 → String
  decodeString : String → Except String (List UInt8)

/-- What is encoded can be decoded, and the empty text has no bytes. -/
structure Base64.Lawful (base64 : Base64) : Prop where
  decode_encode : ∀ bytes, base64.decodeString (base64.encodeToString bytes) = .ok bytes
  decode_empty : base64.decodeString "" = .ok []

def listCursorVersion : UInt8 := 1

structure ListCursor where
  gen : List UInt8
  afterID : UInt64
  filterHash : UInt64
  deriving DecidableEq, Repr

def ListCursor.bytes (c : ListCursor) : List UInt8 :=
  listCursorVersion :: UInt8.ofNat c.gen.length ::
    (c.gen ++ (Wire.uint64.write c.afterID ++ Wire.uint64.write c.filterHash))

/-- `binary.BigEndian.Uint64`, for bytes that are long enough. -/
def readUint64 (bytes : List UInt8) : UInt64 := ((Wire.uint64.read bytes).map Prod.fst).getD 0

variable (base64 : Base64)

def encodeListCursor (c : ListCursor) : String := base64.encodeToString c.bytes

def decodeListCursor (tok : String) : Except String ListCursor :=
  match base64.decodeString tok with
  | .error e => .error ("not base64url: " ++ e)
  | .ok (version :: genLen :: body) =>
    if version ≠ listCursorVersion then .error ("unknown cursor version " ++ toString version.toNat)
    else if body.length ≠ genLen.toNat + 16 then .error "wrong length"
    else .ok
      { gen := body.take genLen.toNat
        afterID := readUint64 (body.drop genLen.toNat)
        filterHash := readUint64 (body.drop (genLen.toNat + 8)) }
  | .ok _ => .error "truncated"

variable {base64} {c : ListCursor} {tok : String} {n : UInt64} {rest : List UInt8}

@[simp] lemma readUint64_write : readUint64 (Wire.uint64.write n ++ rest) = n := by
  rw [readUint64, Wire.uint64.read_write]
  rfl

@[simp] lemma readUint64_write_nil : readUint64 (Wire.uint64.write n) = n := by
  rw [← List.append_nil (Wire.uint64.write n), readUint64_write]

@[simp] lemma length_uint64 : (Wire.uint64.write n).length = 8 := Wire.length_bigEndian

lemma length_byte (short : c.gen.length < 256) : (UInt8.ofNat c.gen.length).toNat = c.gen.length := by
  rw [UInt8.toNat_ofNat', Nat.mod_eq_of_lt short]

/-- A token is read if and only if its bytes are those of the cursor, whose generation fits. -/
lemma decodeListCursor_iff : decodeListCursor base64 tok = .ok c ↔
    base64.decodeString tok = .ok c.bytes ∧ c.gen.length < 256 := by
  constructor
  · intro decoded
    unfold decodeListCursor at decoded
    split at decoded
    · cases decoded
    · rename_i version genLen body raw
      split at decoded
      · cases decoded
      · rename_i current
        rw [not_not] at current
        split at decoded
        · cases decoded
        · rename_i long
          rw [not_not] at long
          cases decoded
          have small := genLen.toNat_lt
          -- the body is the generation and two times eight bytes
          have eight : ((body.drop genLen.toNat).take 8).length = 8 := by
            rw [List.length_take, List.length_drop]
            omega
          have eight' : (body.drop (genLen.toNat + 8)).length = 8 := by
            rw [List.length_drop]
            omega
          obtain ⟨after, first⟩ := Wire.exists_uint64 eight
          obtain ⟨hash, second⟩ := Wire.exists_uint64 eight'
          have split : body.drop genLen.toNat = Wire.uint64.write after ++ Wire.uint64.write hash := by
            rw [first, second, ← List.drop_drop, List.take_append_drop]
          have short : (body.take genLen.toNat).length = genLen.toNat := by
            rw [List.length_take]
            omega
          refine ⟨?_, by rw [short]; exact small⟩
          rw [raw, current, ListCursor.bytes, short, UInt8.ofNat_toNat, ← second, readUint64_write_nil, split,
            readUint64_write, ← split, List.take_append_drop]
    · cases decoded
  · rintro ⟨raw, short⟩
    have byte := length_byte short
    unfold decodeListCursor
    rw [raw, ListCursor.bytes]
    dsimp only
    rw [if_neg (not_not_intro rfl), byte, if_neg (by simp)]
    have position : (c.gen ++ (Wire.uint64.write c.afterID ++ Wire.uint64.write c.filterHash)).drop
        (c.gen.length + 8) = Wire.uint64.write c.filterHash := by
      rw [← List.drop_drop, List.drop_left, ← length_uint64 (n := c.afterID), List.drop_left]
    rw [List.take_left, List.drop_left, readUint64_write, position,
      readUint64_write_nil]

/-- A cursor is read back if and only if its generation fits. -/
lemma decode_encode_iff (lawful : base64.Lawful) :
    decodeListCursor base64 (encodeListCursor base64 c) = .ok c ↔ c.gen.length < 256 := by
  rw [decodeListCursor_iff, encodeListCursor, lawful.decode_encode]
  exact and_iff_right rfl

lemma encodeListCursor_ne_empty (lawful : base64.Lawful) : encodeListCursor base64 c ≠ "" := by
  intro empty
  have read := lawful.decode_encode c.bytes
  rw [← encodeListCursor, empty, lawful.decode_empty] at read
  cases read

end PjCloud.Reader
