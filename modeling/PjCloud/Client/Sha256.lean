import Mathlib.Data.List.Basic
import Mathlib.Algebra.BigOperators.Group.List.Basic
import PjCloud.Lib.Fips180

/-!
# Digests

`core/sha256.cpp` of the plugin against FIPS 180-4. A pointer into a buffer is the function from an index to the byte there.
-/

namespace PjCloud.Client.Sha256
open Lib.Fips180 (State bits)

abbrev Byte := BitVec 8

/-! ## The code -/

def kK : List (BitVec 32) :=
  [0x428a2f98, 0x71374491, 0xb5c0fbcf, 0xe9b5dba5, 0x3956c25b, 0x59f111f1, 0x923f82a4, 0xab1c5ed5,
   0xd807aa98, 0x12835b01, 0x243185be, 0x550c7dc3, 0x72be5d74, 0x80deb1fe, 0x9bdc06a7, 0xc19bf174,
   0xe49b69c1, 0xefbe4786, 0x0fc19dc6, 0x240ca1cc, 0x2de92c6f, 0x4a7484aa, 0x5cb0a9dc, 0x76f988da,
   0x983e5152, 0xa831c66d, 0xb00327c8, 0xbf597fc7, 0xc6e00bf3, 0xd5a79147, 0x06ca6351, 0x14292967,
   0x27b70a85, 0x2e1b2138, 0x4d2c6dfc, 0x53380d13, 0x650a7354, 0x766a0abb, 0x81c2c92e, 0x92722c85,
   0xa2bfe8a1, 0xa81a664b, 0xc24b8b70, 0xc76c51a3, 0xd192e819, 0xd6990624, 0xf40e3585, 0x106aa070,
   0x19a4c116, 0x1e376c08, 0x2748774c, 0x34b0bcb5, 0x391c0cb3, 0x4ed8aa4a, 0x5b9cca4f, 0x682e6ff3,
   0x748f82ee, 0x78a5636f, 0x84c87814, 0x8cc70208, 0x90befffa, 0xa4506ceb, 0xbef9a3f7, 0xc67178f2]

def rotr (x : BitVec 32) (n : Nat) : BitVec 32 := (x >>> n) ||| (x <<< (32 - n))

/-- The first sixteen words of the schedule. -/
def load (block : Nat → Byte) (t : Nat) : BitVec 32 :=
  ((block (4 * t)).setWidth 32 <<< 24) ||| ((block (4 * t + 1)).setWidth 32 <<< 16) |||
    ((block (4 * t + 2)).setWidth 32 <<< 8) ||| (block (4 * t + 3)).setWidth 32

/-- The other ones, each from those before it. -/
def extend (w : List (BitVec 32)) (t : Nat) : List (BitVec 32) :=
  let s0 := rotr (w.getD (t - 15) 0) 7 ^^^ rotr (w.getD (t - 15) 0) 18 ^^^ (w.getD (t - 15) 0 >>> 3)
  let s1 := rotr (w.getD (t - 2) 0) 17 ^^^ rotr (w.getD (t - 2) 0) 19 ^^^ (w.getD (t - 2) 0 >>> 10)
  w ++ [w.getD (t - 16) 0 + s0 + w.getD (t - 7) 0 + s1]

def schedule (block : Nat → Byte) : List (BitVec 32) :=
  (List.range' 16 48).foldl extend ((List.range 16).map (load block))

def round (w : List (BitVec 32)) (s : State) (t : Nat) : State :=
  let bigS1 := rotr s.e 6 ^^^ rotr s.e 11 ^^^ rotr s.e 25
  let ch := (s.e &&& s.f) ^^^ (~~~s.e &&& s.g)
  let t1 := s.h + bigS1 + ch + kK.getD t 0 + w.getD t 0
  let bigS0 := rotr s.a 2 ^^^ rotr s.a 13 ^^^ rotr s.a 22
  let maj := (s.a &&& s.b) ^^^ (s.a &&& s.c) ^^^ (s.b &&& s.c)
  let t2 := bigS0 + maj
  { h := s.g, g := s.f, f := s.e, e := s.d + t1, d := s.c, c := s.b, b := s.a, a := t1 + t2 }

def compress (h : State) (block : Nat → Byte) : State :=
  h.add ((List.range 64).foldl (round (schedule block)) h)

def initialHash : State :=
  ⟨0x6a09e667, 0xbb67ae85, 0x3c6ef372, 0xa54ff53a, 0x510e527f, 0x9b05688c, 0x1f83d9ab, 0x5be0cd19⟩

def tailBlocks (rem : Nat) : Nat := if rem + 1 + 8 ≤ 64 then 1 else 2

/-- The buffer for the padding as the writes leave it, what is written last first. -/
def tail (data : List Byte) (off rem i : Nat) : Byte :=
  let bitLen : BitVec 64 := BitVec.ofNat 64 data.length * 8
  let stop := tailBlocks rem * 64
  if stop - 8 ≤ i ∧ i < stop then (bitLen >>> (8 * (stop - 1 - i))).setWidth 8
  else if i = rem then 0x80
  else if i < rem then data.getD (off + i) 0
  else 0

def sha256 (data : List Byte) : List Byte :=
  let off := data.length / 64 * 64
  let rem := data.length - off
  let h := (List.range (data.length / 64)).foldl (fun h i => compress h fun j => data.getD (64 * i + j) 0) initialHash
  let h := compress h (tail data off rem)
  let h := if tailBlocks rem = 2 then compress h fun j => tail data off rem (64 + j) else h
  h.words.flatMap fun (x : BitVec 32) =>
    [(x >>> 24).setWidth 8, (x >>> 16).setWidth 8, (x >>> 8).setWidth 8, x.setWidth 8]

def kHex : List Char := "0123456789abcdef".toList

def sha256HexPrefix (data : List Byte) (bytes : Nat) : List Char :=
  let digest := sha256 data
  let bytes := if bytes > digest.length then digest.length else bytes
  (digest.take bytes).flatMap fun (b : Byte) => [kHex.getD (b >>> 4).toNat '?', kHex.getD (b &&& 0xF).toNat '?']

/-! ## A block -/

lemma getD_map_range {f : Nat → BitVec 32} {n t : Nat} (inside : t < n) : ((List.range n).map f).getD t 0 = f t := by
  simp [List.getD, inside]

lemma sum_eq (x2 x7 x15 x16 : BitVec 32) :
    x16 + (rotr x15 7 ^^^ rotr x15 18 ^^^ (x15 >>> 3)) + x7 + (rotr x2 17 ^^^ rotr x2 19 ^^^ (x2 >>> 10)) =
      Lib.Fips180.sigma1 x2 + x7 + Lib.Fips180.sigma0 x15 + x16 := by
  change x16 + Lib.Fips180.sigma0 x15 + x7 + Lib.Fips180.sigma1 x2 = _
  ac_rfl

lemma schedule_eq (block : Nat → Byte) : schedule block = (List.range 64).map (Lib.Fips180.schedule (load block)) := by
  have loop (k : Nat) : (List.range' 16 k).foldl extend ((List.range 16).map (load block)) =
      (List.range (16 + k)).map (Lib.Fips180.schedule (load block)) := by
    induction k with
    | zero =>
      apply List.map_congr_left
      intro t mem
      rw [Lib.Fips180.schedule, if_pos (List.mem_range.mp mem)]
    | succ k ih =>
      have unfolds := Lib.Fips180.schedule.eq_1 (load block) (16 + k)
      rw [if_neg (by omega)] at unfolds
      rw [List.range'_concat, List.foldl_append, ih, List.foldl_cons, List.foldl_nil, Nat.one_mul, ← Nat.add_assoc,
        List.range_succ, List.map_append, List.map_singleton, extend, getD_map_range (by omega), getD_map_range (by omega),
        getD_map_range (by omega), getD_map_range (by omega), unfolds]
      exact congrArg _ (congrArg (fun x => [x]) (sum_eq _ _ _ _))
  exact loop 48

lemma kK_eq : kK = Lib.Fips180.constants := by decide +kernel

lemma initialHash_eq : initialHash = Lib.Fips180.initial := by decide +kernel

lemma schedule_congr {m m' : Nat → BitVec 32} (same : ∀ t < 16, m t = m' t) (t : Nat) :
    Lib.Fips180.schedule m t = Lib.Fips180.schedule m' t := by
  induction t using Nat.strongRecOn with
  | ind t ih =>
    rw [Lib.Fips180.schedule, Lib.Fips180.schedule.eq_1 m']
    split
    · exact same t ‹_›
    · rw [ih (t - 2) (by omega), ih (t - 7) (by omega), ih (t - 15) (by omega), ih (t - 16) (by omega)]

lemma compress_eq {block : Nat → Byte} {m : Nat → BitVec 32} (words : ∀ t < 16, load block t = m t) (h : State) :
    compress h block = Lib.Fips180.compress h m := by
  have rounds : (List.range 64).foldl (round (schedule block)) h =
      (List.range 64).foldl (Lib.Fips180.step (Lib.Fips180.schedule m)) h := by
    apply List.foldl_ext
    intro s t mem
    have word : (schedule block).getD t 0 = Lib.Fips180.schedule m t := by
      rw [schedule_eq, getD_map_range (List.mem_range.mp mem), schedule_congr words]
    rw [round, kK_eq, word]
    rfl
  simp [compress, Lib.Fips180.compress, rounds, State.add, BitVec.add_comm]

/-! ## The padding -/

/-- The bytes of a number, the most significant one first. -/
def bytesOf {m : Nat} (x : BitVec (8 * m)) : List Byte := (List.range m).map fun i => (x >>> (8 * (m - 1 - i))).setWidth 8

lemma flatMap_bytesOf {m : Nat} (x : BitVec (8 * m)) : (bytesOf x).flatMap bits = bits x := by
  have length : ((bytesOf x).flatMap bits).length = (bits x).length := by
    simp [bytesOf, bits, List.length_flatMap, Function.comp_def, Nat.mul_comm]
  apply List.ext_getElem length
  intro k left right
  have inside : k < 8 * m := by simpa [bits] using right
  rw [← List.getD_eq_getElem _ false left, ← List.getD_eq_getElem _ false right, Lib.Fips180.getD_flatMap_bits]
  have byte : (bytesOf x).getD (k / 8) 0 = (x >>> (8 * (m - 1 - k / 8))).setWidth 8 := by
    simp [bytesOf, List.getD, show k / 8 < m by omega]
  rw [byte, BitVec.getMsbD_setWidth, BitVec.getMsbD_ushiftRight]
  have place : k % 8 + 8 * m - 8 - 8 * (m - 1 - k / 8) = k := by omega
  simp [bits, List.getD, inside, place, show 8 ≤ k % 8 + 8 * m by omega, show k % 8 + 8 * m - 8 < 8 * m by omega,
    show ¬ k % 8 + 8 * m - 8 < 8 * (m - 1 - k / 8) by omega]

/-- The padded message in bytes. -/
def padded (data : List Byte) : List Byte :=
  data ++ 0x80 :: (List.replicate ((119 - data.length % 64) % 64) 0 ++
    @bytesOf 8 (BitVec.ofNat 64 data.length * 8))

variable (data : List Byte)

lemma length_flatMap_bits : (data.flatMap bits).length = 8 * data.length := by
  simp [List.length_flatMap, bits, Nat.mul_comm]

lemma pad_eq : Lib.Fips180.pad (data.flatMap bits) = (padded data).flatMap bits := by
  have zeros (z : Nat) : (List.replicate z (0 : Byte)).flatMap bits = List.replicate (8 * z) false := by
    induction z with
    | zero => rfl
    | succ z ih =>
      rw [List.replicate_succ, List.flatMap_cons, ih, Nat.mul_succ, Nat.add_comm, List.replicate_add]
      rfl
  have first : bits (0x80 : Byte) = true :: List.replicate 7 false := by decide
  have count : (959 - 8 * data.length % 512) % 512 = 7 + 8 * ((119 - data.length % 64) % 64) := by omega
  have length : BitVec.ofNat 64 (8 * data.length) = BitVec.ofNat 64 data.length * 8 := by
    rw [Nat.mul_comm, BitVec.ofNat_mul]
    rfl
  rw [Lib.Fips180.pad, length_flatMap_bits, padded, List.flatMap_append, List.flatMap_cons, List.flatMap_append, zeros,
    flatMap_bytesOf, first, count, List.replicate_add, length]
  simp

lemma length_padded : (padded data).length =
    64 * (data.length / 64 + tailBlocks (data.length - data.length / 64 * 64)) := by
  simp only [padded, bytesOf, tailBlocks, List.length_append, List.length_cons, List.length_replicate, List.length_map,
    List.length_range]
  split <;> omega

lemma padded_eq_data {k : Nat} (inside : k < data.length) : (padded data).getD k 0 = data.getD k 0 :=
  List.getD_append _ _ _ _ inside

/-- What remains of the data, the one bit, zeros and the length, up to the end of the last block. -/
lemma padded_eq_tail {j : Nat} (inside : j < 64 * tailBlocks (data.length - data.length / 64 * 64)) :
    (padded data).getD (64 * (data.length / 64) + j) 0 =
      tail data (data.length / 64 * 64) (data.length - data.length / 64 * 64) j := by
  have blocks : tailBlocks (data.length - data.length / 64 * 64) * 64 =
      data.length % 64 + 1 + (119 - data.length % 64) % 64 + 8 := by
    unfold tailBlocks
    split <;> omega
  have rem : data.length - data.length / 64 * 64 = data.length % 64 := by omega
  rw [tail, blocks, rem]
  by_cases read : j < data.length % 64
  · rw [padded_eq_data _ (by omega), if_neg (by omega), if_neg (by omega), if_pos read, Nat.mul_comm]
  rw [padded, List.getD_append_right _ _ _ _ (by omega),
    show 64 * (data.length / 64) + j - data.length = j - data.length % 64 by omega]
  by_cases one : j = data.length % 64
  · rw [if_neg (by omega), if_pos one, one, Nat.sub_self, List.getD_cons_zero]
  rw [show j - data.length % 64 = j - data.length % 64 - 1 + 1 by omega, List.getD_cons_succ]
  by_cases zero : j - data.length % 64 - 1 < (119 - data.length % 64) % 64
  · rw [List.getD_append _ _ _ _ (by simpa using zero), if_neg (by omega), if_neg one, if_neg read]
    simp
  · rw [List.getD_append_right _ _ _ _ (by simpa using zero), if_pos (by omega), List.length_replicate]
    have last : j - data.length % 64 - 1 - (119 - data.length % 64) % 64 < 8 := by omega
    simp only [bytesOf, List.getD, List.getElem?_map, List.getElem?_range last, Option.map_some, Option.getD_some]
    congr 3
    omega

/-! ## The digest -/

lemma load_eq {block : Nat → Byte} {i : Nat} (same : ∀ j < 64, block j = (padded data).getD (64 * i + j) 0) :
    ∀ t < 16, load block t = Lib.Fips180.wordAt (Lib.Fips180.pad (data.flatMap bits)) (16 * i + t) := by
  intro t inside
  have place (c : Nat) : 4 * (16 * i + t) + c = 64 * i + (4 * t + c) := by omega
  rw [pad_eq, Lib.Fips180.wordAt_flatMap_bits, load, same _ (by omega), same _ (by omega), same _ (by omega),
    same _ (by omega), place, place, place, show 4 * (16 * i + t) = 64 * i + 4 * t by omega]

/-- The hash value after `k` blocks. -/
def hashAfter (k : Nat) : State :=
  (List.range k).foldl (fun hash i => Lib.Fips180.compress hash fun t =>
    Lib.Fips180.wordAt (Lib.Fips180.pad (data.flatMap bits)) (16 * i + t)) Lib.Fips180.initial

lemma compress_hashAfter {block : Nat → Byte} {k : Nat} (same : ∀ j < 64, block j = (padded data).getD (64 * k + j) 0) :
    compress (hashAfter data k) block = hashAfter data (k + 1) := by
  rw [compress_eq (load_eq data same), hashAfter, hashAfter, List.range_succ, List.foldl_append]
  rfl

lemma whole_eq : ∀ k, 64 * k ≤ data.length →
    (List.range k).foldl (fun h i => compress h fun j => data.getD (64 * i + j) 0) initialHash = hashAfter data k
  | 0, _ => initialHash_eq
  | k + 1, inside => by
    rw [List.range_succ, List.foldl_append, whole_eq k (by omega)]
    exact compress_hashAfter data fun j below => (padded_eq_data data (by omega)).symm

/-- The digest is that of the standard, and a prefix of it is shown in lowercase hexadecimal. -/
theorem sha256_is_fips180 : (sha256 data).flatMap bits = Lib.Fips180.sha256 (data.flatMap bits) ∧
    ∀ bytes, sha256HexPrefix data bytes = ((sha256 data).take bytes).flatMap fun b : Byte =>
      [Nat.digitChar (b.toNat / 16), Nat.digitChar (b.toNat % 16)] := by
  constructor
  · have spec : Lib.Fips180.sha256 (data.flatMap bits) =
        (hashAfter data (data.length / 64 + tailBlocks (data.length - data.length / 64 * 64))).words.flatMap bits := by
      rw [Lib.Fips180.sha256, hashAfter, pad_eq, length_flatMap_bits, length_padded, ← Nat.mul_assoc,
        Nat.mul_div_cancel_left _ (by decide)]
    have word (x : BitVec 32) :
        [(x >>> 24).setWidth 8, (x >>> 16).setWidth 8, (x >>> 8).setWidth 8, x.setWidth 8].flatMap bits = bits x := by
      have bytes := @flatMap_bytesOf 4 x
      simpa [bytesOf, List.range_succ] using bytes
    rw [spec, sha256, List.flatMap_assoc, funext word]
    congr 2
    rw [whole_eq data _ (by omega)]
    have tail_eq {j : Nat} := @padded_eq_tail data j
    have first : compress (hashAfter data (data.length / 64)) (tail data (data.length / 64 * 64)
        (data.length - data.length / 64 * 64)) = hashAfter data (data.length / 64 + 1) := by
      apply compress_hashAfter
      intro j below
      rw [tail_eq]
      unfold tailBlocks
      split <;> omega
    rw [first]
    by_cases two : tailBlocks (data.length - data.length / 64 * 64) = 2
    · rw [if_pos two, two]
      apply compress_hashAfter
      intro j below
      rw [Nat.mul_add, Nat.add_assoc, tail_eq (by omega)]
    · rw [if_neg two]
      congr 1
      unfold tailBlocks at two ⊢
      split <;> simp_all
  · intro bytes
    have digits : ∀ b : Byte, [kHex.getD (b >>> 4).toNat '?', kHex.getD (b &&& 0xF).toNat '?'] =
        [Nat.digitChar (b.toNat / 16), Nat.digitChar (b.toNat % 16)] := by decide +kernel
    rw [sha256HexPrefix, funext digits]
    congr 1
    split
    · rw [List.take_length, List.take_of_length_le (by omega)]
    · rfl

end PjCloud.Client.Sha256
