import Mathlib.Algebra.Order.Ring.Nat
import PjCloud.Lib.Wire

/-!
# The counts of a row

`decodeCountsBlob` and `sumCounts` (`server/internal/catalog/auryn_read.go`): the message counts that the builder
packs into `files.topic_counts`, read in 64 bits. The two nested loops of the source are one pass over the bytes;
`pending` is the number in the inner loop with its shift, and is absent between two numbers.
-/

namespace PjCloud.Reader
open Lib

/-- The loops of `decodeCountsBlob`. -/
def decodeCounts (out : List Nat) (pending : Option (Nat × Nat)) : List UInt8 → Except String (List Nat)
  | [] => if pending.isSome then .error "truncated varint in topic_counts" else .ok out
  | b :: rest =>
    let v := (pending.getD (0, 0)).1
    let shift := (pending.getD (0, 0)).2
    -- a uint64 loses the bits that are shifted out
    let v := v ||| (b.toNat % 128) <<< shift % 2 ^ 64
    if b.toNat < 128 then decodeCounts (out ++ [v]) none rest
    else if shift + 7 ≥ 64 then .error "varint overflow in topic_counts"
    else decodeCounts out (some (v, shift + 7)) rest

def decodeCountsBlob (blob : List UInt8) : Except String (List Nat) := decodeCounts [] none blob

def sumCounts (counts : List Nat) : Nat := counts.foldl (fun t v => (t + v) % 2 ^ 64) 0

variable {out counts : List Nat} {rest : List UInt8} {v n shift : Nat} {pending : Option (Nat × Nat)}

/-- Seven more bits above those that are there. -/
lemma or_shift (low : v < 2 ^ shift) (fits : n * 2 ^ shift < 2 ^ 64) :
    v ||| n <<< shift % 2 ^ 64 = v + n * 2 ^ shift := by
  rw [Nat.shiftLeft_eq, Nat.mod_eq_of_lt fits, Nat.or_comm, ← Nat.shiftLeft_eq,
    ← Nat.shiftLeft_add_eq_or_of_lt low, Nat.shiftLeft_eq, Nat.add_comm]

lemma decodeCounts_groups : ∀ {fuel n v shift : Nat} {pending : Option (Nat × Nat)},
    pending.getD (0, 0) = (v, shift) → n ≤ fuel → v < 2 ^ shift → v + n * 2 ^ shift < 2 ^ 64 →
      decodeCounts out pending (Wire.groups fuel n ++ rest) =
        decodeCounts (out ++ [v + n * 2 ^ shift]) none rest := by
  intro fuel
  induction fuel with
  | zero =>
    intro n v shift pending start bound low fits
    obtain rfl := Nat.le_zero.mp bound
    simp [Wire.groups, decodeCounts, start]
  | succ fuel ih =>
    intro n v shift pending start bound low fits
    unfold Wire.groups
    split
    · rename_i small
      have byte : (UInt8.ofNat n).toNat = n := by
        rw [UInt8.toNat_ofNat', Nat.mod_eq_of_lt (by omega)]
      rw [List.singleton_append, decodeCounts, start, byte, if_pos small, Nat.mod_eq_of_lt small,
        or_shift low (by omega)]
    · rename_i large
      have byte : (UInt8.ofNat (n % 128 + 128)).toNat = n % 128 + 128 := by
        rw [UInt8.toNat_ofNat', Nat.mod_eq_of_lt (by omega)]
      have step : 2 ^ (shift + 7) = 2 ^ shift * 128 := by rw [Nat.pow_add]
      -- the number has a bit at `shift + 7` or above, so the shift is in range
      have inRange : shift + 7 < 64 := by
        by_contra above
        have : 2 ^ 64 ≤ 2 ^ (shift + 7) := Nat.pow_le_pow_right (by decide) (by omega)
        have : 128 * 2 ^ shift ≤ n * 2 ^ shift := Nat.mul_le_mul_right _ (by omega)
        omega
      have parts : n * 2 ^ shift = n % 128 * 2 ^ shift + n / 128 * 2 ^ (shift + 7) := by
        rw [step, ← Nat.mul_assoc, Nat.mul_right_comm, ← Nat.add_mul]
        congr 1
        omega
      have bits : n % 128 * 2 ^ shift ≤ 127 * 2 ^ shift := Nat.mul_le_mul_right _ (by omega)
      rw [List.cons_append, decodeCounts, start, byte, if_neg (by omega), if_neg (by omega)]
      dsimp only
      have low' : v + n % 128 * 2 ^ shift < 2 ^ (shift + 7) := by omega
      have fits' : v + n % 128 * 2 ^ shift + n / 128 * 2 ^ (shift + 7) < 2 ^ 64 := by omega
      have next : (some (v + n % 128 * 2 ^ shift, shift + 7)).getD (0, 0) =
        (v + n % 128 * 2 ^ shift, shift + 7) := rfl
      rw [show (n % 128 + 128) % 128 = n % 128 by omega, or_shift low (by omega),
        ih next (by omega) low' fits', parts, Nat.add_assoc]

lemma decodeCounts_writeAll (fit : ∀ n ∈ counts, n < 2 ^ 64) :
    decodeCounts out none (Wire.varint.writeAll counts) = .ok (out ++ counts) := by
  induction counts generalizing out with
  | nil => simp [Wire.writeAll, decodeCounts]
  | cons n counts ih =>
    have first : n < 2 ^ 64 := fit n List.mem_cons_self
    have whole : Wire.varint.writeAll (n :: counts) = Wire.groups n n ++ Wire.varint.writeAll counts := rfl
    have start : (none : Option (Nat × Nat)).getD (0, 0) = (0, 0) := rfl
    rw [whole, decodeCounts_groups start (Nat.le_refl _) (by decide) (by omega),
      ih fun m mem => fit m (List.mem_cons_of_mem _ mem)]
    simp

lemma decodeCountsBlob_writeAll (fit : ∀ n ∈ counts, n < 2 ^ 64) :
    decodeCountsBlob (Wire.varint.writeAll counts) = .ok counts := decodeCounts_writeAll fit

lemma foldl_sum (fits : v + counts.sum < 2 ^ 64) :
    counts.foldl (fun t n => (t + n) % 2 ^ 64) v = v + counts.sum := by
  induction counts generalizing v with
  | nil => simp
  | cons n counts ih =>
    rw [List.sum_cons] at fits
    rw [List.foldl_cons, Nat.mod_eq_of_lt (by omega), ih (by omega), List.sum_cons, Nat.add_assoc]

lemma sumCounts_eq (fits : counts.sum < 2 ^ 64) : sumCounts counts = counts.sum := by
  rw [sumCounts, foldl_sum (by omega), Nat.zero_add]

end PjCloud.Reader
