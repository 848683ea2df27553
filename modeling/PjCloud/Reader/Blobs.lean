import PjCloud.Builder.Catalog
import PjCloud.Reader.Counts

/-!
# Two readers of the counts

`decodeCountsBlob` of `auryn_read.go` is a port of `decode_counts_blob` of `varint.py`. The one reads a number in 64
bits and gives up after ten bytes, the other reads any number. They have the same state up to the tenth byte of a
number, and it decides whether they agree.
-/

namespace PjCloud.Reader
open Lib

/-- The bytes end inside a number; `inside` says whether they start in one. -/
def truncated (inside : Bool) : List UInt8 → Bool
  | [] => inside
  | b :: rest => truncated (decide (128 ≤ b.toNat)) rest

/-- No number has more than ten bytes, and a tenth byte is at most 1. `place` is the number of bytes that are read of
the first one. -/
def tenBytes (place : Nat) : List UInt8 → Bool
  | [] => true
  | b :: rest =>
    if b.toNat < 128 then (decide (place < 9) || decide (b.toNat ≤ 1)) && tenBytes 0 rest
    else decide (place < 9) && tenBytes (place + 1) rest

section
variable {out : List Nat} {pending : Option (Nat × Nat)} {bytes rest : List UInt8} {b : UInt8} {v place : Nat}

lemma decodeCounts_out : (decodeCounts out pending bytes).toOption =
    (decodeCounts [] pending bytes).toOption.map (out ++ ·) := by
  induction bytes generalizing out pending with
  | nil =>
    unfold decodeCounts
    split
    · rfl
    · simp [Except.toOption]
  | cons b rest ih =>
    unfold decodeCounts
    dsimp only
    split
    · rw [ih, @ih ([] ++ _), Option.map_map]
      congr 1
      funext more
      simp
    · split
      · rfl
      · exact ih

lemma builder_decodeCounts_out : (Builder.decodeCounts out pending bytes).toOption =
    (Builder.decodeCounts [] pending bytes).toOption.map (out ++ ·) := by
  induction bytes generalizing out pending with
  | nil =>
    unfold Builder.decodeCounts
    split
    · rfl
    · simp [Except.toOption]
  | cons b rest ih =>
    unfold Builder.decodeCounts
    dsimp only
    split
    · rw [ih, @ih ([] ++ _), Option.map_map]
      congr 1
      funext more
      simp
    · exact ih

lemma decodeCounts_truncated (ends : truncated pending.isSome bytes = true) :
    (decodeCounts [] pending bytes).toOption = none := by
  induction bytes generalizing pending with
  | nil =>
    have inside : pending.isSome = true := ends
    rw [decodeCounts, if_pos inside]
    rfl
  | cons b rest ih =>
    rw [truncated] at ends
    rw [decodeCounts]
    split
    · rename_i last
      rw [decide_eq_false (Nat.not_le.mpr last)] at ends
      have refused := @ih none ends
      rw [decodeCounts_out, refused]
      rfl
    · rename_i more
      rw [decide_eq_true (Nat.not_lt.mp more)] at ends
      split
      · rfl
      · exact ih ends

lemma builder_decodeCounts_truncated : (Builder.decodeCounts [] pending bytes).toOption = none ↔
    truncated pending.isSome bytes = true := by
  induction bytes generalizing pending with
  | nil =>
    rw [Builder.decodeCounts, truncated]
    cases pending with
    | none => simp [Except.toOption]
    | some _ => simp [Except.toOption]
  | cons b rest ih =>
    rw [Builder.decodeCounts, truncated]
    split
    · rename_i last
      rw [builder_decodeCounts_out, Option.map_eq_none_iff, ih, decide_eq_false (Nat.not_le.mpr last)]
      rfl
    · rename_i more
      rw [ih, decide_eq_true (Nat.not_lt.mp more)]
      rfl

/-- Seven bits above those that are there, in a number of any size. -/
lemma or_shift_any {n shift : Nat} (low : v < 2 ^ shift) : v ||| n <<< shift = v + n * 2 ^ shift := by
  rw [Nat.or_comm, ← Nat.shiftLeft_add_eq_or_of_lt low, Nat.shiftLeft_eq, Nat.add_comm]

lemma seven_bits_fit {n : Nat} (small : n < 128) (early : place < 9) : n * 2 ^ (7 * place) < 2 ^ 64 := by
  have power : 2 ^ (7 * place) ≤ 2 ^ 56 := Nat.pow_le_pow_right (by decide) (by omega)
  calc n * 2 ^ (7 * place) ≤ 127 * 2 ^ 56 := Nat.mul_le_mul (by omega) power
    _ < 2 ^ 64 := by decide

lemma lost_bits_iff (low : v < 2 ^ (7 * place)) (short : place ≤ 9) (last : b.toNat < 128) :
    v ||| (b.toNat % 128) <<< (7 * place) % 2 ^ 64 = v ||| (b.toNat % 128) <<< (7 * place) ↔
      place < 9 ∨ b.toNat ≤ 1 := by
  rw [Nat.mod_eq_of_lt last]
  obtain early | rfl := Nat.lt_or_eq_of_le short
  · rw [or_shift low (seven_bits_fit last early), or_shift_any low]
    exact ⟨fun _ => .inl early, fun _ => rfl⟩
  · constructor
    · intro same
      refine .inr ?_
      have below : v ||| b.toNat <<< (7 * 9) % 2 ^ 64 < 2 ^ 64 :=
        Nat.or_lt_two_pow (low.trans (by decide)) (Nat.mod_lt _ (by decide))
      rw [same, or_shift_any low] at below
      omega
    · rintro (early | one)
      · exact absurd early (by decide)
      · rw [or_shift low (by omega), or_shift_any low]

/-- From the same state, in the first ten bytes of a number, the readers agree on bytes that end inside a number and
on those whose numbers fit. -/
lemma decodeCounts_agree (state : pending.getD (0, 0) = (v, 7 * place)) (low : v < 2 ^ (7 * place))
    (short : place ≤ 9) : (decodeCounts [] pending bytes).toOption = (Builder.decodeCounts [] pending bytes).toOption ↔
      truncated pending.isSome bytes = true ∨ tenBytes place bytes = true := by
  induction bytes generalizing pending v place with
  | nil =>
    refine ⟨fun _ => .inr rfl, fun _ => ?_⟩
    rw [decodeCounts, Builder.decodeCounts]
    split <;> rfl
  | cons b rest ih =>
    by_cases ends : truncated pending.isSome (b :: rest) = true
    · rw [decodeCounts_truncated ends, builder_decodeCounts_truncated.mpr ends]
      exact ⟨fun _ => .inl ends, fun _ => rfl⟩
    rw [or_iff_right ends]
    rw [truncated] at ends
    rw [decodeCounts, Builder.decodeCounts, state, tenBytes]
    dsimp only
    by_cases last : b.toNat < 128
    · -- the number ends: it has to be the same, and so has what follows
      rw [decide_eq_false (Nat.not_le.mpr last)] at ends
      have next := @ih none 0 0 rfl (by decide) (by decide)
      rw [Option.isSome_none, or_iff_right ends] at next
      rw [if_pos last, if_pos last, if_pos last, decodeCounts_out, builder_decodeCounts_out, Bool.and_eq_true,
        Bool.or_eq_true, decide_eq_true_iff, decide_eq_true_iff, ← next, ← lost_bits_iff low short last]
      have goesOn : (Builder.decodeCounts [] none rest).toOption ≠ none := fun absent =>
        ends (builder_decodeCounts_truncated.mp absent)
      obtain ⟨more, read⟩ := Option.ne_none_iff_exists'.mp goesOn
      rw [read]
      cases (decodeCounts [] none rest).toOption with
      | none => simp
      | some other => simp
    · rw [decide_eq_true (Nat.not_lt.mp last)] at ends
      rw [if_neg last, if_neg last, if_neg last, Bool.and_eq_true, decide_eq_true_iff]
      by_cases early : place < 9
      · -- both go on with the number
        have room : b.toNat % 128 * 2 ^ (7 * place) < 2 ^ 64 :=
          seven_bits_fit (Nat.mod_lt _ (by decide)) early
        have step : 2 ^ (7 * (place + 1)) = 2 ^ (7 * place) * 128 := by rw [Nat.mul_succ, Nat.pow_add]
        have bits : b.toNat % 128 * 2 ^ (7 * place) ≤ 127 * 2 ^ (7 * place) := Nat.mul_le_mul_right _ (by omega)
        rw [if_neg (by omega), or_shift low room, or_shift_any low, and_iff_right early]
        have next := @ih (some (v + b.toNat % 128 * 2 ^ (7 * place), 7 * place + 7))
          (v + b.toNat % 128 * 2 ^ (7 * place)) (place + 1) rfl (by omega) early
        rw [Option.isSome_some, or_iff_right ends] at next
        exact next
      · -- an eleventh byte is refused by the one reader only
        have refused : ¬ (Builder.decodeCounts [] (some (v ||| (b.toNat % 128) <<< (7 * place), 7 * place + 7))
            rest).toOption = none := fun none => ends (builder_decodeCounts_truncated.mp none)
        rw [if_pos (by omega)]
        exact ⟨fun same => absurd same.symm refused, fun both => absurd both.1 early⟩

end

/-- The counts that the builder packs are read back, and the two readers agree on a blob if and only if it ends inside
a number or each of its numbers has at most ten bytes, with a tenth one of at most 1. -/
theorem counts_blob_readers_agree_iff (counts : List Nat) (fit : ∀ n ∈ counts, n < 2 ^ 64) (blob : List UInt8) :
    decodeCountsBlob (Builder.encodeCountsBlob counts) = .ok counts ∧
    ((decodeCountsBlob blob).toOption = (Builder.decodeCountsBlob blob).toOption ↔
      truncated false blob = true ∨ tenBytes 0 blob = true) :=
  ⟨decodeCountsBlob_writeAll fit, decodeCounts_agree rfl (by decide) (by decide)⟩

theorem largest_count_is_read_back :
    decodeCountsBlob (Builder.encodeCountsBlob [0, 2 ^ 64 - 1]) = .ok [0, 2 ^ 64 - 1] ∧
    (decodeCountsBlob [255, 255, 255, 255, 255, 255, 255, 255, 255, 1]).toOption =
      (Builder.decodeCountsBlob [255, 255, 255, 255, 255, 255, 255, 255, 255, 1]).toOption := by
  obtain ⟨back, agree⟩ := counts_blob_readers_agree_iff [0, 2 ^ 64 - 1] (by decide)
    [255, 255, 255, 255, 255, 255, 255, 255, 255, 1]
  exact ⟨back, agree.mpr (.inr (by decide))⟩

/-- A tenth byte of 2 is 2 ^ 64 to the builder and nothing to the server. -/
theorem tenth_byte_is_lost :
    decodeCountsBlob [128, 128, 128, 128, 128, 128, 128, 128, 128, 2] = .ok [0] ∧
    Builder.decodeCountsBlob [128, 128, 128, 128, 128, 128, 128, 128, 128, 2] = .ok [2 ^ 64] := by
  decide +kernel

end PjCloud.Reader
