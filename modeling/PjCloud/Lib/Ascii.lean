import Mathlib.Tactic.Lemma

/-!
# ASCII characters

Digits, and texts in lower case. A character that is no letter is where it was in a text in lower case, so what
cuts a text at such characters can be done in lower case as well.
-/

namespace PjCloud.Lib.Ascii

lemma isDigit_iff {c : Char} : c.isDigit = true ↔ 48 ≤ c.toNat ∧ c.toNat ≤ 57 := by
  simp [Char.isDigit, UInt32.le_iff_toNat_le]

lemma isUpper_iff {c : Char} : c.isUpper = true ↔ 65 ≤ c.toNat ∧ c.toNat ≤ 90 := by
  change decide (c.val ≥ 'A'.val ∧ c.val ≤ 'Z'.val) = true ↔ _
  rw [decide_eq_true_iff, ge_iff_le, UInt32.le_iff_toNat_le, UInt32.le_iff_toNat_le]
  exact Iff.rfl

lemma isLower_iff {c : Char} : c.isLower = true ↔ 97 ≤ c.toNat ∧ c.toNat ≤ 122 := by
  change (decide (c.val ≥ 'a'.val) && decide (c.val ≤ 'z'.val)) = true ↔ _
  rw [Bool.and_eq_true, decide_eq_true_iff, decide_eq_true_iff, ge_iff_le, UInt32.le_iff_toNat_le,
    UInt32.le_iff_toNat_le]
  exact Iff.rfl

/-- A number is determined by its digits. -/
lemma toDigits_injective {m n : Nat} (same : Nat.toDigits 10 m = Nat.toDigits 10 n) : m = n := by
  rw [← Nat.ofDigitChars_toDigits (b := 10) (n := m) (by decide) (by decide), same,
    Nat.ofDigitChars_toDigits (by decide) (by decide)]

/-! ## Lower case -/

def toLower (s : List Char) : List Char := s.map Char.toLower

/-- A capital letter is moved by 32. Another character stays. -/
lemma toNat_toLower (c : Char) : c.toLower.toNat = if 65 ≤ c.toNat ∧ c.toNat ≤ 90 then c.toNat + 32 else c.toNat := by
  unfold Char.toLower
  split
  · rename_i upper
    have bounds : 65 ≤ c.toNat ∧ c.toNat ≤ 90 :=
      ⟨UInt32.le_iff_toNat_le.mp upper.1, UInt32.le_iff_toNat_le.mp upper.2⟩
    rw [if_pos bounds]
    change (c.val + ('a'.val - 'A'.val)).toNat = c.val.toNat + 32
    rw [UInt32.toNat_add]
    change (c.val.toNat + 32) % 2 ^ 32 = _
    have small : c.val.toNat ≤ 90 := bounds.2
    omega
  · rename_i other
    rw [if_neg]
    rintro ⟨low, high⟩
    exact other ⟨UInt32.le_iff_toNat_le.mpr low, UInt32.le_iff_toNat_le.mpr high⟩

lemma not_alpha_iff {d : Char} : d.isAlpha = false ↔
    ¬ (65 ≤ d.toNat ∧ d.toNat ≤ 90) ∧ ¬ (97 ≤ d.toNat ∧ d.toNat ≤ 122) := by
  change (d.isUpper || d.isLower) = false ↔ _
  rw [Bool.or_eq_false_iff, ← isUpper_iff, ← isLower_iff, Bool.not_eq_true, Bool.not_eq_true]

lemma toLower_eq_iff {c d : Char} (plain : d.isAlpha = false) : c.toLower = d ↔ c = d := by
  rw [not_alpha_iff] at plain
  have moved := toNat_toLower c
  rw [← Char.toNat_inj, ← Char.toNat_inj, moved]
  split <;> omega

lemma toLower_toLower (s : List Char) : toLower (toLower s) = toLower s := by
  unfold toLower
  rw [List.map_map]
  refine List.map_congr_left fun c _ => Char.toNat_inj.mp ?_
  have once := toNat_toLower c
  rw [Function.comp_apply, toNat_toLower c.toLower]
  split at once <;> split <;> omega

lemma mem_toLower {d : Char} (plain : d.isAlpha = false) {s : List Char} : d ∈ toLower s ↔ d ∈ s := by
  unfold toLower
  rw [List.mem_map]
  constructor
  · rintro ⟨c, mem, lower⟩
    rw [← (toLower_eq_iff plain).mp lower]
    exact mem
  · exact fun mem => ⟨d, mem, (toLower_eq_iff plain).mpr rfl⟩

lemma prefix_toLower {sep s : List Char} (plain : ∀ d ∈ sep, d.isAlpha = false) : sep <+: toLower s ↔ sep <+: s := by
  induction sep generalizing s with
  | nil => exact ⟨fun _ => List.nil_prefix, fun _ => List.nil_prefix⟩
  | cons d sep ih =>
    cases s with
    | nil => exact Iff.rfl
    | cons c s =>
      have rest := ih (s := s) fun e mem => plain e (List.mem_cons_of_mem _ mem)
      have head := toLower_eq_iff (c := c) (plain d List.mem_cons_self)
      unfold toLower at rest ⊢
      rw [List.map_cons, List.cons_prefix_cons, List.cons_prefix_cons, rest, eq_comm, head, eq_comm]

section
variable {d : Char}

lemma until_toLower (plain : d.isAlpha = false) :
    (fun c : Char => decide (c ≠ d)) ∘ Char.toLower = fun c => decide (c ≠ d) := by
  funext c
  simp only [Function.comp_apply, ne_eq, toLower_eq_iff plain]

lemma takeWhile_toLower (plain : d.isAlpha = false) (s : List Char) :
    (toLower s).takeWhile (· ≠ d) = toLower (s.takeWhile (· ≠ d)) := by
  rw [toLower, List.takeWhile_map, until_toLower plain, toLower]

lemma dropWhile_toLower (plain : d.isAlpha = false) (s : List Char) :
    (toLower s).dropWhile (· ≠ d) = toLower (s.dropWhile (· ≠ d)) := by
  rw [toLower, List.dropWhile_map, until_toLower plain, toLower]

end

lemma toLower_eq_nil {s : List Char} : toLower s = [] ↔ s = [] := List.map_eq_nil_iff

lemma isDigit_toLower (c : Char) : c.toLower.isDigit = c.isDigit := by
  have moved := toNat_toLower c
  rw [Bool.eq_iff_iff, isDigit_iff, isDigit_iff, moved]
  split <;> omega

lemma toLower_digits {s : List Char} (digits : s.all Char.isDigit = true) : toLower s = s := by
  have same : ∀ c ∈ s, c.toLower = c := by
    intro c mem
    have bounds := isDigit_iff.mp (List.all_eq_true.mp digits c mem)
    refine (toLower_eq_iff ?_).mpr rfl
    rw [not_alpha_iff]
    omega
  exact (List.map_congr_left same).trans (List.map_id s)

end PjCloud.Lib.Ascii
