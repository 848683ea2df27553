import Mathlib.Tactic.Lemma
import Mathlib.Data.List.Basic

/-!
# Consecutively numbered lists

`Numbered f p l` says that `f` numbers the elements of `l` with `p + 1`, `p + 2`, and so on. It is the
shape of a queue that is fed at one end with increasing numbers and cut at the other: appending the
next number, dropping from the front, dropping while the number is small and looking for the first
number above a bound are all index arithmetic on such a list.
-/

namespace PjCloud.Lib
variable {α : Type*} {f : α → Nat}

/-- The elements of `l` carry the numbers `p + 1, p + 2, …` in order. -/
def Numbered (f : α → Nat) (p : Nat) (l : List α) : Prop :=
  ∀ i a, l[i]? = some a → f a = p + 1 + i

namespace Numbered

/-- The empty list is numbered from anywhere. -/
lemma nil {p} : Numbered f p [] := by
  intro i a e
  simp at e

/-- A nonempty numbered list starts with `p + 1`. -/
lemma cons_iff {p a l} : Numbered f p (a :: l) ↔ f a = p + 1 ∧ Numbered f (p + 1) l := by
  constructor
  · intro h
    refine ⟨h 0 a rfl, ?_⟩
    intro i b e
    have := h (i + 1) b (by simpa using e)
    omega
  · rintro ⟨ha, h⟩ i b e
    cases i with
    | zero =>
      cases e
      exact ha
    | succ i =>
      have := h i b (by simpa using e)
      omega

/-- The numbers of a numbered list. -/
lemma map_eq {p l} (h : Numbered f p l) : l.map f = List.range' (p + 1) l.length := by
  induction l generalizing p with
  | nil => rfl
  | cons a l ih =>
    obtain ⟨ha, hl⟩ := cons_iff.mp h
    rw [List.map_cons, List.length_cons, List.range'_succ, ha, ih hl]

/-- A numbered list grows by the next number. -/
lemma append_next {p l a} (h : Numbered f p l) (ha : f a = p + 1 + l.length) :
    Numbered f p (l ++ [a]) := by
  intro i b e
  rcases Nat.lt_or_ge i l.length with lt | ge
  · rw [List.getElem?_append_left lt] at e
    exact h i b e
  · rw [List.getElem?_append_right ge] at e
    cases hi : i - l.length with
    | zero =>
      rw [hi] at e
      cases e
      rw [ha]
      omega
    | succ k =>
      rw [hi] at e
      cases e

/-- The numbers of a list of length `n` stay below `p + n + 1`. -/
lemma le {p l a} (h : Numbered f p l) (ha : a ∈ l) : p < f a ∧ f a ≤ p + l.length := by
  obtain ⟨i, hi, e⟩ := List.mem_iff_getElem.mp ha
  have := h i a (by rw [List.getElem?_eq_getElem hi, e])
  omega

/-- A prefix of a numbered list is numbered. -/
lemma of_prefix {p l l'} (h : Numbered f p l') (pre : l <+: l') : Numbered f p l := by
  intro i a e
  obtain ⟨r, rfl⟩ := pre
  have lt := (List.getElem?_eq_some_iff.mp e).1
  exact h i a (by rw [List.getElem?_append_left lt]; exact e)

/-- Dropping from the front shifts the numbering. -/
lemma drop {p l} (n : Nat) (h : Numbered f p l) : Numbered f (p + n) (l.drop n) := by
  intro i a e
  rw [List.getElem?_drop] at e
  have := h (n + i) a e
  omega

/-- Dropping while the number is at most `t` drops `t - p` elements. -/
lemma dropWhile_le {p l} (t : Nat) (h : Numbered f p l) :
    l.dropWhile (fun a => decide (f a ≤ t)) = l.drop (t - p) := by
  induction l generalizing p with
  | nil => simp
  | cons a l ih =>
    obtain ⟨ha, hl⟩ := cons_iff.mp h
    rw [List.dropWhile_cons]
    split
    case isTrue hle =>
      have hle := of_decide_eq_true hle
      rw [ih hl, show t - p = (t - (p + 1)) + 1 by omega, List.drop_succ_cons]
    case isFalse hgt =>
      have hgt : ¬ f a ≤ t := by simpa using hgt
      rw [show t - p = 0 by omega, List.drop_zero]

/-- The first element numbered above `q` is the one at index `q - p`. -/
lemma find?_lt {p l} (q : Nat) (h : Numbered f p l) :
    l.find? (fun a => decide (q < f a)) = l[q - p]? := by
  induction l generalizing p with
  | nil => simp
  | cons a l ih =>
    obtain ⟨ha, hl⟩ := cons_iff.mp h
    rw [List.find?_cons]
    split
    case h_1 hlt =>
      have hlt := of_decide_eq_true hlt
      rw [show q - p = 0 by omega]
      rfl
    case h_2 hge =>
      have hge : ¬ q < f a := by simpa using hge
      rw [ih hl, show q - p = (q - (p + 1)) + 1 by omega, List.getElem?_cons_succ]

end Numbered
end PjCloud.Lib
