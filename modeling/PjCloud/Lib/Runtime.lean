import Mathlib.Data.Finset.Basic
import Mathlib.Data.List.Sort
import Mathlib.Data.String.Basic

/-!
# Unspecified order

Two operations of a language runtime whose result is not determined by their input: a sort that promises
nothing about elements with equal keys, and the enumeration of a set of strings. A `Runtime` is one way
to make those choices. A program that uses them is a function of the `Runtime`, and a result about the
program is one that holds for all of them.
-/

namespace PjCloud.Lib

/-- A choice of order wherever the language leaves it open. -/
structure Runtime where
  /-- Sort a list by a key, elements with equal keys in any order. -/
  slice : ∀ {α κ : Type} [LinearOrder κ], (α → κ) → List α → List α
  /-- Enumerate a set in any order. -/
  range : Finset String → List String
  slice_perm : ∀ {α κ : Type} [LinearOrder κ] (key : α → κ) (l : List α), (slice key l).Perm l
  slice_sorted : ∀ {α κ : Type} [LinearOrder κ] (key : α → κ) (l : List α),
    (slice key l).Pairwise fun a b => key a ≤ key b
  range_nodup : ∀ s, (range s).Nodup
  range_mem : ∀ {s a}, a ∈ range s ↔ a ∈ s

namespace Runtime
variable {α κ : Type} [LinearOrder κ] {R : Runtime}

/-- Sorting keeps the elements. -/
@[simp] lemma mem_slice {key : α → κ} {l : List α} {a : α} : a ∈ R.slice key l ↔ a ∈ l :=
  (R.slice_perm key l).mem_iff

/-- Enumerating a set lists its elements. -/
@[simp] lemma mem_range {s : Finset String} {a : String} : a ∈ R.range s ↔ a ∈ s :=
  R.range_mem

/-- Where no two elements share a key there is only one sorted order. -/
lemma slice_eq {key : α → κ} {l l' : List α} (perm : l'.Perm l)
    (sorted : l'.Pairwise fun a b => key a < key b) : R.slice key l = l' := by
  have distinct : (l'.map key).Nodup := List.pairwise_map.mpr (sorted.imp fun h => h.ne)
  apply ((R.slice_perm key l).trans perm.symm).eq_of_pairwise ?_ (R.slice_sorted key l)
    (sorted.imp fun h => h.le)
  intro a b ha hb le ge
  have ha' : a ∈ l' := perm.mem_iff.mpr (mem_slice.mp ha)
  exact List.inj_on_of_nodup_map distinct ha' hb (le_antisymm le ge)

/-- Putting one string of a set first is one of the ways to enumerate it. -/
def rangeFrom (R : Runtime) (a : String) (s : Finset String) : List String :=
  if a ∈ s then a :: R.range (s.erase a) else R.range s

/-- The runtime that enumerates sets from `a` on where they have it. -/
def first (R : Runtime) (a : String) : Runtime :=
  { R with
    range := R.rangeFrom a
    range_nodup := by
      intro s
      unfold rangeFrom
      split
      · apply List.nodup_cons.mpr
        exact ⟨by simp, R.range_nodup _⟩
      · exact R.range_nodup s
    range_mem := by
      intro s b
      unfold rangeFrom
      split
      · by_cases e : b = a <;> simp_all
      · exact R.range_mem }

/-- Insertion sort depends on the elements alone. -/
lemma insertionSort_congr {l l' : List String} (perm : l.Perm l') :
    l.insertionSort (· ≤ ·) = l'.insertionSort (· ≤ ·) := by
  apply List.Perm.eq_of_pairwise (fun a b _ _ => le_antisymm (a := a) (b := b))
    (List.pairwise_insertionSort _ l) (List.pairwise_insertionSort _ l')
  exact ((List.perm_insertionSort _ l).trans perm).trans (List.perm_insertionSort _ l').symm

/-- The elements of a set in increasing order. -/
def enumerate (s : Finset String) : List String :=
  Quotient.liftOn s.val (fun l => l.insertionSort (· ≤ ·)) fun _ _ => insertionSort_congr

/-- `enumerate` lists the set. -/
lemma coe_enumerate (s : Finset String) : (enumerate s : Multiset String) = s.val := by
  obtain ⟨m, nodup⟩ := s
  induction m using Quotient.inductionOn with
  | h l => exact Multiset.coe_eq_coe.mpr (List.perm_insertionSort _ l)

/-- The executable choice: insertion sort, and sets in increasing order. -/
def ordered : Runtime where
  slice key l := l.insertionSort fun a b => key a ≤ key b
  range := enumerate
  slice_perm key l := List.perm_insertionSort _ l
  slice_sorted {α κ} _ key l := by
    have total : Std.Total fun a b : α => key a ≤ key b := ⟨fun a b => le_total (key a) (key b)⟩
    have trans : IsTrans α fun a b => key a ≤ key b := ⟨fun _ _ _ => le_trans⟩
    exact List.pairwise_insertionSort _ l
  range_nodup s := by
    rw [← Multiset.coe_nodup, coe_enumerate]
    exact s.nodup
  range_mem {s a} := by
    rw [← Multiset.mem_coe, coe_enumerate, Finset.mem_val]

end Runtime

end PjCloud.Lib
