import Mathlib.Data.List.Nodup
import Mathlib.Data.List.Induction
import PjCloud.Lib.Lists

/-!
# First occurrences

Of a list with a key, `firsts` keeps each element whose key is new. This is what a loop builds that looks
each key up in a table and adds a row where it finds none; the row number of a key is its `rank`. The key
is found in the table exactly where it is found in the list (`find_firsts`), and the rank of a key does
not change once it is in the table (`rank_append`).
-/

namespace PjCloud.Lib
variable {α κ : Type} [DecidableEq κ] {key : α → κ} {l : List α} {a : α} {k : κ}

/-- Add an element whose key is new. -/
def addFirst (key : α → κ) (seen : List α) (a : α) : List α :=
  if seen.any fun x => key x = key a then seen else seen ++ [a]

/-- The first element for each key. -/
def firsts (key : α → κ) (l : List α) : List α := l.foldl (addFirst key) []

/-- One more element. -/
lemma firsts_append : firsts key (l ++ [a]) = addFirst key (firsts key l) a := by
  rw [firsts, List.foldl_append]
  rfl

/-- Adding an element does not change what is found before it. -/
lemma find_addFirst {seen : List α} :
    (addFirst key seen a).find? (fun x => key x = k) = (seen ++ [a]).find? fun x => key x = k := by
  unfold addFirst
  split
  · rename_i known
    rw [List.find?_append]
    by_cases same : key a = k
    · -- the key is found among the elements seen, so the new one does not matter
      subst same
      obtain ⟨x, mem, same⟩ := List.any_eq_true.mp known
      have found : (seen.find? fun x => key x = key a).isSome := List.find?_isSome.mpr ⟨x, mem, same⟩
      obtain ⟨y, found⟩ := Option.isSome_iff_exists.mp found
      rw [found]
      rfl
    · rw [List.find?_singleton, if_neg (by simpa using same), Option.or_none]
  · rfl

/-- A key is found where it is found in the list. -/
lemma find_firsts : (firsts key l).find? (fun x => key x = k) = l.find? fun x => key x = k := by
  induction l using List.reverseRecOn with
  | nil => rfl
  | append_singleton rest a ih => rw [firsts_append, find_addFirst, List.find?_append, ih, List.find?_append]

/-- An element whose key is new comes last. -/
lemma firsts_append_new (new : l.find? (fun x => key x = key a) = none) :
    firsts key (l ++ [a]) = firsts key l ++ [a] := by
  rw [← find_firsts] at new
  rw [firsts_append, addFirst, if_neg]
  simpa using new

/-- An element whose key is known adds nothing. -/
lemma firsts_append_known {b : α} (known : l.find? (fun x => key x = key a) = some b) :
    firsts key (l ++ [a]) = firsts key l := by
  rw [← find_firsts] at known
  rw [firsts_append, addFirst, if_pos]
  have same := List.find?_some known
  exact List.any_eq_true.mpr ⟨b, List.mem_of_find?_eq_some known, same⟩

/-- The keys are different. -/
lemma firsts_nodup : ((firsts key l).map key).Nodup := by
  induction l using List.reverseRecOn with
  | nil => exact List.nodup_nil
  | append_singleton rest a ih =>
    rw [firsts_append, addFirst]
    split
    · exact ih
    · rename_i fresh
      rw [List.map_append]
      apply List.Nodup.append ih (List.nodup_singleton _)
      intro k mem same
      obtain rfl : k = key a := by simpa using same
      obtain ⟨x, mem, same⟩ := List.mem_map.mp mem
      exact fresh (List.any_eq_true.mpr ⟨x, mem, by simpa using same⟩)

/-- There are at most as many first elements as elements. -/
lemma length_firsts_le : (firsts key l).length ≤ l.length := by
  induction l using List.reverseRecOn with
  | nil => exact Nat.le_refl _
  | append_singleton rest a ih =>
    rw [firsts_append, addFirst, List.length_append]
    split
    · omega
    · rw [List.length_append]
      exact Nat.add_le_add_right ih _

/-- The row number of a key. -/
def rank (key : α → κ) (l : List α) (k : κ) : Nat := (firsts key l).findIdx fun x => key x = k

/-- A known key keeps its row. -/
lemma rank_append (known : k ∈ l.map key) : rank key (l ++ [a]) k = rank key l k := by
  obtain ⟨x, mem, rfl⟩ := List.mem_map.mp known
  have found : (l.find? fun y => key y = key x).isSome := List.find?_isSome.mpr ⟨x, mem, by simp⟩
  rw [← find_firsts, List.find?_isSome] at found
  unfold rank
  rw [firsts_append, addFirst]
  split
  · rfl
  · rw [List.findIdx_append, if_pos (List.findIdx_lt_length.mpr found)]

/-- A new key gets the next row. -/
lemma rank_append_new (new : l.find? (fun x => key x = key a) = none) :
    rank key (l ++ [a]) (key a) = (firsts key l).length := by
  unfold rank
  rw [firsts_append_new new, List.findIdx_append, if_neg]
  · simp
  · rw [List.findIdx_lt_length]
    rw [← find_firsts] at new
    simpa using new

/-- The row of a key holds the first element with the key. -/
lemma getElem_rank : (firsts key l)[rank key l k]? = l.find? fun x => key x = k := by
  rw [← find_firsts, rank]
  exact List.find?_eq_getElem?_findIdx.symm

end PjCloud.Lib
