import Mathlib.Data.List.Basic
import Mathlib.Tactic.Lemma

/-!
# Keyset pages

A list in the order of its keys is read page by page: a page is what comes after a key, up to a limit. `Cut` says
that what is still to come after a key is the rest of the list. It holds at the start, a page is the front of the
rest, and it holds again after the last key of a page.
-/

namespace PjCloud.Lib
variable {α : Type} {key : α → Nat} {l rest : List α} {after limit : Nat}

/-- What comes after a key is the rest of the list. -/
structure Cut (key : α → Nat) (l : List α) (after : Nat) (rest : List α) : Prop where
  split : ∃ done, l = done ++ rest ∧ ∀ a ∈ done, key a ≤ after
  above : ∀ a ∈ rest, after < key a

namespace Cut

/-- Nothing is below the first key. -/
lemma start (positive : ∀ a ∈ l, 0 < key a) : Cut key l 0 l := by
  refine ⟨⟨[], rfl, ?_⟩, positive⟩
  intro a mem
  cases mem

/-- The elements after the key are the rest. -/
lemma filter (cut : Cut key l after rest) : l.filter (fun a => after < key a) = rest := by
  obtain ⟨done, rfl, below⟩ := cut.split
  have none : done.filter (fun a => after < key a) = [] := by
    refine List.filter_eq_nil_iff.mpr ?_
    intro a mem
    simpa using below a mem
  have all : rest.filter (fun a => after < key a) = rest := by
    refine List.filter_eq_self.mpr ?_
    intro a mem
    simpa using cut.above a mem
  rw [List.filter_append, none, all, List.nil_append]

/-- After the last key of a page comes the rest of the rest. -/
lemma next (cut : Cut key l after rest) (sorted : l.Pairwise fun a b => key a < key b) {last : α}
    (isLast : (rest.take limit).getLast? = some last) : Cut key l (key last) (rest.drop limit) := by
  obtain ⟨done, rfl, below⟩ := cut.split
  obtain ⟨init, page⟩ := List.getLast?_eq_some_iff.mp isLast
  have inPage : last ∈ rest.take limit := by
    rw [page]
    exact List.mem_append_right _ (List.mem_singleton.mpr rfl)
  have inRest := List.mem_of_mem_take inPage
  have ordered := (List.pairwise_append.mp sorted).2.1
  rw [← List.take_append_drop limit rest] at ordered
  obtain ⟨ordered, -, later⟩ := List.pairwise_append.mp ordered
  refine ⟨⟨done ++ rest.take limit, by rw [List.append_assoc, List.take_append_drop], ?_⟩, ?_⟩
  · intro a mem
    obtain mem | mem := List.mem_append.mp mem
    · exact Nat.le_of_lt (Nat.lt_of_le_of_lt (below a mem) (cut.above last inRest))
    · rw [page] at mem ordered
      obtain mem | mem := List.mem_append.mp mem
      · exact Nat.le_of_lt ((List.pairwise_append.mp ordered).2.2 a mem last (List.mem_singleton.mpr rfl))
      · exact Nat.le_of_eq (by rw [List.mem_singleton.mp mem])
  · intro a mem
    exact later last inPage a mem

end Cut

end PjCloud.Lib
