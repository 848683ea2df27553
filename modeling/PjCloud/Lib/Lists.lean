import Mathlib.Data.List.Forall2
import Mathlib.Data.List.MinMax
import Mathlib.Data.List.Nodup
import Mathlib.Data.List.Perm.Basic

/-!
# Lists

Facts about lists with a key: the first element with the greatest key (`List.argmax`), the element with a
given key where no two share one, and what a `flatMap` comes to when a single element contributes.
-/

namespace PjCloud.Lib
variable {α β : Type}

/-- The order that keys are compared in, named so that it is found first and can be run. -/
instance (priority := 10000) intKeys : Preorder ℤ := Int.instLinearOrder.toPartialOrder.toPreorder

/-- The greatest element of a mapped list. -/
lemma argmax_map {κ : Type} [LinearOrder κ] {k : β → κ} {f : α → β} {l : List α} :
    (l.map f).argmax k = (l.argmax fun a => k (f a)).map f := by
  induction l with
  | nil => rfl
  | cons a rest ih =>
    rw [List.map_cons, List.argmax_cons, List.argmax_cons, ih]
    cases rest.argmax fun a => k (f a) with
    | none => rfl
    | some b =>
      simp only [Option.map_some]
      split <;> rfl

/-- In a list with different keys, an element is found by its key. -/
lemma find_of_nodup {κ : Type} [DecidableEq κ] {key : α → κ} {l : List α} {a : α}
    (nodup : (l.map key).Nodup) (mem : a ∈ l) : l.find? (fun x => key x = key a) = some a := by
  obtain ⟨b, found⟩ := Option.isSome_iff_exists.mp
    (List.find?_isSome.mpr ⟨a, mem, by simp⟩ : (l.find? fun x => key x = key a).isSome)
  have same : key b = key a := by simpa using List.find?_some found
  rw [found, List.inj_on_of_nodup_map nodup (List.mem_of_find?_eq_some found) mem same]

/-- Where pairs of keys are different, so are the second keys of the elements with one first key. -/
lemma nodup_map_filter {κ ι : Type} [DecidableEq κ] {f : α → κ} {g : α → ι} {l : List α} {k : κ}
    (nodup : (l.map fun a => (f a, g a)).Nodup) : ((l.filter fun a => f a = k).map g).Nodup := by
  refine List.Nodup.map_on ?_ ((List.Nodup.of_map _ nodup).filter _)
  intro a inA b inB same
  obtain ⟨inA, ofA⟩ := List.mem_filter.mp inA
  obtain ⟨inB, ofB⟩ := List.mem_filter.mp inB
  rw [decide_eq_true_eq] at ofA ofB
  exact List.inj_on_of_nodup_map nodup inA inB (by rw [ofA, ofB, same])

/-- A rearranged list with different keys finds the same by a key. -/
lemma find_perm {κ : Type} [DecidableEq κ] {key : α → κ} {l l' : List α} {k : κ} (perm : l'.Perm l)
    (nodup : (l.map key).Nodup) : l'.find? (fun x => key x = k) = l.find? fun x => key x = k := by
  cases found : l'.find? fun x => key x = k with
  | none =>
    symm
    rw [List.find?_eq_none] at found ⊢
    exact fun x mem => found x (perm.mem_iff.mpr mem)
  | some a =>
    have same : key a = k := by simpa using List.find?_some found
    subst same
    exact (find_of_nodup nodup (perm.mem_iff.mp (List.mem_of_find?_eq_some found))).symm

/-- Looking up in a table whose values have been mapped. -/
lemma lookup_map_snd {κ : Type} [BEq κ] {f : α → β} {l : List (κ × α)} {k : κ} :
    (l.map fun x => (x.1, f x.2)).lookup k = (l.lookup k).map f := by
  induction l with
  | nil => rfl
  | cons x rest ih =>
    rw [List.map_cons, List.lookup_cons, List.lookup_cons, ih]
    split <;> rfl

/-- A rearranged image is the image of a rearranged list. -/
lemma exists_perm_map {f : α → β} {l : List α} {l' : List β} (perm : l'.Perm (l.map f)) :
    ∃ l₀ : List α, l₀.Perm l ∧ l₀.map f = l' := by
  rw [← congrFun (congrFun (List.eq_map_comp_perm f) l') l] at perm
  obtain ⟨l₀, image, perm⟩ := perm
  exact ⟨l₀, perm, image.symm⟩

/-- Where a single element contributes, the `flatMap` is its contribution. -/
lemma flatMap_of_unique {f : α → List β} {l : List α} {a : α} (nodup : l.Nodup) (mem : a ∈ l)
    (others : ∀ b ∈ l, b ≠ a → f b = []) : l.flatMap f = f a := by
  obtain ⟨before, after, rfl⟩ := List.append_of_mem mem
  have silent : ∀ {part : List α}, (∀ b ∈ part, b ∈ before ++ a :: after ∧ b ≠ a) →
      part.flatMap f = [] := by
    intro part h
    apply List.flatMap_eq_nil_iff.mpr
    exact fun b mem => others b (h b mem).1 (h b mem).2
  have apart := List.nodup_append.mp nodup
  have first : before.flatMap f = [] := by
    apply silent
    intro b mem
    exact ⟨List.mem_append_left _ mem, apart.2.2 b mem a List.mem_cons_self⟩
  have last : after.flatMap f = [] := by
    apply silent
    intro b inside
    refine ⟨List.mem_append_right _ (List.mem_cons_of_mem _ inside), ?_⟩
    rintro rfl
    exact (List.nodup_cons.mp apart.2.1).1 inside
  rw [List.flatMap_append, List.flatMap_cons, first, last, List.nil_append, List.append_nil]

/-- Where every element has a partner, there is a list of pairs. -/
lemma exists_pairs {P : α → β → Prop} {l : List α} (partner : ∀ a ∈ l, ∃ b, P a b) :
    ∃ pairs : List (α × β), pairs.map Prod.fst = l ∧ ∀ q ∈ pairs, P q.1 q.2 := by
  induction l with
  | nil => exact ⟨[], rfl, by simp⟩
  | cons a rest ih =>
    obtain ⟨b, hb⟩ := partner a List.mem_cons_self
    obtain ⟨pairs, fst, all⟩ := ih fun a h => partner a (List.mem_cons_of_mem _ h)
    exact ⟨(a, b) :: pairs, by rw [List.map_cons, fst], List.forall_mem_cons.mpr ⟨hb, all⟩⟩

/-- In lists that are related element by element, each element has a partner. -/
lemma exists_of_forall₂ {R : α → β → Prop} {l : List α} {l' : List β} {a : α} (related : List.Forall₂ R l l')
    (mem : a ∈ l) : ∃ b ∈ l', R a b := by
  induction related with
  | nil => cases mem
  | @cons _ b _ _ head _ ih =>
    obtain rfl | mem := List.mem_cons.mp mem
    · exact ⟨b, List.mem_cons_self, head⟩
    · obtain ⟨b, inside, own⟩ := ih mem
      exact ⟨b, List.mem_cons_of_mem _ inside, own⟩

/-- The pieces of a list between separators have none. -/
lemma notMem_of_mem_splitOn [DecidableEq α] {sep : α} {l piece : List α} (mem : piece ∈ l.splitOn sep) :
    sep ∉ piece := by
  induction l generalizing piece with
  | nil =>
    rw [List.splitOn_nil, List.mem_singleton] at mem
    rw [mem]
    exact List.not_mem_nil
  | cons a rest ih =>
    rw [List.splitOn_cons_eq_if_modifyHead] at mem
    split at mem
    · obtain rfl | mem := List.mem_cons.mp mem
      · exact List.not_mem_nil
      · exact ih mem
    · rename_i other
      cases pieces : rest.splitOn sep with
      | nil => exact absurd pieces (List.splitOn_ne_nil _ _)
      | cons first more =>
        rw [pieces, List.modifyHead_cons] at mem
        rw [pieces] at ih
        obtain rfl | mem := List.mem_cons.mp mem
        · rw [List.mem_cons, not_or]
          exact ⟨fun same => other (by simp [same]), ih List.mem_cons_self⟩
        · exact ih (List.mem_cons_of_mem _ mem)

end PjCloud.Lib
