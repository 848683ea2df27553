import Mathlib.Data.List.Basic

/-!
# Versions of a durable cell

A cell that is replaced as a whole, as a directory entry is by a rename. `synced` is the version that the last
successful synchronization covers and `later` are those put in place after it, the latest last. Reading gives the
latest. After a crash it is any one of them, so what is promised for good must hold of all (`All`).
-/

namespace PjCloud.Lib

structure Versions (α : Type) where
  synced : α
  later : List α
  deriving DecidableEq, Repr

namespace Versions
variable {α : Type} {v : Versions α} {a : α} {P Q : α → Prop}

def current (v : Versions α) : α := v.later.getLast?.getD v.synced

def replace (v : Versions α) (a : α) : Versions α := { v with later := v.later ++ [a] }

def sync (v : Versions α) : Versions α := { synced := v.current, later := [] }

/-- The versions, the one that is covered first. -/
def toList (v : Versions α) : List α := v.synced :: v.later

/-- What a crash leaves: one of the versions, as `settle` finds it on the disk. -/
def crash (settle : α → α) (v : Versions α) (choice : Nat) : Versions α where
  synced := settle (v.toList[choice]?.getD v.synced)
  later := []

/-- Every version that can be found has this property. -/
def All (P : α → Prop) (v : Versions α) : Prop := ∀ a ∈ v.toList, P a

lemma current_mem : v.current ∈ v.toList := by
  unfold current toList
  cases last : v.later.getLast? with
  | none => exact List.mem_cons_self
  | some a =>
    obtain ⟨front, shape⟩ := List.getLast?_eq_some_iff.mp last
    rw [shape]
    exact List.mem_cons_of_mem _ (List.mem_append_right _ (List.mem_singleton_self _))

lemma current_of_synced (none : v.later = []) : v.current = v.synced := by
  rw [current, none]
  rfl

@[simp] lemma current_replace : (v.replace a).current = a := by
  simp [current, replace]

lemma All.current (all : All P v) : P v.current := all _ current_mem

lemma all_iff : All P v ↔ P v.synced ∧ ∀ a ∈ v.later, P a := List.forall_mem_cons

lemma All.mono (all : All P v) (weaker : ∀ a, P a → Q a) : All Q v := fun a mem => weaker a (all a mem)

lemma All.replace (all : All P v) (new : P a) : All P (v.replace a) := by
  rw [all_iff] at all ⊢
  refine ⟨all.1, ?_⟩
  intro b mem
  rcases List.mem_append.mp mem with mem | mem
  · exact all.2 b mem
  · rw [List.mem_singleton.mp mem]
    exact new

/-- A synchronization makes the latest version the only one. -/
lemma all_sync (latest : P v.current) : All P v.sync := all_iff.mpr ⟨latest, by rintro a ⟨⟩⟩

lemma all_of_synced (none : v.later = []) (latest : P v.current) : All P v := by
  rw [all_iff, none]
  refine ⟨?_, by rintro a ⟨⟩⟩
  rw [← current_of_synced none]
  exact latest

lemma All.crash {settle : α → α} (all : All P v) (settles : ∀ a, P a → P (settle a)) (choice : Nat) :
    All P (v.crash settle choice) := by
  refine all_iff.mpr ⟨settles _ ?_, by rintro a ⟨⟩⟩
  cases found : v.toList[choice]? with
  | none => exact all _ List.mem_cons_self
  | some a => exact all a (List.mem_of_getElem? found)

end Versions
end PjCloud.Lib
