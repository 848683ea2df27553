import Mathlib.Data.List.Nodup
import PjCloud.Lib.Lists

/-!
# Dictionaries

A table that gives each key a number, with the rows `(number, key)`: no number and no key is there twice. A
table that only grows at its end keeps what it says of its keys and numbers (`idOf_of_extends`,
`keyOf_of_prefix`), and a row for a new key takes a number above all others (`Dictionary.add`).
-/

namespace PjCloud.Lib
variable {κ : Type} {rows rows' : List (Nat × κ)} {k k' : κ} {i : Nat}

/-- A number above all of these. -/
def nextId (ids : List Nat) : Nat := ids.foldr max 0 + 1

/-- It is above all of them. -/
lemma lt_nextId {ids : List Nat} (mem : i ∈ ids) : i < nextId ids := by
  unfold nextId
  induction ids with
  | nil => cases mem
  | cons j rest ih =>
    rw [List.foldr_cons]
    obtain rfl | mem := List.mem_cons.mp mem
    · omega
    · have := ih mem
      omega

/-- A row for a new key. -/
def addKey (rows : List (Nat × κ)) (k : κ) : List (Nat × κ) := rows ++ [(nextId (rows.map Prod.fst), k)]

/-- The table grows at its end. -/
lemma prefix_addKey : rows <+: addKey rows k := List.prefix_append _ _

/-- No number and no key is there twice. -/
structure Dictionary (rows : List (Nat × κ)) : Prop where
  ids : (rows.map Prod.fst).Nodup
  keys : (rows.map Prod.snd).Nodup

/-- The key with a number. -/
def keyOf (rows : List (Nat × κ)) (i : Nat) : Option κ := (rows.find? fun row => row.1 = i).map Prod.snd

/-- A key is that of the number in its row. -/
lemma Dictionary.keyOf_iff (dict : Dictionary rows) : keyOf rows i = some k ↔ (i, k) ∈ rows := by
  unfold keyOf
  constructor
  · intro found
    obtain ⟨row, hit, rfl⟩ := Option.map_eq_some_iff.mp found
    have same : row.1 = i := by simpa using List.find?_some hit
    rw [← same]
    exact List.mem_of_find?_eq_some hit
  · intro mem
    rw [find_of_nodup dict.ids mem]
    rfl

variable [DecidableEq κ]

/-- The number of a key. -/
def idOf (rows : List (Nat × κ)) (k : κ) : Option Nat := (rows.find? fun row => row.2 = k).map Prod.fst

/-- A number is that of the key in its row. -/
lemma Dictionary.idOf_iff (dict : Dictionary rows) : idOf rows k = some i ↔ (i, k) ∈ rows := by
  unfold idOf
  constructor
  · intro found
    obtain ⟨row, hit, rfl⟩ := Option.map_eq_some_iff.mp found
    have same : row.2 = k := by simpa using List.find?_some hit
    rw [← same]
    exact List.mem_of_find?_eq_some hit
  · intro mem
    rw [find_of_nodup dict.keys mem]
    rfl

/-- Keys with one number are one key. -/
lemma Dictionary.key_unique (dict : Dictionary rows) (one : idOf rows k = some i)
    (other : idOf rows k' = some i) : k = k' := by
  have one := dict.keyOf_iff.mpr (dict.idOf_iff.mp one)
  have other := dict.keyOf_iff.mpr (dict.idOf_iff.mp other)
  exact Option.some.inj (one.symm.trans other)

/-- A key without a number is in no row. -/
lemma idOf_eq_none : idOf rows k = none ↔ k ∉ rows.map Prod.snd := by
  simp only [idOf, Option.map_eq_none_iff, List.find?_eq_none, decide_eq_true_eq, List.mem_map, not_exists,
    not_and]

/-- A row for a new key keeps the dictionary. -/
lemma Dictionary.add (dict : Dictionary rows) (new : idOf rows k = none) : Dictionary (addKey rows k) := by
  unfold addKey
  constructor
  · rw [List.map_append]
    apply dict.ids.append (List.nodup_singleton _)
    intro i mem last
    obtain rfl : i = nextId (rows.map Prod.fst) := by simpa using last
    exact absurd (lt_nextId mem) (Nat.lt_irrefl _)
  · rw [List.map_append]
    apply dict.keys.append (List.nodup_singleton _)
    intro k' mem last
    obtain rfl : k' = k := by simpa using last
    exact idOf_eq_none.mp new mem

/-- The new key has the new number. -/
lemma idOf_addKey (new : idOf rows k = none) : idOf (addKey rows k) k = some (nextId (rows.map Prod.fst)) := by
  have none : rows.find? (fun row => row.2 = k) = none := Option.map_eq_none_iff.mp new
  rw [idOf, addKey, List.find?_append, none]
  simp

/-- The other keys have the numbers they had. -/
lemma idOf_addKey_of_ne (other : k' ≠ k) : idOf (addKey rows k) k' = idOf rows k' := by
  unfold idOf addKey
  rw [List.find?_append, List.find?_singleton, if_neg (by simpa using Ne.symm other), Option.or_none]

/-- A key keeps its number. -/
lemma idOf_of_extends (grows : rows <+: rows') (found : idOf rows k = some i) : idOf rows' k = some i := by
  obtain ⟨more, rfl⟩ := grows
  unfold idOf at found ⊢
  obtain ⟨row, hit, rfl⟩ := Option.map_eq_some_iff.mp found
  rw [List.find?_append, hit]
  rfl

end PjCloud.Lib
