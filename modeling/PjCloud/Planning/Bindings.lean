import PjCloud.Lib.Firsts
import PjCloud.Planning.Open

/-!
# Bindings

What `assignBindings` returns. The topics are numbered in the order of their names, the schemas in the
order in which their keys come up; ids are `uint32`. `bindings_topics` and `bindings_schemas` say which
rows the two tables have, and from there on a topic's id and schema id are its place in the list of names
and the rank of its key.
-/

namespace PjCloud.Planning
open Lib Format

/-- The id after `n` others. -/
def wireID (n : Nat) : Nat := (n + 1) % 2 ^ 32

lemma wireID_succ {n : Nat} : (wireID n + 1) % 2 ^ 32 = wireID (n + 1) := by
  rw [wireID, wireID, Nat.add_mod, Nat.mod_mod, ← Nat.add_mod]

/-- Up to `2^32` ids are different. -/
lemma wireID_inj {m n : Nat} (hm : m < 2 ^ 32) (hn : n < 2 ^ 32) (same : wireID m = wireID n) :
    m = n := by
  unfold wireID at same
  omega

section Bind
variable {l : List TopicSchemaInfo} {ts : TopicSchemaInfo}

def SchemaBinding.ofTopic (i : Nat) (ts : TopicSchemaInfo) : SchemaBinding :=
  ⟨wireID i, ts.schemaName, ts.schemaEncoding, ts.schemaData⟩

def TopicBinding.ofTopic (l : List TopicSchemaInfo) (i : Nat) (ts : TopicSchemaInfo) : TopicBinding :=
  ⟨wireID i, ts.topicName, wireID (rank schemaKey l (schemaKey ts)), ts.messageEncoding⟩

/-- The bindings after the topics of a list. -/
structure Bound (l : List TopicSchemaInfo) (b : Bindings) : Prop where
  nextTopicID : b.nextTopicID = wireID l.length
  nextSchemaID : b.nextSchemaID = wireID (firsts schemaKey l).length
  schemas : b.schemas = (firsts schemaKey l).mapIdx SchemaBinding.ofTopic
  keys : b.schemaIDByKey = (firsts schemaKey l).mapIdx fun i ts => (schemaKey ts, wireID i)
  topics : b.topics = l.mapIdx (TopicBinding.ofTopic l)

lemma lookup_mapIdx {κ : Type} [BEq κ] [LawfulBEq κ] [DecidableEq κ] {key : TopicSchemaInfo → κ}
    {rows : List TopicSchemaInfo} {k : κ} : ∀ {f : Nat → Nat},
    (rows.mapIdx fun i ts => (key ts, f i)).lookup k =
      (rows.find? fun ts => key ts = k).map fun _ => f (rows.findIdx fun ts => key ts = k) := by
  induction rows with
  | nil =>
    intro f
    rfl
  | cons ts rest ih =>
    intro f
    rw [List.mapIdx_cons, List.find?_cons, List.findIdx_cons]
    by_cases same : key ts = k
    · simp [same]
    · have other : (k == key ts) = false := by simpa using Ne.symm same
      rw [List.lookup_cons, other, ih]
      simp [same]

lemma Bound.bindTopic {b : Bindings} (bound : Bound l b) : Bound (l ++ [ts]) (bindTopic b ts) := by
  have known : b.schemaIDByKey.lookup (schemaKey ts) =
      (l.find? fun x => schemaKey x = schemaKey ts).map fun _ => wireID (rank schemaKey l (schemaKey ts)) := by
    rw [bound.keys, lookup_mapIdx, find_firsts]
    rfl
  -- the rows of the earlier topics keep their schema ids
  have earlier : l.mapIdx (TopicBinding.ofTopic (l ++ [ts])) = l.mapIdx (TopicBinding.ofTopic l) := by
    apply List.ext_getElem?
    intro i
    rw [List.getElem?_mapIdx, List.getElem?_mapIdx]
    cases row : l[i]? with
    | none => rfl
    | some x =>
      have mem : schemaKey x ∈ l.map schemaKey := List.mem_map_of_mem (List.mem_of_getElem? row)
      simp only [Option.map_some, TopicBinding.ofTopic, rank_append mem]
  have topics : b.topics ++ [TopicBinding.ofTopic (l ++ [ts]) l.length ts] =
      (l ++ [ts]).mapIdx (TopicBinding.ofTopic (l ++ [ts])) := by
    rw [bound.topics, List.mapIdx_append, earlier]
    simp [List.mapIdx_cons]
  have length : (l ++ [ts]).length = l.length + 1 := by simp
  cases found : l.find? fun x => schemaKey x = schemaKey ts with
  | none =>
    -- the key is new: the topic's entry makes the next row
    rw [found, Option.map_none] at known
    have fresh := firsts_append_new found
    unfold Planning.bindTopic
    rw [known]
    constructor
    · rw [length, ← wireID_succ, ← bound.nextTopicID]
    · rw [fresh, List.length_append, List.length_singleton, ← wireID_succ, ← bound.nextSchemaID]
    · rw [fresh, List.mapIdx_append, ← bound.schemas]
      simp [SchemaBinding.ofTopic, bound.nextSchemaID]
    · rw [fresh, List.mapIdx_append, ← bound.keys]
      simp [bound.nextSchemaID]
    · rw [← topics]
      simp [TopicBinding.ofTopic, rank_append_new found, bound.nextSchemaID, bound.nextTopicID]
  | some first =>
    rw [found, Option.map_some] at known
    have same := firsts_append_known found
    have mem : schemaKey ts ∈ l.map schemaKey := by
      refine List.mem_map.mpr ⟨first, List.mem_of_find?_eq_some found, ?_⟩
      simpa using List.find?_some found
    unfold Planning.bindTopic
    rw [known]
    constructor
    · rw [length, ← wireID_succ, ← bound.nextTopicID]
    · rw [same]
      exact bound.nextSchemaID
    · rw [same]
      exact bound.schemas
    · rw [same]
      exact bound.keys
    · rw [← topics]
      simp [TopicBinding.ofTopic, rank_append mem, bound.nextTopicID]

lemma bound_foldl : Bound l (l.foldl bindTopic {}) := by
  induction l using List.reverseRecOn with
  | nil => constructor <;> rfl
  | append_singleton rest ts ih =>
    rw [List.foldl_append]
    exact ih.bindTopic

end Bind

section Tables
variable {l : List TopicSchemaInfo} {b : Bindings} {ts ts' : TopicSchemaInfo}

def Bindings.topicNamed (b : Bindings) (id : Nat) : Option TopicBinding :=
  b.topics.find? fun t => t.topicID = id

def Bindings.schemaNamed (b : Bindings) (id : Nat) : Option SchemaBinding :=
  b.schemas.find? fun s => s.schemaID = id

/-- Consecutive ids are different as long as there are at most `2^32` of them. -/
lemma wireIDs_nodup {n : Nat} : ((List.range n).map wireID).Nodup ↔ n ≤ 2 ^ 32 := by
  constructor
  · intro nodup
    by_contra many
    have first : 0 ∈ List.range n := List.mem_range.mpr (by omega)
    have again : 2 ^ 32 ∈ List.range n := List.mem_range.mpr (by omega)
    have same := List.inj_on_of_nodup_map nodup first again (by decide)
    cases same
  · intro few
    apply List.Nodup.map_on _ List.nodup_range
    intro i hi j hj same
    rw [List.mem_range] at hi hj
    exact wireID_inj (by omega) (by omega) same

lemma map_mapIdx_wireID {β : Type} {rows : List TopicSchemaInfo} {f : Nat → TopicSchemaInfo → β}
    (id : β → Nat) (numbered : ∀ i ts, id (f i ts) = wireID i) :
    (rows.mapIdx f).map id = (List.range rows.length).map wireID := by
  apply List.ext_getElem?
  intro i
  rw [List.getElem?_map, List.getElem?_mapIdx, List.getElem?_map]
  by_cases inside : i < rows.length
  · simp [inside, numbered]
  · simp [inside]

namespace Bound

/-- The topic ids are different as long as there are at most `2^32` topics. -/
lemma topicIDs_nodup (bound : Bound l b) : (b.topics.map TopicBinding.topicID).Nodup ↔
    l.length ≤ 2 ^ 32 := by
  rw [bound.topics, map_mapIdx_wireID TopicBinding.topicID (fun _ _ => rfl), wireIDs_nodup]

/-- So are then the schema ids. -/
lemma schemaIDs_nodup (bound : Bound l b) (few : l.length ≤ 2 ^ 32) :
    (b.schemas.map SchemaBinding.schemaID).Nodup := by
  rw [bound.schemas, map_mapIdx_wireID SchemaBinding.schemaID (fun _ _ => rfl), wireIDs_nodup]
  exact length_firsts_le.trans few

lemma of_lookup (bound : Bound l b) {topic : String} {tb : TopicBinding}
    (found : b.lookup topic = some tb) :
    ∃ (i : Nat) (ts : TopicSchemaInfo), l[i]? = some ts ∧ ts.topicName = topic ∧
      tb = TopicBinding.ofTopic l i ts := by
  have name : tb.topicName = topic := by simpa using List.find?_some found
  have mem : tb ∈ b.topics := List.mem_of_find?_eq_some found
  rw [bound.topics] at mem
  obtain ⟨i, inside, rfl⟩ := List.mem_mapIdx.mp mem
  exact ⟨i, l[i], List.getElem?_eq_getElem inside, name, rfl⟩

lemma lookup_isSome (bound : Bound l b) (mem : ts ∈ l) : ∃ tb, b.lookup ts.topicName = some tb := by
  apply Option.isSome_iff_exists.mp
  obtain ⟨i, row⟩ := List.mem_iff_getElem?.mp mem
  refine List.find?_isSome.mpr ⟨TopicBinding.ofTopic l i ts, ?_, by simp [TopicBinding.ofTopic]⟩
  rw [bound.topics]
  apply List.mem_iff_getElem?.mpr
  exact ⟨i, by rw [List.getElem?_mapIdx, row]; rfl⟩

lemma topicNamed (bound : Bound l b) (few : l.length ≤ 2 ^ 32) {i : Nat} (row : l[i]? = some ts) :
    b.topicNamed (wireID i) = some (TopicBinding.ofTopic l i ts) := by
  have mem : TopicBinding.ofTopic l i ts ∈ b.topics := by
    rw [bound.topics]
    apply List.mem_iff_getElem?.mpr
    exact ⟨i, by rw [List.getElem?_mapIdx, row]; rfl⟩
  exact find_of_nodup (bound.topicIDs_nodup.mpr few) mem

lemma schemaNamed (bound : Bound l b) (few : l.length ≤ 2 ^ 32) {first : TopicSchemaInfo}
    (found : l.find? (fun x => schemaKey x = schemaKey ts) = some first) :
    b.schemaNamed (wireID (rank schemaKey l (schemaKey ts))) =
      some (SchemaBinding.ofTopic (rank schemaKey l (schemaKey ts)) first) := by
  have row : (firsts schemaKey l)[rank schemaKey l (schemaKey ts)]? = some first :=
    getElem_rank.trans found
  have mem : SchemaBinding.ofTopic (rank schemaKey l (schemaKey ts)) first ∈ b.schemas := by
    rw [bound.schemas]
    apply List.mem_iff_getElem?.mpr
    exact ⟨rank schemaKey l (schemaKey ts), by rw [List.getElem?_mapIdx, row]; rfl⟩
  exact find_of_nodup (bound.schemaIDs_nodup few) mem

end Bound

lemma rank_eq_iff (mem : ts ∈ l) (mem' : ts' ∈ l) (few : l.length ≤ 2 ^ 32) :
    wireID (rank schemaKey l (schemaKey ts)) = wireID (rank schemaKey l (schemaKey ts')) ↔
      schemaKey ts = schemaKey ts' := by
  have row : ∀ {x}, x ∈ l → ∃ first, schemaKey first = schemaKey x ∧
      (firsts schemaKey l)[rank schemaKey l (schemaKey x)]? = some first := by
    intro x mem
    obtain ⟨first, found⟩ := Option.isSome_iff_exists.mp
      (List.find?_isSome.mpr ⟨x, mem, by simp⟩ : (l.find? fun y => schemaKey y = schemaKey x).isSome)
    exact ⟨first, by simpa using List.find?_some found, getElem_rank.trans found⟩
  obtain ⟨first, key, at_rank⟩ := row mem
  obtain ⟨first', key', at_rank'⟩ := row mem'
  have inside := (List.getElem?_eq_some_iff.mp at_rank).1
  have inside' := (List.getElem?_eq_some_iff.mp at_rank').1
  have bounded : (firsts schemaKey l).length ≤ 2 ^ 32 := length_firsts_le.trans few
  constructor
  · intro same
    have rows := wireID_inj (inside.trans_le bounded) (inside'.trans_le bounded) same
    rw [rows, at_rank'] at at_rank
    rw [← key, ← key', Option.some.inj at_rank]
  · intro same
    rw [same]

end Tables

end PjCloud.Planning
