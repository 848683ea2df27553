import PjCloud.Builder.Sound

/-!
# New names

Another row in a dictionary, and another topic set with its members, keep the names sound and only add names.
-/

namespace PjCloud.Builder
open Lib
variable {cfg : Setup} {t t' : Tables} {d d' : Dict} {key : d.Key} {i : Nat}

@[simp] lemma addName_dict_self : (t.addName d key).dict d = addKey (t.dict d) key := Function.update_self ..

lemma addName_dict_of_ne (other : d' ≠ d) : (t.addName d key).dict d' = t.dict d' :=
  Function.update_of_ne other ..

lemma grows_addName : Grows t (t.addName d key) := by
  refine ⟨?_, ⟨[], (List.append_nil _).symm, by simp⟩, rfl, rfl, rfl, rfl, rfl⟩
  intro d'
  by_cases same : d' = d
  · subst same
    rw [addName_dict_self]
    exact prefix_addKey
  · exact ⟨[], by rw [List.append_nil, addName_dict_of_ne same]⟩

lemma Grows.hasParent (grows : Grows t t') {key : d.Key} (there : t.hasParent d key = true) :
    t'.hasParent d key = true := by
  cases d <;> first | exact grows.has there | rfl

lemma Grows.memberParents (grows : Grows t t') {m : Member} (there : t.has .topicSet m.setId = true ∧
    t.has .topic m.topicId = true ∧ t.has .schema m.schemaId = true) :
    t'.has .topicSet m.setId = true ∧ t'.has .topic m.topicId = true ∧ t'.has .schema m.schemaId = true :=
  ⟨grows.has there.1, grows.has there.2.1, grows.has there.2.2⟩

lemma dictionary_addName (dict : ∀ d, Dictionary (t.dict d)) (new : idOf (t.dict d) key = none) (d' : Dict) :
    Dictionary ((t.addName d key).dict d') := by
  by_cases same : d' = d
  · subst same
    rw [addName_dict_self]
    exact (dict d').add new
  · rw [addName_dict_of_ne same]
    exact dict d'

lemma parents_addName (parents : ∀ d, ∀ row ∈ t.dict d, t.hasParent d row.2 = true)
    (parent : t.hasParent d key = true) (d' : Dict) (row : Nat × d'.Key)
    (mem : row ∈ (t.addName d key).dict d') : (t.addName d key).hasParent d' row.2 = true := by
  apply grows_addName.hasParent
  by_cases same : d' = d
  · subst same
    rw [addName_dict_self] at mem
    obtain old | new := List.mem_append.mp mem
    · exact parents d' row old
    · rw [List.mem_singleton.mp new]
      exact parent
  · rw [addName_dict_of_ne same] at mem
    exact parents d' row mem

lemma SoundNames.addName (sound : SoundNames cfg t) (new : idOf (t.dict d) key = none)
    (parent : t.hasParent d key = true) (noSet : d ≠ .topicSet) : SoundNames cfg (t.addName d key) := by
  refine ⟨dictionary_addName sound.dict new, parents_addName sound.parents parent, sound.memberKeys, ?_, ?_⟩
  · exact fun m mem => grows_addName.memberParents (sound.memberParents m mem)
  · rw [addName_dict_of_ne (Ne.symm noSet)]
    exact sound.sets

/-- Another topic set with its members. -/
def Tables.addTopicSet (t : Tables) (fingerprint : String) (members : List (Nat × Nat)) : Tables :=
  { t.addName .topicSet fingerprint with
    members := t.members ++
      members.map fun m => ⟨nextId ((t.dict .topicSet).map Prod.fst), m.1, m.2⟩ }

lemma has_nextId : t.has d (nextId ((t.dict d).map Prod.fst)) = false := by
  by_contra there
  rw [Bool.not_eq_false] at there
  obtain ⟨key, mem⟩ := has_iff.mp there
  exact Nat.lt_irrefl _ (lt_nextId (List.mem_map_of_mem mem : _ ∈ (t.dict d).map Prod.fst))

variable {fingerprint : String} {members : List (Nat × Nat)}

lemma addTopicSet_dict : (t.addTopicSet fingerprint members).dict .topicSet =
    addKey (t.dict .topicSet) fingerprint := @addName_dict_self t .topicSet fingerprint

lemma grows_addTopicSet : Grows t (t.addTopicSet fingerprint members) := by
  refine ⟨fun d => (@grows_addName t .topicSet fingerprint).dict d, ⟨_, rfl, ?_⟩, rfl, rfl, rfl, rfl, rfl⟩
  intro m mem
  obtain ⟨x, -, rfl⟩ := List.mem_map.mp mem
  exact has_nextId

/-- Members that a topic set can have. -/
structure Members (t : Tables) (members : List (Nat × Nat)) : Prop where
  sorted : sortMembers members = members
  topics : (members.map Prod.fst).Nodup
  known : ∀ m ∈ members, t.has .topic m.1 = true ∧ t.has .schema m.2 = true

lemma membersOf_addTopicSet (sound : SoundNames cfg t) (fit : Members t members) :
    (t.addTopicSet fingerprint members).membersOf (nextId ((t.dict .topicSet).map Prod.fst)) = members := by
  have old : t.members.filter (fun m => m.setId = nextId ((t.dict .topicSet).map Prod.fst)) = [] := by
    refine List.filter_eq_nil_iff.mpr ?_
    intro m mem own
    rw [decide_eq_true_eq] at own
    have there := (sound.memberParents m mem).1
    rw [own, has_nextId] at there
    cases there
  have new : (members.map fun m => (⟨nextId ((t.dict .topicSet).map Prod.fst), m.1, m.2⟩ : Member)).filter
      (fun m => m.setId = nextId ((t.dict .topicSet).map Prod.fst)) =
      members.map fun m => ⟨nextId ((t.dict .topicSet).map Prod.fst), m.1, m.2⟩ := by
    refine List.filter_eq_self.mpr ?_
    intro m mem
    obtain ⟨x, -, rfl⟩ := List.mem_map.mp mem
    exact decide_eq_true rfl
  unfold Tables.membersOf Tables.addTopicSet
  dsimp only
  rw [List.filter_append, old, List.nil_append, new, List.map_map]
  refine Eq.trans (congrArg sortMembers ?_) fit.sorted
  exact List.map_id _

lemma SoundNames.addTopicSet (sound : SoundNames cfg t) (fit : Members t members)
    (new : idOf (t.dict .topicSet) (cfg.fingerprint members) = none) :
    SoundNames cfg (t.addTopicSet (cfg.fingerprint members) members) := by
  have grows := @grows_addTopicSet t (cfg.fingerprint members) members
  have set : (t.addTopicSet (cfg.fingerprint members) members).has .topicSet
      (nextId ((t.dict .topicSet).map Prod.fst)) = true := by
    refine has_iff.mpr ⟨cfg.fingerprint members, ?_⟩
    rw [addTopicSet_dict]
    exact List.mem_append_right _ (List.mem_singleton.mpr rfl)
  refine ⟨dictionary_addName sound.dict new, parents_addName sound.parents rfl, ?_, ?_, ?_⟩
  · unfold Tables.addTopicSet
    dsimp only
    rw [List.map_append, List.map_map]
    apply sound.memberKeys.append
    · have pairs : (members.map Prod.fst).map (fun topic => (nextId ((t.dict .topicSet).map Prod.fst), topic)) =
          members.map ((fun m : Member => (m.setId, m.topicId)) ∘
            fun m => ⟨nextId ((t.dict .topicSet).map Prod.fst), m.1, m.2⟩) := List.map_map
      rw [← pairs]
      exact fit.topics.map fun _ _ same => (Prod.mk.inj same).2
    · intro pair old new
      obtain ⟨m, mem, rfl⟩ := List.mem_map.mp old
      obtain ⟨x, -, same⟩ := List.mem_map.mp new
      have there := (sound.memberParents m mem).1
      rw [← (Prod.mk.inj same).1, has_nextId] at there
      cases there
  · intro m mem
    obtain old | new := List.mem_append.mp mem
    · exact grows.memberParents (sound.memberParents m old)
    · obtain ⟨x, inside, rfl⟩ := List.mem_map.mp new
      obtain ⟨topic, schema⟩ := fit.known x inside
      exact ⟨set, grows.has topic, grows.has schema⟩
  · intro row mem
    rw [addTopicSet_dict] at mem
    obtain old | new := List.mem_append.mp mem
    · rw [grows.membersOf (has_iff.mpr ⟨row.2, old⟩)]
      exact sound.sets row old
    · obtain rfl := List.mem_singleton.mp new
      rw [membersOf_addTopicSet sound fit]

end PjCloud.Builder
