import PjCloud.Builder.Catalog

/-!
# What the tables say

A file is known by its names, not by ids. `SoundNames`, `SoundFiles` and `SoundTags` are what the schema and the builder
keep of the tables, so that ids and names belong together. Tables that only get new names (`Grows`) say the same.
-/

namespace PjCloud.Builder
open Lib

namespace Tables
variable (t : Tables)

def names : Caches := fun d key => idOf (t.dict d) key

def compositeOf (dims : Dims) : Option Composite := compositeIds t.names dims

def fileOf (dims : Dims) : Option FileRow := (t.compositeOf dims).bind t.fileWith

def membersOf (set : Nat) : List (Nat × Nat) :=
  sortMembers ((t.members.filter fun m => m.setId = set).map fun m => (m.topicId, m.schemaId))

def overridesOf (id : Nat) : List OverrideTag := t.tagsOverride.filter fun tag => tag.fileId = id

def embeddedOf (id : Nat) : List EmbeddedTag := t.tagsEmbedded.filter fun tag => tag.fileId = id

end Tables

/-- What the schema and the builder keep of the dictionaries and topic sets. -/
structure SoundNames (cfg : Setup) (t : Tables) : Prop where
  dict : ∀ d, Dictionary (t.dict d)
  parents : ∀ d, ∀ row ∈ t.dict d, t.hasParent d row.2 = true
  memberKeys : (t.members.map fun m => (m.setId, m.topicId)).Nodup
  memberParents : ∀ m ∈ t.members,
    t.has .topicSet m.setId = true ∧ t.has .topic m.topicId = true ∧ t.has .schema m.schemaId = true
  sets : ∀ row ∈ t.dict .topicSet, row.2 = cfg.fingerprint (t.membersOf row.1)

/-- What they keep of the files. -/
structure SoundFiles (t : Tables) : Prop where
  ids : (t.files.map FileRow.id).Nodup
  composites : (t.files.map FileRow.composite).Nodup
  named : ∀ row ∈ t.files, ∃ dims : Dims, dims.Clean ∧ t.compositeOf dims = some row.composite
  sets : ∀ row ∈ t.files, t.has .topicSet row.topicSetId = true

/-- What they keep of the tags. -/
structure SoundTags (t : Tables) : Prop where
  embeddedKeys : (t.tagsEmbedded.map fun tag => (tag.fileId, tag.key)).Nodup
  overrideKeys : (t.tagsOverride.map fun tag => (tag.fileId, tag.key)).Nodup
  embedded : ∀ tag ∈ t.tagsEmbedded, t.hasFile tag.fileId = true
  overrides : ∀ tag ∈ t.tagsOverride, t.hasFile tag.fileId = true

/-- Tables with more names, and nothing else. -/
structure Grows (t t' : Tables) : Prop where
  dict : ∀ d, t.dict d <+: t'.dict d
  members : ∃ more, t'.members = t.members ++ more ∧ ∀ m ∈ more, t.has .topicSet m.setId = false
  files : t'.files = t.files
  tagsEmbedded : t'.tagsEmbedded = t.tagsEmbedded
  tagsOverride : t'.tagsOverride = t.tagsOverride
  failures : t'.failures = t.failures
  build : t'.build = t.build

variable {cfg : Setup} {t t' t'' : Tables} {d : Dict} {key : d.Key} {i : Nat} {dims dims' : Dims}
  {c : Composite} {row : FileRow}

lemma has_iff : t.has d i = true ↔ ∃ key, (i, key) ∈ t.dict d := by
  simp only [Tables.has, List.any_eq_true, decide_eq_true_eq]
  constructor
  · rintro ⟨row, mem, rfl⟩
    exact ⟨row.2, mem⟩
  · rintro ⟨key, mem⟩
    exact ⟨_, mem, rfl⟩

lemma has_of_idOf (found : idOf (t.dict d) key = some i) : t.has d i = true := by
  unfold idOf at found
  obtain ⟨row, hit, rfl⟩ := Option.map_eq_some_iff.mp found
  exact has_iff.mpr ⟨row.2, List.mem_of_find?_eq_some hit⟩

lemma compositeIds_eq_some {caches : Caches} : compositeIds caches dims = some c ↔
    caches .customer dims.customer = some c.customerId ∧
    caches .site (c.customerId, dims.site) = some c.siteId ∧
    caches .robot (c.siteId, dims.robot) = some c.robotId ∧
    caches .source dims.source = some c.sourceId ∧ dims.date = c.date ∧ dims.filename = c.filename := by
  unfold compositeIds
  simp only [Option.bind_eq_bind, Option.bind_eq_some_iff, Option.some.injEq]
  constructor
  · rintro ⟨_, customer, _, site, _, robot, _, source, rfl⟩
    exact ⟨customer, site, robot, source, rfl, rfl⟩
  · rintro ⟨customer, site, robot, source, date, filename⟩
    exact ⟨_, customer, _, site, _, robot, _, source, by rw [date, filename]⟩

lemma SoundNames.compositeOf_inj (sound : SoundNames cfg t) (one : t.compositeOf dims = some c)
    (other : t.compositeOf dims' = some c) : dims = dims' := by
  obtain ⟨customer, site, robot, source, date, filename⟩ := compositeIds_eq_some.mp one
  obtain ⟨customer', site', robot', source', date', filename'⟩ := compositeIds_eq_some.mp other
  have sites := (sound.dict .site).key_unique site site'
  have robots := (sound.dict .robot).key_unique robot robot'
  cases dims
  cases dims'
  simp only [Dims.mk.injEq]
  exact ⟨(sound.dict .customer).key_unique customer customer', (Prod.mk.inj sites).2, (Prod.mk.inj robots).2,
    (sound.dict .source).key_unique source source', date.trans date'.symm, filename.trans filename'.symm⟩

lemma SoundFiles.fileWith_iff (sound : SoundFiles t) :
    t.fileWith c = some row ↔ row ∈ t.files ∧ row.composite = c := by
  unfold Tables.fileWith
  constructor
  · intro found
    exact ⟨List.mem_of_find?_eq_some found, by simpa using List.find?_some found⟩
  · rintro ⟨mem, rfl⟩
    exact find_of_nodup sound.composites mem

lemma SoundFiles.fileOf_iff (sound : SoundFiles t) :
    t.fileOf dims = some row ↔ row ∈ t.files ∧ t.compositeOf dims = some row.composite := by
  unfold Tables.fileOf
  rw [Option.bind_eq_some_iff]
  constructor
  · rintro ⟨c, named, found⟩
    obtain ⟨mem, rfl⟩ := sound.fileWith_iff.mp found
    exact ⟨mem, named⟩
  · rintro ⟨mem, named⟩
    exact ⟨_, named, sound.fileWith_iff.mpr ⟨mem, rfl⟩⟩

namespace Grows

lemma refl : Grows t t :=
  ⟨fun _ => List.prefix_refl _, ⟨[], (List.append_nil _).symm, by simp⟩, rfl, rfl, rfl, rfl, rfl⟩

lemma has (grows : Grows t t') (there : t.has d i = true) : t'.has d i = true := by
  obtain ⟨key, mem⟩ := has_iff.mp there
  exact has_iff.mpr ⟨key, (grows.dict d).subset mem⟩

lemma trans (one : Grows t t') (two : Grows t' t'') : Grows t t'' := by
  obtain ⟨more, members, new⟩ := one.members
  obtain ⟨more', members', new'⟩ := two.members
  refine ⟨fun d => (one.dict d).trans (two.dict d), ⟨more ++ more', ?_, ?_⟩, two.files.trans one.files,
    two.tagsEmbedded.trans one.tagsEmbedded, two.tagsOverride.trans one.tagsOverride,
    two.failures.trans one.failures, two.build.trans one.build⟩
  · rw [members', members, List.append_assoc]
  · intro m mem
    obtain mem | mem := List.mem_append.mp mem
    · exact new m mem
    · by_contra there
      rw [Bool.not_eq_false] at there
      exact absurd (one.has there) (by rw [new' m mem]; decide)

lemma compositeOf (grows : Grows t t') (named : t.compositeOf dims = some c) :
    t'.compositeOf dims = some c := by
  obtain ⟨customer, site, robot, source, date, filename⟩ := compositeIds_eq_some.mp named
  exact compositeIds_eq_some.mpr ⟨idOf_of_extends (grows.dict .customer) customer,
    idOf_of_extends (grows.dict .site) site, idOf_of_extends (grows.dict .robot) robot,
    idOf_of_extends (grows.dict .source) source, date, filename⟩

lemma membersOf (grows : Grows t t') (there : t.has .topicSet i = true) : t'.membersOf i = t.membersOf i := by
  obtain ⟨more, members, new⟩ := grows.members
  have none : more.filter (fun m => m.setId = i) = [] := by
    refine List.filter_eq_nil_iff.mpr ?_
    intro m mem own
    rw [decide_eq_true_eq] at own
    subst own
    rw [new m mem] at there
    cases there
  unfold Tables.membersOf
  rw [members, List.filter_append, none, List.append_nil]

lemma fileOf (grows : Grows t t') (files : SoundFiles t) (names : SoundNames cfg t') :
    t'.fileOf dims = t.fileOf dims := by
  unfold Tables.fileOf
  cases named : t.compositeOf dims with
  | some c =>
    rw [grows.compositeOf named]
    unfold Tables.fileWith
    rw [Option.bind_some, Option.bind_some, grows.files]
  | none =>
    cases named' : t'.compositeOf dims with
    | none => rfl
    | some c =>
      -- the composite key is new, so no row has it
      rw [Option.bind_some, Option.bind_none, Tables.fileWith, grows.files, List.find?_eq_none]
      intro row mem same
      rw [decide_eq_true_eq] at same
      subst same
      obtain ⟨dims₀, -, named₀⟩ := files.named row mem
      obtain rfl := names.compositeOf_inj named' (grows.compositeOf named₀)
      rw [named] at named₀
      cases named₀

end Grows

end PjCloud.Builder
