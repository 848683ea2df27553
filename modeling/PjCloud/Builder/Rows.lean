import PjCloud.Builder.Names

/-!
# Rows of files

What the statements of a catalog transaction come to together (`Tables.catalogFile`), and what the deletion of
rows comes to, on the tables and on the catalog as a map: one entry is replaced or entries are dropped, and the
others stay.
-/

namespace PjCloud.Builder
open Lib
variable {cfg : Setup} {t : Tables} {c c' : Composite} {row x : FileRow} {dims dims' : Dims} {i : Nat}
  {p : FileRow → Bool}

/-! ## One row -/

namespace Tables
variable (t : Tables)

/-- The id of the row with a composite key, or the one that it will get. -/
def fileId (c : Composite) : Nat :=
  match t.fileWith c with
  | some old => old.id
  | none => nextId (t.files.map FileRow.id)

def addTags (id : Nat) (tags : List (String × String)) : Tables :=
  { t with tagsEmbedded := t.tagsEmbedded ++ tags.map fun tag => ⟨id, tag.1, tag.2⟩ }

/-- A file is cataloged: its row, its embedded tags, and no failure under its key. -/
def catalogFile (row : FileRow) (tags : List (String × String)) (effKey : String) : Tables :=
  { t.putRow row with
    tagsEmbedded := t.tagsEmbedded.filter (fun tag => tag.fileId ≠ t.fileId row.composite) ++
      tags.map fun tag => ⟨t.fileId row.composite, tag.1, tag.2⟩
    failures := t.failures.filter fun x => x.s3Key ≠ effKey }

end Tables

lemma SoundFiles.unique (sound : SoundFiles t) (mem : x ∈ t.files) (mem' : row ∈ t.files)
    (same : x.composite = row.composite) : x = row :=
  List.inj_on_of_nodup_map sound.composites mem mem' same

lemma SoundFiles.id_unique (sound : SoundFiles t) (mem : x ∈ t.files) (mem' : row ∈ t.files)
    (same : x.id = row.id) : x = row :=
  List.inj_on_of_nodup_map sound.ids mem mem' same

lemma putRow_frame : (t.putRow row).dict = t.dict ∧ (t.putRow row).members = t.members ∧
    (t.putRow row).tagsEmbedded = t.tagsEmbedded ∧ (t.putRow row).tagsOverride = t.tagsOverride ∧
    (t.putRow row).failures = t.failures ∧ (t.putRow row).build = t.build := by
  unfold Tables.putRow
  split <;> exact ⟨rfl, rfl, rfl, rfl, rfl, rfl⟩

lemma mem_putRow (sound : SoundFiles t) : x ∈ (t.putRow row).files ↔
    x = { row with id := t.fileId row.composite } ∨ x ∈ t.files ∧ x.composite ≠ row.composite := by
  unfold Tables.putRow Tables.fileId
  cases found : t.fileWith row.composite with
  | some old =>
    obtain ⟨mem, same⟩ := sound.fileWith_iff.mp found
    simp only [List.mem_map]
    constructor
    · rintro ⟨y, inside, rfl⟩
      split
      · exact .inl rfl
      · rename_i other
        exact .inr ⟨inside, other⟩
    · rintro (rfl | ⟨inside, other⟩)
      · exact ⟨old, mem, by rw [if_pos same]⟩
      · exact ⟨x, inside, if_neg other⟩
  | none =>
    have none : ∀ y ∈ t.files, y.composite ≠ row.composite := by
      intro y mem same
      rw [sound.fileWith_iff.mpr ⟨mem, same⟩] at found
      cases found
    simp only [List.mem_append, List.mem_singleton]
    constructor
    · rintro (inside | rfl)
      · exact .inr ⟨inside, none x inside⟩
      · exact .inl rfl
    · rintro (rfl | ⟨inside, -⟩)
      · exact .inr rfl
      · exact .inl inside

lemma SoundFiles.fileId_ne (sound : SoundFiles t) (mem : x ∈ t.files) (other : x.composite ≠ c) :
    x.id ≠ t.fileId c := by
  unfold Tables.fileId
  split
  · rename_i old found
    obtain ⟨inside, rfl⟩ := sound.fileWith_iff.mp found
    intro same
    exact other (by rw [sound.id_unique mem inside same])
  · exact Nat.ne_of_lt (lt_nextId (List.mem_map_of_mem mem))

lemma SoundFiles.putRow_nodup (sound : SoundFiles t) : ((t.putRow row).files.map FileRow.id).Nodup ∧
    ((t.putRow row).files.map FileRow.composite).Nodup := by
  unfold Tables.putRow
  cases found : t.fileWith row.composite with
  | some old =>
    obtain ⟨mem, same⟩ := sound.fileWith_iff.mp found
    have ids : (t.files.map fun x => if x.composite = row.composite then { row with id := old.id } else x).map
        FileRow.id = t.files.map FileRow.id := by
      rw [List.map_map]
      apply List.map_congr_left
      intro x inside
      rw [Function.comp_apply]
      split
      · rename_i own
        rw [sound.unique inside mem (own.trans same.symm)]
      · rfl
    have composites : (t.files.map fun x => if x.composite = row.composite then { row with id := old.id }
        else x).map FileRow.composite = t.files.map FileRow.composite := by
      rw [List.map_map]
      apply List.map_congr_left
      intro x inside
      rw [Function.comp_apply]
      split
      · rename_i own
        exact own.symm
      · rfl
    dsimp only
    rw [ids, composites]
    exact ⟨sound.ids, sound.composites⟩
  | none =>
    dsimp only
    rw [List.map_append, List.map_append]
    constructor
    · apply sound.ids.append (List.nodup_singleton _)
      intro i mem last
      obtain rfl := List.mem_singleton.mp last
      exact Nat.lt_irrefl _ (lt_nextId mem)
    · apply sound.composites.append (List.nodup_singleton _)
      intro c mem last
      obtain rfl := List.mem_singleton.mp last
      obtain ⟨x, inside, same⟩ := List.mem_map.mp mem
      rw [sound.fileWith_iff.mpr ⟨inside, same⟩] at found
      cases found

lemma SoundFiles.putRow (sound : SoundFiles t) (clean : dims.Clean)
    (named : t.compositeOf dims = some row.composite) (set : t.has .topicSet row.topicSetId = true) :
    SoundFiles (t.putRow row) := by
  obtain ⟨dict, -⟩ := @putRow_frame t row
  have names : (t.putRow row).compositeOf = t.compositeOf := by
    unfold Tables.compositeOf Tables.names
    rw [dict]
  refine ⟨sound.putRow_nodup.1, sound.putRow_nodup.2, ?_, ?_⟩
  · intro x mem
    rw [names]
    obtain rfl | ⟨inside, -⟩ := (mem_putRow sound).mp mem
    · exact ⟨dims, clean, named⟩
    · exact sound.named x inside
  · intro x mem
    unfold Tables.has
    rw [dict]
    obtain rfl | ⟨inside, -⟩ := (mem_putRow sound).mp mem
    · exact set
    · exact sound.sets x inside

lemma SoundFiles.fileWith_putRow (sound : SoundFiles t) :
    (t.putRow row).fileWith row.composite = some { row with id := t.fileId row.composite } := by
  have mem := (mem_putRow (x := { row with id := t.fileId row.composite }) sound).mpr (.inl rfl)
  have nodup : ((t.putRow row).files.map FileRow.composite).Nodup := sound.putRow_nodup.2
  exact find_of_nodup nodup mem

lemma SoundFiles.setHasError_putRow (sound : SoundFiles t) {hasError : Bool} :
    ((t.putRow row).setHasError (t.fileId row.composite) hasError) = t.putRow { row with hasError } := by
  have others : ∀ x ∈ t.files, x.composite ≠ row.composite → x.id ≠ t.fileId row.composite :=
    fun x mem other => sound.fileId_ne mem other
  unfold Tables.setHasError Tables.putRow
  unfold Tables.fileId at others ⊢
  dsimp only
  cases found : t.fileWith row.composite with
  | some old =>
    rw [found] at others
    dsimp only at others ⊢
    rw [List.map_map]
    congr 1
    apply List.map_congr_left
    intro x mem
    rw [Function.comp_apply]
    by_cases own : x.composite = row.composite
    · rw [if_pos own, if_pos rfl, if_pos own]
    · rw [if_neg own, if_neg (others x mem own), if_neg own]
  | none =>
    rw [found] at others
    dsimp only at others ⊢
    rw [List.map_append, List.map_singleton, if_pos rfl]
    congr 2
    refine (List.map_congr_left fun x mem => ?_).trans (List.map_id _)
    refine if_neg (others x mem fun same => ?_)
    rw [sound.fileWith_iff.mpr ⟨mem, same⟩] at found
    cases found

variable (row) in
lemma SoundFiles.catalogFile_eq (sound : SoundFiles t) (tags : List (String × String)) (effKey : String)
    (hasError : Bool) :
    ((((t.putRow row).deleteEmbedded (t.fileId row.composite)).addTags (t.fileId row.composite) tags).setHasError
        (t.fileId row.composite) hasError).deleteFailure effKey =
      t.catalogFile { row with hasError } tags effKey := by
  obtain ⟨-, -, embedded, -, failures, -⟩ := @putRow_frame t row
  have same : (t.putRow row).setHasError (t.fileId row.composite) hasError = t.putRow { row with hasError } :=
    sound.setHasError_putRow
  unfold Tables.catalogFile
  rw [← same]
  simp only [Tables.setHasError, Tables.deleteFailure, Tables.deleteEmbedded, Tables.addTags, embedded, failures]

lemma catalogFile_frame {tags : List (String × String)} {effKey : String} :
    (t.catalogFile row tags effKey).dict = t.dict ∧ (t.catalogFile row tags effKey).members = t.members :=
  ⟨(@putRow_frame t row).1, (@putRow_frame t row).2.1⟩

lemma SoundFiles.mono {t' : Tables} (sound : SoundFiles t) (grows : Grows t t') : SoundFiles t' := by
  refine ⟨?_, ?_, ?_, ?_⟩
  · rw [grows.files]
    exact sound.ids
  · rw [grows.files]
    exact sound.composites
  · rw [grows.files]
    intro row mem
    obtain ⟨dims, clean, named⟩ := sound.named row mem
    exact ⟨dims, clean, grows.compositeOf named⟩
  · rw [grows.files]
    exact fun row mem => grows.has (sound.sets row mem)

/-! ## The catalog as a map -/

lemma compositeOf_congr {t' : Tables} (dict : t'.dict = t.dict) : t'.compositeOf = t.compositeOf := by
  unfold Tables.compositeOf Tables.names
  rw [dict]

lemma mem_deleteFiles : row ∈ (t.deleteFiles p).files ↔ row ∈ t.files ∧ p row = false := by
  unfold Tables.deleteFiles
  rw [List.mem_filter, Bool.not_eq_true']

lemma SoundFiles.of_sublist {t' : Tables} (sound : SoundFiles t) (dict : t'.dict = t.dict)
    (fewer : t'.files.Sublist t.files) : SoundFiles t' := by
  refine ⟨sound.ids.sublist (fewer.map _), sound.composites.sublist (fewer.map _), ?_, ?_⟩
  · intro row mem
    rw [compositeOf_congr dict]
    exact sound.named row (fewer.subset mem)
  · intro row mem
    unfold Tables.has
    rw [dict]
    exact sound.sets row (fewer.subset mem)

lemma SoundFiles.catalogFile {tags : List (String × String)} {effKey : String} (sound : SoundFiles t)
    (clean : dims.Clean) (named : t.compositeOf dims = some row.composite)
    (set : t.has .topicSet row.topicSetId = true) : SoundFiles (t.catalogFile row tags effKey) :=
  (sound.putRow clean named set).of_sublist rfl (List.Sublist.refl _)

lemma SoundFiles.fileOf_catalogFile {tags : List (String × String)} {effKey : String} (sound : SoundFiles t)
    (names : SoundNames cfg t) (clean : dims.Clean) (named : t.compositeOf dims = some row.composite)
    (set : t.has .topicSet row.topicSetId = true) :
    (t.catalogFile row tags effKey).fileOf dims' =
      if dims' = dims then some { row with id := t.fileId row.composite } else t.fileOf dims' := by
  apply Option.ext
  intro x
  rw [(sound.catalogFile clean named set).fileOf_iff, compositeOf_congr catalogFile_frame.1]
  show x ∈ (t.putRow row).files ∧ t.compositeOf dims' = some x.composite ↔ _
  rw [mem_putRow sound]
  split
  · rename_i same
    subst same
    constructor
    · rintro ⟨rfl | ⟨-, other⟩, own⟩
      · rfl
      · rw [named] at own
        exact absurd (Option.some.inj own).symm other
    · intro found
      cases found
      exact ⟨.inl rfl, named⟩
  · rename_i differ
    rw [sound.fileOf_iff]
    constructor
    · rintro ⟨rfl | ⟨mem, -⟩, own⟩
      · exact absurd (names.compositeOf_inj own named) differ
      · exact ⟨mem, own⟩
    · rintro ⟨mem, own⟩
      refine ⟨.inr ⟨mem, ?_⟩, own⟩
      intro same
      rw [same] at own
      exact differ (names.compositeOf_inj own named)

end PjCloud.Builder
