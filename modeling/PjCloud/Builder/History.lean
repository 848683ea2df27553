import PjCloud.Builder.Calls

/-!
# Histories of the catalog

A run of the writer from an empty catalog: files are written or quarantined under the ids that were resolved for
them, and deleted by key. Whatever was rolled back in between, each file that is cataloged has the topics of the
summary that it was last cataloged with (`Runs.layouts`).
-/

namespace PjCloud.Builder
open Lib
variable {cfg : Setup} {t t' : Tables} {w w' : World} {dims : Dims} {effKey key text : String} {stat : Stat}
  {summary : FileSummary} {c : Composite} {result : CatalogResult} {last : Dims → Option FileSummary}

/-- The catalog is empty. -/
structure Fresh (w : World) : Prop where
  conn : w.conn = {}
  caches : w.caches = fun _ _ => none

/-- The summary that each file was last cataloged with. -/
def catalogWith (dims : Dims) (summary : FileSummary) (result : CatalogResult)
    (last : Dims → Option FileSummary) : Dims → Option FileSummary :=
  match result with
  | .cataloged => Function.update last dims (some summary)
  | _ => last

/-- The runs of the writer. Between the ids and the row of a file the object is read. -/
inductive Runs (cfg : Setup) : World → (Dims → Option FileSummary) → Prop
  | start {w : World} : Fresh w → Runs cfg w fun _ => none
  | file {w w₁ w₂ w' : World} {last : Dims → Option FileSummary} {dims : Dims} {effKey : String} {ids : Ids}
      {stat : Stat} {summary : FileSummary} {result : CatalogResult} : Runs cfg w last →
      parseHiveKey effKey = some dims → resolveIds cfg dims w = (.ok ids, w₁) → Beside w₁ w₂ →
      writeFileRow cfg dims effKey ids stat summary w₂ = (.ok result, w') →
      Runs cfg w' (catalogWith dims summary result last)
  | quarantine {w w₁ w₂ w' : World} {last : Dims → Option FileSummary} {dims : Dims} {effKey text : String}
      {ids : Ids} : Runs cfg w last → parseHiveKey effKey = some dims →
      resolveIds cfg dims w = (.ok ids, w₁) → Beside w₁ w₂ →
      quarantineExisting cfg ids dims effKey text w₂ = (.ok (), w') → Runs cfg w' last
  | delete {w w' : World} {last : Dims → Option FileSummary} {key : String} {found : Bool} : Runs cfg w last →
      deleteByKey cfg key w = (.ok found, w') → Runs cfg w' last

/-- Each file has the topics of its summary. -/
def Layouts (t : Tables) (last : Dims → Option FileSummary) : Prop :=
  ∀ dims row, t.fileOf dims = some row → ∃ summary, last dims = some summary ∧ Laid t row summary

lemma Fresh.settled (fresh : Fresh w) : Settled cfg w := by
  have durable : w.conn.durable = {} := by rw [fresh.conn]
  refine ⟨by rw [fresh.conn], ?_, ?_, ?_⟩
  · rw [durable]
    exact ⟨fun d => ⟨List.nodup_nil, List.nodup_nil⟩, fun d row mem => absurd mem List.not_mem_nil, List.nodup_nil,
      fun m mem => absurd mem List.not_mem_nil, fun row mem => absurd mem List.not_mem_nil⟩
  · rw [durable]
    exact ⟨List.nodup_nil, List.nodup_nil, fun row mem => absurd mem List.not_mem_nil,
      fun row mem => absurd mem List.not_mem_nil⟩
  · rw [durable, fresh.caches]
    rfl

/-! ## What each change of the tables keeps -/

lemma Layouts.grows (layouts : Layouts t last) (grows : Grows t t') (files : SoundFiles t)
    (names : SoundNames cfg t') : Layouts t' last := by
  intro dims row found
  rw [grows.fileOf files names] at found
  obtain ⟨summary, own, laid⟩ := layouts dims row found
  exact ⟨summary, own, laid.mono grows⟩

lemma Layouts.of_sublist (layouts : Layouts t last) (files : SoundFiles t) (dict : t'.dict = t.dict)
    (members : t'.members = t.members) (fewer : t'.files.Sublist t.files) : Layouts t' last := by
  intro dims row found
  obtain ⟨mem, named⟩ := (files.of_sublist dict fewer).fileOf_iff.mp found
  rw [compositeOf_congr dict] at named
  obtain ⟨summary, own, laid⟩ := layouts dims row (files.fileOf_iff.mpr ⟨fewer.subset mem, named⟩)
  exact ⟨summary, own, laid.congr dict members rfl rfl⟩

lemma Layouts.quarantined (layouts : Layouts t last) (files : SoundFiles t)
    (gone : Quarantined t c effKey text t') : Layouts t' last := by
  obtain ⟨now, rfl⟩ := gone
  obtain ⟨dict, members, rows⟩ :=
    @upsertFailure_frame (t.deleteFiles fun row => row.composite = c) ⟨effKey, now, text⟩
  refine layouts.of_sublist files dict members ?_
  rw [rows]
  exact List.filter_sublist

lemma Layouts.cataloged (layouts : Layouts t last) (files : SoundFiles t) (clean : dims.Clean)
    (named : t.compositeOf dims = some c) (cataloged : Cataloged cfg t c effKey stat summary t') :
    Layouts t' (Function.update last dims (some summary)) := by
  obtain ⟨t₁, row, grows, names, composite, -, laid, rfl⟩ := cataloged
  have files₁ := files.mono grows
  have named₁ : t₁.compositeOf dims = some row.composite := by
    rw [composite]
    exact grows.compositeOf named
  intro dims' row' found
  rw [files₁.fileOf_catalogFile names clean named₁ laid.set] at found
  split at found
  · rename_i same
    subst same
    cases found
    exact ⟨summary, Function.update_self .., laid.congr catalogFile_frame.1 catalogFile_frame.2 rfl rfl⟩
  · rename_i other
    obtain ⟨summary', own, laid'⟩ := (layouts.grows grows files names) dims' row' found
    exact ⟨summary', (Function.update_of_ne other ..).trans own,
      laid'.congr catalogFile_frame.1 catalogFile_frame.2 rfl rfl⟩

lemma Layouts.wrote (layouts : Layouts t last) (files : SoundFiles t) (clean : dims.Clean)
    (named : t.compositeOf dims = some c) (wrote : Wrote cfg t c effKey stat summary t' result) :
    Layouts t' (catalogWith dims summary result last) := by
  cases wrote with
  | cataloged cataloged => exact layouts.cataloged files clean named cataloged
  | failed e gone => exact layouts.quarantined files gone

lemma Layouts.deleted {found : Bool} (layouts : Layouts t last) (files : SoundFiles t)
    (deleted : Deleted t key t' found) : Layouts t' last := by
  cases deleted with
  | unknown _ same =>
    rw [same]
    exact layouts
  | gone _ _ same =>
    rw [same]
    exact layouts.of_sublist files rfl rfl List.filter_sublist

/-! ## A whole run -/

lemma resolved_beside {ids : Ids} {w₁ w₂ : World} (settled : Settled cfg w)
    (layouts : Layouts w.conn.durable last) (resolved : resolveIds cfg dims w = (.ok ids, w₁))
    (beside : Beside w₁ w₂) : Settled cfg w₂ ∧ Layouts w₂.conn.durable last ∧
      w₂.conn.durable.compositeOf dims = some (ids.composite dims) := by
  obtain ⟨settled₁, grows, named⟩ := (ends_resolveIds settled).ok resolved
  refine ⟨settled₁.beside beside, ?_, ?_⟩
  · rw [beside.conn]
    exact layouts.grows grows settled.files settled₁.names
  · rw [beside.conn]
    exact named

lemma Runs.layouts (free : CollisionFree cfg) (runs : Runs cfg w last) :
    Settled cfg w ∧ Layouts w.conn.durable last := by
  induction runs with
  | start fresh =>
    refine ⟨fresh.settled, ?_⟩
    intro dims row found
    have settled : Settled cfg _ := fresh.settled
    have mem := settled.files.fileOf_iff.mp found
    rw [fresh.conn] at mem
    exact absurd mem.1 List.not_mem_nil
  | file _ parsed resolved beside wrote ih =>
    obtain ⟨settled, layouts⟩ := ih
    obtain ⟨settled₂, layouts₂, named⟩ := resolved_beside settled layouts resolved beside
    have clean := clean_of_parse parsed
    obtain ⟨settled', wrote⟩ := (ends_writeFileRow free settled₂ clean named).ok wrote
    exact ⟨settled', layouts₂.wrote settled₂.files clean named wrote⟩
  | quarantine _ parsed resolved beside done ih =>
    obtain ⟨settled, layouts⟩ := ih
    obtain ⟨settled₂, layouts₂, -⟩ := resolved_beside settled layouts resolved beside
    obtain ⟨idle, caches, gone⟩ := (ends_quarantineExisting settled₂.idle rfl).ok done
    exact ⟨gone.settled settled₂.names settled₂.files idle (caches.trans settled₂.caches),
      layouts₂.quarantined settled₂.files gone⟩
  | delete _ done ih =>
    obtain ⟨settled, layouts⟩ := ih
    obtain ⟨settled', deleted⟩ := (ends_deleteByKey settled).ok done
    exact ⟨settled', layouts.deleted settled.files deleted⟩

end PjCloud.Builder
