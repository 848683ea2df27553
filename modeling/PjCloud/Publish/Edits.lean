import PjCloud.Builder.History
import PjCloud.Publish.Swap

/-!
# What a publication keeps

The ids of files are given anew in every build, so the edits of the served catalog are found again by the six
names of their files. A publication that returns has just the edits whose files are there again, and a greater
build id. One that raises leaves the served catalog as it is; it leaves nothing of the temporary one, unless that
could not be opened, which is done in front of the `try` that cleans up.
-/

namespace PjCloud.Publish
open Lib Builder
variable {cfg : PublishSetup} {w w' : PublishWorld} {t : Tables} {α : Type} {build : Prog α} {dims : Dims}
  {old : List NamedOverride}

/-! ## Carried rows -/

/-- There is a file with these names. -/
def HasFileNamed (t : Tables) (dims : Dims) : Prop := ∃ row ∈ t.files, Reader.joinDims t row = some dims

def carriedRow (t : Tables) (x : NamedOverride) : Option OverrideTag :=
  (lookupFileId x.dims t).map fun id => ⟨id, x.key, x.value, x.updatedAt⟩

def carry (t : Tables) (old : List NamedOverride) : Tables :=
  { t with tagsOverride := t.tagsOverride ++ old.filterMap (carriedRow t) }

lemma lookup_isSome : (lookupFileId dims t).isSome = true ↔ HasFileNamed t dims := by
  unfold lookupFileId HasFileNamed
  rw [Option.isSome_map, List.find?_isSome]
  simp only [decide_eq_true_eq]

lemma name_carriedRow (ids : (t.files.map FileRow.id).Nodup) (x : NamedOverride) :
    (carriedRow t x).bind (nameOverride t) = Option.guard (fun x => (lookupFileId x.dims t).isSome) x := by
  unfold carriedRow lookupFileId Option.guard
  cases found : t.files.find? fun row => Reader.joinDims t row = some x.dims with
  | none => simp [found]
  | some row =>
    have mem := List.mem_of_find?_eq_some found
    have joined : Reader.joinDims t row = some x.dims := by simpa using List.find?_some found
    have byId : t.files.find? (fun other => other.id = row.id) = some row := by
      cases again : t.files.find? fun other => other.id = row.id with
      | none =>
        have none := List.find?_eq_none.mp again row mem
        exact absurd (decide_eq_true rfl) none
      | some other =>
        have same : other.id = row.id := by simpa using List.find?_some again
        rw [List.inj_on_of_nodup_map ids (List.mem_of_find?_eq_some again) mem same]
    have named : nameOverride t ⟨row.id, x.key, x.value, x.updatedAt⟩ = some x := by
      unfold nameOverride
      rw [byId]
      change (Reader.joinDims t row).bind _ = _
      rw [joined]
      rfl
    simp only [found, Option.map_some, Option.bind_some, named, Option.isSome_some, if_true]

lemma mem_named_carry (ids : (t.files.map FileRow.id).Nodup) (noEdits : t.tagsOverride = []) (x : NamedOverride) :
    x ∈ namedOverrides (carry t old) ↔ x ∈ old ∧ HasFileNamed (carry t old) x.dims := by
  have rows : namedOverrides (carry t old) = old.filter fun x => (lookupFileId x.dims t).isSome := by
    unfold namedOverrides carry
    rw [noEdits, List.nil_append, List.filterMap_filterMap, ← List.filterMap_eq_filter]
    apply List.filterMap_congr
    intro x _
    exact name_carriedRow ids x
  rw [rows, List.mem_filter, lookup_isSome]
  rfl

/-! ## The parts of the build -/

lemma ends_carryRows {v : World} (kept : v.conn.durable = t) {base : Tables} (view : v.conn.view = base) :
    (Eff.each old (carryRow cfg)).Ends
      (fun _ v' => v'.conn.durable = t ∧ v'.conn.view = carry base old) (Keeps t) v := by
  let I (rest : List NamedOverride) (v' : World) : Prop :=
    v'.conn.durable = t ∧ ∃ done, old = done ++ rest ∧ v'.conn.view = carry base done
  have start : I old v := by
    refine ⟨kept, [], rfl, ?_⟩
    rw [view]
    unfold carry
    rw [List.filterMap_nil, List.append_nil]
  refine (Eff.Ends.each start ?_).mono ?_ fun _ _ kept => kept
  · rintro x rest v₁ ⟨kept₁, done, split, view₁⟩
    have next : old = (done ++ [x]) ++ rest := by rw [split, List.append_assoc, List.singleton_append]
    unfold carryRow
    rw [Eff.ends_bind]
    refine ends_query kept₁ ?_
    -- the carried rows change neither the files nor their names
    have same : lookupFileId x.dims v₁.conn.view = lookupFileId x.dims base := by rw [view₁]; rfl
    rw [same]
    cases found : lookupFileId x.dims base with
    | none =>
      refine ⟨kept₁, done ++ [x], next, ?_⟩
      have dropped : carry base (done ++ [x]) = carry base done := by
        simp [carry, carriedRow, found]
      rw [dropped]
      exact view₁
    | some id =>
      refine ends_execute kept₁ ?_
      intro t' inserted
      refine ⟨kept₁, done ++ [x], next, ?_⟩
      change t' = _
      change insertOverride _ v₁.conn.view = _ at inserted
      rw [view₁] at inserted
      unfold insertOverride at inserted
      split at inserted
      · cases inserted
      · split at inserted
        · cases inserted
          simp [carry, carriedRow, found, List.append_assoc]
        · cases inserted
  · rintro _ v₁ ⟨kept₁, done, split, view₁⟩
    rw [List.append_nil] at split
    rw [split]
    exact ⟨kept₁, view₁⟩

/-- The served catalog can be read. -/
structure CanRead (cfg : PublishSetup) (dir : Dir) (old : Tables) : Prop where
  served : dir.served = some ⟨old, true⟩
  floor : cfg.floorFault = none
  overrides : cfg.overridesFault = none

lemma CanRead.readServed {old : Tables} (readable : CanRead cfg w.dir old) {β : Type} {select : Tables → β} :
    readServed cfg.floorFault select w.dir = some (select old) ∧
      Publish.readServed cfg.overridesFault select w.dir = some (select old) := by
  unfold Publish.readServed
  rw [readable.served, readable.floor, readable.overrides]
  exact ⟨rfl, rfl⟩

/-- Nothing is said of what is raised. -/
def Whatever (_ : PublishError) (_ : PublishWorld) : Prop := True

lemma ends_carryForward {old : Tables} (readable : CanRead cfg w.dir old) :
    (carryForward cfg).Ends
      (fun _ w' => w'.temp.conn.view = carry w.temp.conn.view (namedOverrides old)) Whatever w := by
  unfold carryForward
  rw [Eff.ends_bind, Eff.ends_gets, readable.readServed.2, Option.getD_some]
  split
  · rename_i none
    rw [none, Eff.ends_pure, carry, List.filterMap_nil, List.append_nil]
  · rw [ends_onTemp]
    refine (ends_withConn (Q := fun _ v => v.conn.view = carry w.temp.conn.view (namedOverrides old))
      ((ends_carryRows rfl rfl).mono ?_ fun _ _ kept => kept)).mono (fun _ _ h => h) fun _ _ _ => trivial
    rintro _ v ⟨kept, view⟩
    exact ⟨kept, view⟩

lemma ends_stamped :
    (ensureBuildStamped cfg).Ends
      (fun _ w' => w'.temp.conn.view = w.temp.conn.view ∧
        ∃ b, w.temp.conn.view.build = some b ∧ b.lastBuildNs ≠ 0) Whatever w := by
  unfold ensureBuildStamped
  rw [Eff.ends_bind, ends_onTemp]
  refine (ends_query rfl ?_).mono (fun _ _ h => h) fun _ _ _ => trivial
  split
  · trivial
  · rename_i stamped
    refine ⟨rfl, ?_⟩
    cases row : w.temp.conn.view.build with
    | none => exact absurd (.inl (by rw [row]; rfl)) stamped
    | some b => exact ⟨b, rfl, fun zero => stamped (.inr (by rw [row, Option.map_some, zero]))⟩

def seeded (old : Tables) : Option Build := old.build.map fun b => ⟨b.buildId, 0, 0, 0, "seeded"⟩

/-- A database in which there is at most the row of a build. -/
structure Starts (cfg : Setup) (floor : Option Build) (v : World) : Prop where
  settled : Settled cfg v
  tables : v.conn.durable = { build := floor }

lemma ends_loadTempCaches (empty : w.temp.conn = {}) :
    (loadTempCaches cfg).Ends (fun _ w' => Starts cfg.builder none w'.temp) Whatever w := by
  have fresh : Fresh { w.temp with caches := fun _ _ => none } := ⟨empty, rfl⟩
  have idle : w.temp.conn.txn = none := by rw [empty]
  have durable : w.temp.conn.durable = {} := by rw [empty]
  obtain ⟨-, names, files, -⟩ : Settled cfg.builder { w.temp with caches := fun _ _ => none } := fresh.settled
  rw [durable] at names files
  unfold loadTempCaches
  rw [ends_onTemp, Eff.ends_bind]
  refine (ends_loadCaches idle durable names).mono ?_ fun _ _ _ => trivial
  rintro caches v ⟨read, kept, idle'⟩
  rw [Eff.ends_modify]
  refine ⟨⟨idle', ?_, ?_, ?_⟩, kept⟩
  · rw [kept]
    exact names
  · rw [kept]
    exact files
  · rw [kept]
    exact read

lemma ends_seedFloor {old : Tables} (readable : CanRead cfg w.dir old) (start : Starts cfg.builder none w.temp) :
    (seedFloor cfg).Ends (fun _ w' => Starts cfg.builder (seeded old) w'.temp) Whatever w := by
  unfold seedFloor readOldBuildId
  rw [Eff.ends_bind, Eff.ends_gets, readable.readServed.1, Option.join_some]
  unfold seeded
  cases old.build with
  | none => exact start
  | some b =>
    dsimp only [Option.map_some]
    unfold seedBuildIdFloor
    rw [ends_onTemp, Eff.ends_bind]
    refine (ends_execute rfl ?_).mono (fun _ _ h => h) fun _ _ _ => trivial
    rintro _ ⟨⟩
    refine (ends_commit rfl ?_).mono (fun _ _ h => h) fun _ _ _ => trivial
    have view : w.temp.conn.view = { build := none } := (view_idle start.settled.idle).trans start.tables
    have durable : seedBuild b.buildId w.temp.conn.view = { build := some ⟨b.buildId, 0, 0, 0, "seeded"⟩ } := by
      rw [view]
      rfl
    refine ⟨Settled.of_sublist start.settled.names start.settled.files ?_ ?_ ?_ rfl start.settled.caches, durable⟩
    · change (seedBuild b.buildId w.temp.conn.view).dict = _
      rw [durable, start.tables]
    · change (seedBuild b.buildId w.temp.conn.view).members = _
      rw [durable, start.tables]
    · change (seedBuild b.buildId w.temp.conn.view).files.Sublist _
      rw [durable, start.tables]

/-- What a build has left that started with the row of a build. -/
structure BuiltOn (floor : Option Build) (t : Tables) : Prop where
  ids : (t.files.map FileRow.id).Nodup
  noEdits : t.tagsOverride = []
  stamp : ∀ b b', floor = some b → t.build = some b' → b'.lastBuildNs ≠ 0 → b.buildId < b'.buildId

/-- What is asked of `build_fn`: SQLite keeps the ids of files distinct, the edits of users are not written by a
build, and a build that is stamped is stamped by `record_build`. -/
def Builds (cfg : Setup) (build : Prog α) : Prop :=
  ∀ v floor, Starts cfg floor v → build.Ends (fun _ v' => BuiltOn floor v'.conn.view) Anyhow v

/-- What a catalog has of the one that it takes the place of. -/
structure Kept (old new : Tables) : Prop where
  edits : ∀ x, x ∈ namedOverrides new ↔ x ∈ namedOverrides old ∧ HasFileNamed new x.dims
  newer : ∀ b, old.build = some b → ∃ b', new.build = some b' ∧ b.buildId < b'.buildId

lemma BuiltOn.kept {old : Tables} {b : Build} (built : BuiltOn (seeded old) t) (row : t.build = some b)
    (stamped : b.lastBuildNs ≠ 0) : Kept old (carry t (namedOverrides old)) := by
  refine ⟨mem_named_carry built.ids built.noEdits, ?_⟩
  intro b₀ own
  refine ⟨b, row, built.stamp ⟨b₀.buildId, 0, 0, 0, "seeded"⟩ b ?_ row stamped⟩
  rw [seeded, own, Option.map_some]

lemma CanRead.congr {dir dir' : Dir} {old : Tables} (readable : CanRead cfg dir old)
    (same : dir'.served = dir.served) : CanRead cfg dir' old :=
  ⟨same.trans readable.served, readable.floor, readable.overrides⟩

lemma CanRead.after {old : Tables} (readable : CanRead cfg w.dir old) (only : OnlyTemp w w') :
    CanRead cfg w'.dir old :=
  readable.congr (by rw [only.dir])

lemma kept_buildTemp {old : Tables} (builds : Builds cfg.builder build) (readable : CanRead cfg w.dir old)
    (empty : w.temp.conn = {}) :
    (buildTemp cfg build).Ends (fun _ w' => Kept old w'.temp.conn.view) Whatever w := by
  unfold buildTemp
  rw [Eff.ends_bind]
  refine ((ends_loadTempCaches empty).and onlyTemp_program).mono ?_ fun _ _ _ => trivial
  rintro _ w₁ ⟨start, only₁⟩
  have readable₁ := readable.after only₁
  rw [Eff.ends_bind]
  refine ((ends_seedFloor readable₁ start).and onlyTemp_seedFloor).mono ?_ fun _ _ _ => trivial
  rintro _ w₂ ⟨starts, only₂⟩
  have readable₂ := readable₁.after only₂
  rw [Eff.ends_bind]
  have built : (onTemp build).Ends (fun _ w' => BuiltOn (seeded old) w'.temp.conn.view) Whatever w₂ := by
    rw [ends_onTemp]
    exact (builds _ _ starts).mono (fun _ _ h => h) fun _ _ _ => trivial
  refine (built.and onlyTemp_program).mono ?_ fun _ _ _ => trivial
  rintro result w₃ ⟨built, only₃⟩
  have readable₃ := readable₂.after only₃
  rw [Eff.ends_bind]
  refine (ends_stamped.and onlyTemp_stamped).mono ?_ fun _ _ _ => trivial
  rintro _ w₄ ⟨⟨view₄, b, row, stamped⟩, only₄⟩
  rw [Eff.ends_bind]
  refine (ends_carryForward (readable₃.after only₄)).mono ?_ fun _ _ _ => trivial
  intro _ w₅ view₅
  have kept : Kept old w₅.temp.conn.view := by
    rw [view₅, view₄]
    exact built.kept row stamped
  unfold checkpointTemp
  rw [Eff.ends_bind, Eff.ends_bind, Eff.ends_gets]
  split
  · trivial
  · split
    · trivial
    · exact kept

/-! ## The directory -/

/-- The swap puts the temporary database at the served path, or leaves that alone and removes the temporary
one. -/
lemma ends_swapDir {row : Checkpoint} :
    (swap cfg row).Ends (fun _ w' => w'.dir.served = some ⟨w.temp.conn.durable, true⟩)
      (fun _ w' => w'.dir = ⟨w.dir.served, .gone⟩) w := by
  unfold swap gateServed replaceServed removeServedSidecars logOp
  split
  · rw [Eff.ends_bind, Eff.ends_modify, Eff.ends_bind, Eff.ends_bind, Eff.ends_gets]
    split
    · rw [Eff.ends_bind, Eff.ends_attempt]
      refine (ends_gate true).mono ?_ ?_
      · rintro _ w₁ ⟨polled, -, -⟩
        simp only [Eff.ends_pure, Eff.ends_bind, Eff.ends_modify, polled.temp]
      · rintro e w₁ ⟨waited, ⟨-, exn, rfl⟩ | ⟨-, text, rfl⟩⟩
        · simp only [Eff.ends_bind, Eff.ends_modify, waited.temp]
        · change Dir.mk w₁.dir.served .gone = _
          rw [waited.dir]
    · rfl
  · rfl

variable (cfg) in
/-- A failure to open the temporary database leaves files of it. -/
def OpenLeaves : Prop := ∃ fault, cfg.openFault = some fault ∧ fault.left ≠ .gone

/-- A publication that returns has kept the edits whose files are there again and has a greater build id. One
that raises leaves the served catalog; something of the temporary one is left just when that failed to open with
files already there. -/
theorem rebuild_keeps_edits (build : Prog α) (w : PublishWorld) :
    (buildAndPublish cfg build).Ends
      (fun _ w' => Builds cfg.builder build → ∀ old, CanRead cfg w.dir old →
        ∃ new, w'.dir.served = some ⟨new, true⟩ ∧ Kept old new)
      (fun _ w' => w'.dir.served = w.dir.served ∧ (w'.dir.temp = .gone ↔ ¬ OpenLeaves cfg)) w := by
  unfold buildAndPublish cleanupTemp setTempFiles openDb
  rw [Eff.ends_bind, Eff.ends_modify, Eff.ends_bind]
  cases fault : cfg.openFault with
  | some fault' =>
    refine ⟨rfl, ?_⟩
    have leaves : OpenLeaves cfg ↔ fault'.left ≠ .gone := by
      unfold OpenLeaves
      rw [fault]
      simp
    rw [leaves, not_not]
  | none =>
    have clean : ¬ OpenLeaves cfg := by
      rintro ⟨fault', own, -⟩
      rw [fault] at own
      cases own
    dsimp only
    unfold setTempFiles
    rw [Eff.ends_bind, Eff.ends_modify, Eff.ends_modify, Eff.ends_bind, Eff.ends_attempt]
    refine (ends_buildTemp.and Eff.ends_self).mono ?_ ?_
    · rintro ⟨result, row⟩ w₁ ⟨⟨dir, -, idle⟩, ran⟩
      unfold closeTemp
      rw [Eff.ends_bind, Eff.ends_modify]
      dsimp only
      rw [Eff.ends_bind]
      refine ends_swapDir.mono ?_ ?_
      · intro _ w₂ served builds old readable
        refine ⟨w₁.temp.conn.durable, served, ?_⟩
        rw [← view_idle idle]
        have opened : CanRead cfg w.opened.dir old := readable.congr rfl
        exact (kept_buildTemp (w := w.opened) builds opened rfl).ok ran
      · intro e w₂ left
        rw [left]
        refine ⟨?_, fun _ => clean, fun _ => rfl⟩
        change w₁.dir.served = _
        rw [dir]
    · rintro e w₁ ⟨only, -⟩
      refine ⟨?_, fun _ => clean, fun _ => rfl⟩
      change w₁.dir.served = _
      rw [only.dir]

/-! ## A build -/

lemma handled_frame {cfg : Setup} {key : String} {t t' : Tables} {result : CatalogResult}
    (handled : Handled cfg key t t' result) (noEdits : t.tagsOverride = []) :
    t'.tagsOverride = [] ∧ t'.build = t.build := by
  have failure : ∀ {t : Tables} {failure : Failure}, (t.upsertFailure failure).tagsOverride = t.tagsOverride ∧
      (t.upsertFailure failure).build = t.build := by
    intro t failure
    unfold Tables.upsertFailure
    split <;> exact ⟨rfl, rfl⟩
  have quarantined : ∀ {t t' : Tables} {c : Composite} {effKey text : String}, t.tagsOverride = [] →
      Quarantined t c effKey text t' → t'.tagsOverride = [] ∧ t'.build = t.build := by
    rintro t _ c effKey text noEdits ⟨now, rfl⟩
    refine ⟨failure.1.trans ?_, failure.2⟩
    unfold Tables.deleteFiles
    rw [noEdits]
    rfl
  cases handled with
  | vanished same =>
    rw [same]
    exact ⟨noEdits, rfl⟩
  | unparseable now same =>
    rw [same]
    exact ⟨failure.1.trans noEdits, failure.2⟩
  | skipped grows => exact ⟨grows.tagsOverride.trans noEdits, grows.build⟩
  | unreadable e _ grows _ gone =>
    obtain ⟨edits, build⟩ := quarantined (grows.tagsOverride.trans noEdits) gone
    exact ⟨edits, build.trans grows.build⟩
  | wrote _ grows _ _ wrote =>
    have start := grows.tagsOverride.trans noEdits
    cases wrote with
    | failed e gone =>
      obtain ⟨edits, build⟩ := quarantined start gone
      exact ⟨edits, build.trans grows.build⟩
    | cataloged cataloged =>
      obtain ⟨t₁, row, more, -, -, -, -, rfl⟩ := cataloged
      obtain ⟨-, -, -, edits, -, build⟩ := @putRow_frame t₁ row
      exact ⟨edits.trans (more.tagsOverride.trans start), build.trans (more.build.trans grows.build)⟩

/-- Objects are cataloged one by one, and the build is stamped. -/
def catalogAndStamp (cfg : Setup) (keys : List String) : Prog Unit := do
  Eff.each keys fun key => do
    let _ ← catalogObject cfg key none
    pure ()
  recordBuild cfg keys.length 0 "ok"

lemma builds_catalogAndStamp {cfg : Setup} {keys : List String} (free : CollisionFree cfg) :
    Builds cfg (catalogAndStamp cfg keys) := by
  intro v floor start
  let I (_ : List String) (v' : World) : Prop :=
    Settled cfg v' ∧ v'.conn.durable.tagsOverride = [] ∧ v'.conn.durable.build = floor
  have first : I keys v := ⟨start.settled, by rw [start.tables], by rw [start.tables]⟩
  unfold catalogAndStamp
  rw [Eff.ends_bind]
  refine (Eff.Ends.each first ?_).mono ?_ fun _ _ h => h
  · rintro key rest v₁ ⟨settled, noEdits, own⟩
    rw [Eff.ends_bind]
    refine (ends_catalogObject free settled).mono ?_ fun _ _ h => h
    rintro result v₂ ⟨settled₂, handled⟩
    obtain ⟨edits, build⟩ := handled_frame handled noEdits
    exact ⟨settled₂, edits, build.trans own⟩
  · rintro _ v₁ ⟨settled, noEdits, own⟩
    unfold recordBuild
    rw [Eff.ends_bind]
    apply ends_nowNs
    rw [Eff.ends_bind]
    refine (ends_execute rfl ?_).mono (fun _ _ h => h) fun _ _ _ => trivial
    rintro _ ⟨⟩
    refine (ends_commit rfl ?_).mono (fun _ _ h => h) fun _ _ _ => trivial
    rw [view_idle settled.idle]
    change BuiltOn floor (v₁.conn.durable.upsertBuild _)
    unfold Tables.upsertBuild
    rw [own]
    cases floor with
    | none => exact ⟨settled.files.ids, noEdits, by rintro b b' ⟨⟩⟩
    | some b =>
      refine ⟨settled.files.ids, noEdits, ?_⟩
      rintro _ _ ⟨⟩ ⟨⟩ _
      exact Nat.lt_succ_self _

def otherKey : String := "customer=a/customer_site=b/robot=c/source=d/date=e/g.mcap"

def quietPublish : PublishSetup := calmPublish fun _ => .ok ⟨0, 0, 0⟩

/-- The served catalog has two files, with an edit of each. That of the second is a mask. -/
def smallOld : Tables :=
  let both : World := { bucket := fun _ => (Reader.smallBucket otherKey).bucket otherKey }
  { (catalogAndStamp quietPublish.builder [otherKey, Reader.smallKey] both).2.conn.durable with
    tagsOverride := [⟨1, "k", some "v", 4⟩, ⟨2, "k", none, 5⟩] }

def smallPublish : PublishWorld := { servedWorld smallOld with temp := Reader.smallBucket Reader.smallKey }

def smallRebuild : Prog Unit := catalogAndStamp quietPublish.builder [Reader.smallKey]

def smallPublished : PublishWorld := (buildAndPublish quietPublish smallRebuild smallPublish).2

lemma smallPublished_eq : buildAndPublish quietPublish smallRebuild smallPublish = (.ok (), smallPublished) :=
  Prod.ext (by decide +kernel) (by rw [smallPublished])

/-- The mask of the file that is there again is kept, under the id that it has now; the other edit is dropped. -/
theorem small_rebuild_keeps :
    Builds quietPublish.builder smallRebuild ∧ CanRead quietPublish smallPublish.dir smallOld ∧
    smallOld.files.map FileRow.id = [1, 2] ∧
    (∃ new, smallPublished.dir.served = some ⟨new, true⟩ ∧ Kept smallOld new) ∧
    smallPublished.dir.served.map (fun served => served.tables.tagsOverride) = some [⟨1, "k", none, 5⟩] := by
  have builds : Builds quietPublish.builder smallRebuild := builds_catalogAndStamp calmSetup_free
  have readable : CanRead quietPublish smallPublish.dir smallOld := ⟨rfl, rfl, rfl⟩
  refine ⟨builds, readable, by decide +kernel, ?_, by decide +kernel⟩
  exact (rebuild_keeps_edits smallRebuild smallPublish).ok smallPublished_eq builds smallOld readable

/-- The temporary database is created, and a statement of its set-up raises. -/
theorem open_leaves_files :
    let cfg := { quietPublish with
      openFault := some ⟨.error "OperationalError" "disk I/O error", ⟨true, true, true⟩⟩ }
    (buildAndPublish cfg stampOnly (servedWorld {})).1 =
        .error (.raised (.error "OperationalError" "disk I/O error")) ∧
      (buildAndPublish cfg stampOnly (servedWorld {})).2.dir.temp = ⟨true, true, true⟩ := by
  exact ⟨by decide +kernel, by decide +kernel⟩

end PjCloud.Publish
