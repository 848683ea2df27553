import PjCloud.Builder.Transaction

/-!
# The calls of the writer

Between two calls the writer is `Settled`: no transaction is open, the committed tables are sound, and the caches
are their names. Each call that returns leaves it settled, and says what it has done to the committed tables. A
call that raises to its caller is not spoken of here.
-/

namespace PjCloud.Builder
open Lib
variable {cfg : Setup} {t t' t₀ : Tables} {w w' : World} {site : Site} {dims dims' : Dims} {ids : Ids}
  {effKey : String} {stat : Stat} {summary : FileSummary} {row : FileRow} {c : Composite}

/-- Between two calls. -/
structure Settled (cfg : Setup) (w : World) : Prop where
  idle : w.conn.txn = none
  names : SoundNames cfg w.conn.durable
  files : SoundFiles w.conn.durable
  caches : w.caches = w.conn.durable.names

/-- Nothing is said of what is raised. -/
def Anyhow (_ : Exn) (_ : World) : Prop := True

lemma view_idle (idle : w.conn.txn = none) : w.conn.view = w.conn.durable := by
  rw [Conn.view, idle, Option.getD_none]

lemma Settled.within (settled : Settled cfg w) : Within cfg w.conn.durable w := by
  have view := view_idle settled.idle
  refine ⟨rfl, ?_, ?_, ?_⟩
  · rw [view]
    exact .refl
  · rw [view]
    exact settled.names
  · rw [view]
    exact settled.caches

/-- The connection and the caches stay as they are. -/
structure Beside (w w' : World) : Prop where
  conn : w'.conn = w.conn
  caches : w'.caches = w.caches

lemma Beside.trans {w'' : World} (one : Beside w w') (two : Beside w' w'') : Beside w w'' :=
  ⟨two.conn.trans one.conn, two.caches.trans one.caches⟩

lemma Settled.beside (settled : Settled cfg w) (beside : Beside w w') : Settled cfg w' := by
  obtain ⟨conn, caches⟩ := beside
  obtain ⟨idle, names, files, same⟩ := settled
  rw [← conn] at idle names files same
  rw [← caches] at same
  exact ⟨idle, names, files, same⟩

lemma SoundNames.congr (names : SoundNames cfg t) (dict : t'.dict = t.dict) (members : t'.members = t.members) :
    SoundNames cfg t' := by
  have parent : ∀ d key, t'.hasParent d key = t.hasParent d key := by
    intro d key
    cases d <;> simp only [Tables.hasParent, Tables.has, dict]
  refine ⟨?_, ?_, ?_, ?_, ?_⟩
  · rw [dict]
    exact names.dict
  · intro d row mem
    rw [parent]
    rw [dict] at mem
    exact names.parents d row mem
  · rw [members]
    exact names.memberKeys
  · rw [members]
    unfold Tables.has
    rw [dict]
    exact names.memberParents
  · unfold Tables.membersOf
    rw [dict, members]
    exact names.sets

/-! ## The transaction around a body -/

/-- The rule of `with conn:`. -/
lemma ends_withConn {α : Type} {body : Prog α} {Q : α → World → Prop}
    (does : body.Ends (fun a w' => w'.conn.durable = t₀ ∧
      Q a { w' with tick := w'.tick + 1, conn := w'.conn.commit }) (Keeps t₀) w) :
    (withConn cfg site body).Ends Q (fun _ w' => w'.conn.durable = t₀ ∧ w'.conn.txn = none) w := by
  unfold withConn
  rw [Eff.ends_bind, Eff.ends_attempt, Eff.ends_bind]
  refine does.mono ?_ ?_
  · rintro a w' ⟨kept, ok⟩
    rw [Eff.ends_bind]
    refine (ends_commit kept ?_ : (commit cfg site).Ends _ (Keeps t₀) w').mono (fun _ _ h => h) ?_
    · rw [Eff.ends_pure, Eff.ends_pure]
      exact ok
    · intro e w'' kept
      rw [Eff.ends_bind]
      exact ⟨kept, rfl⟩
  · intro e w' kept
    rw [Eff.ends_bind]
    exact ⟨kept, rfl⟩

/-! ## Caches -/

lemma cacheOf_eq {d : Dict} {rows : List (Nat × d.Key)} (dict : Dictionary rows) :
    cacheOf rows = fun key => idOf rows key := by
  unfold cacheOf
  induction rows using List.reverseRecOn with
  | nil => rfl
  | append_singleton rows row ih =>
    have front : Dictionary rows := by
      obtain ⟨ids, keys⟩ := dict
      rw [List.map_append] at ids keys
      exact ⟨ids.of_append_left, keys.of_append_left⟩
    have new : row.2 ∉ rows.map Prod.snd := by
      have keys := dict.keys
      rw [List.map_append] at keys
      exact fun mem => List.disjoint_of_nodup_append keys mem (by simp)
    rw [List.foldl_append, ih front]
    funext key
    dsimp only [List.foldl_cons, List.foldl_nil]
    unfold idOf
    rw [List.find?_append, List.find?_singleton]
    by_cases own : key = row.2
    · subst own
      have none : rows.find? (fun x => x.2 = row.2) = none := Option.map_eq_none_iff.mp (idOf_eq_none.mpr new)
      rw [Function.update_self, none]
      simp
    · rw [Function.update_of_ne own, if_neg (by simpa using Ne.symm own), Option.or_none]

lemma ends_loadCaches (idle : w.conn.txn = none) (kept : w.conn.durable = t₀) (names : SoundNames cfg t₀) :
    (loadCaches cfg site).Ends
      (fun caches w' => caches = t₀.names ∧ w'.conn.durable = t₀ ∧ w'.conn.txn = none) (Keeps t₀) w := by
  unfold loadCaches
  let I (rest : List Dict) (caches : Caches) (w' : World) : Prop :=
    w'.conn.durable = t₀ ∧ w'.conn.txn = none ∧ ∀ d, d ∉ rest → caches d = t₀.names d
  refine (Eff.Ends.fold (I := I) ⟨kept, idle, ?_⟩ ?_).mono ?_ fun _ _ kept => kept
  · intro d out
    exact absurd (by cases d <;> decide : d ∈ Dict.all) out
  · rintro caches d rest s ⟨kept, idle, read⟩
    rw [Eff.ends_bind]
    refine ends_query kept ?_
    rw [Eff.ends_pure]
    refine ⟨kept, idle, ?_⟩
    intro d' out
    rw [view_idle idle, kept]
    by_cases same : d' = d
    · subst same
      rw [Function.update_self, cacheOf_eq (names.dict d')]
      rfl
    · rw [Function.update_of_ne same]
      exact read d' fun mem => (List.mem_cons.mp mem).elim same out
  · rintro caches w' ⟨kept, idle, read⟩
    exact ⟨funext fun d => read d List.not_mem_nil, kept, idle⟩

/-! ## The calls -/

lemma Settled.of_sublist (names : SoundNames cfg t) (files : SoundFiles t)
    (dict : w'.conn.durable.dict = t.dict) (members : w'.conn.durable.members = t.members)
    (fewer : w'.conn.durable.files.Sublist t.files) (idle : w'.conn.txn = none) (caches : w'.caches = t.names) :
    Settled cfg w' := by
  refine ⟨idle, names.congr dict members, files.of_sublist dict fewer, ?_⟩
  rw [caches]
  unfold Tables.names
  rw [dict]

lemma upsertFailure_frame {failure : Failure} : (t.upsertFailure failure).dict = t.dict ∧
    (t.upsertFailure failure).members = t.members ∧ (t.upsertFailure failure).files = t.files := by
  unfold Tables.upsertFailure
  split <;> exact ⟨rfl, rfl, rfl⟩

/-- The tables after a quarantine. -/
def Quarantined (t : Tables) (c : Composite) (effKey text : String) (t' : Tables) : Prop :=
  ∃ now, t' = (t.deleteFiles fun row => row.composite = c).upsertFailure ⟨effKey, now, text⟩

lemma ends_recordFailure {key text : String} {Q : Unit → World → Prop} (kept : w.conn.durable = t₀)
    (ok : Q () { w with
      tick := w.tick + 2
      conn := w.conn.write (w.conn.view.upsertFailure ⟨key, cfg.clock w.tick, text⟩) }) :
    (recordFailure cfg site key text).Ends Q (Keeps t₀) w := by
  unfold recordFailure
  rw [Eff.ends_bind]
  apply ends_nowNs
  refine ends_execute kept ?_
  rintro _ ⟨⟩
  exact ok

lemma ends_quarantineExisting {text : String} (idle : w.conn.txn = none) (kept : w.conn.durable = t₀) :
    (quarantineExisting cfg ids dims effKey text).Ends
      (fun _ w' => w'.conn.txn = none ∧ w'.caches = w.caches ∧
        Quarantined t₀ (ids.composite dims) effKey text w'.conn.durable) (Keeps t₀) w := by
  unfold quarantineExisting
  rw [Eff.ends_bind]
  refine ends_execute kept ?_
  rintro _ ⟨⟩
  rw [Eff.ends_bind]
  refine ends_recordFailure kept ?_
  refine ends_commit kept ?_
  refine ⟨rfl, rfl, cfg.clock (w.tick + 1), ?_⟩
  rw [← kept, ← view_idle idle]
  rfl

lemma Quarantined.settled {text : String} (names : SoundNames cfg t) (files : SoundFiles t)
    (gone : Quarantined t c effKey text w'.conn.durable) (idle : w'.conn.txn = none)
    (caches : w'.caches = t.names) : Settled cfg w' := by
  obtain ⟨now, shape⟩ := gone
  obtain ⟨dict, members, rows⟩ :=
    @upsertFailure_frame (t.deleteFiles fun row => row.composite = c) ⟨effKey, now, text⟩
  rw [← shape] at dict members rows
  refine Settled.of_sublist names files dict members ?_ idle caches
  rw [rows]
  exact List.filter_sublist

lemma ends_resolveIds (settled : Settled cfg w) :
    (resolveIds cfg dims).Ends
      (fun ids w' => Settled cfg w' ∧ Grows w.conn.durable w'.conn.durable ∧
        w'.conn.durable.compositeOf dims = some (ids.composite dims)) (Keeps w.conn.durable) w := by
  unfold resolveIds resolveCustomer resolveSite resolveRobot resolveSource
  rw [Eff.ends_bind]
  refine (ends_resolve settled.within (by decide)).mono ?_ fun _ _ kept => kept
  rintro customer w₁ ⟨within₁, -, customerId⟩
  rw [Eff.ends_bind]
  refine (ends_resolve within₁ (by decide)).mono ?_ fun _ _ kept => kept
  rintro siteId w₂ ⟨within₂, grows₂, siteNumber⟩
  rw [Eff.ends_bind]
  refine (ends_resolve within₂ (by decide)).mono ?_ fun _ _ kept => kept
  rintro robot w₃ ⟨within₃, grows₃, robotNumber⟩
  rw [Eff.ends_bind]
  refine (ends_resolve within₃ (by decide)).mono ?_ fun _ _ kept => kept
  rintro source w₄ ⟨within₄, grows₄, sourceNumber⟩
  rw [Eff.ends_bind]
  refine ends_commit within₄.durable ?_
  rw [Eff.ends_pure]
  refine ⟨⟨rfl, within₄.names, settled.files.mono within₄.grows, within₄.caches⟩, within₄.grows, ?_⟩
  exact compositeIds_eq_some.mpr
    ⟨idOf_of_extends ((grows₂.trans (grows₃.trans grows₄)).dict .customer) customerId,
      idOf_of_extends ((grows₃.trans grows₄).dict .site) siteNumber,
      idOf_of_extends (grows₄.dict .robot) robotNumber, sourceNumber, rfl, rfl⟩

/-- What `_write_file_row` returns, and the tables that it leaves. -/
inductive Wrote (cfg : Setup) (t : Tables) (c : Composite) (effKey : String) (stat : Stat) (summary : FileSummary)
    (t' : Tables) : CatalogResult → Prop
  | cataloged : Cataloged cfg t c effKey stat summary t' → Wrote cfg t c effKey stat summary t' .cataloged
  | failed (e : Exn) : Quarantined t c effKey e.describe t' →
      Wrote cfg t c effKey stat summary t' (.failed e.text)

lemma ends_writeFileRow (free : CollisionFree cfg) (settled : Settled cfg w) (clean : dims.Clean)
    (named : w.conn.durable.compositeOf dims = some (ids.composite dims)) :
    (writeFileRow cfg dims effKey ids stat summary).Ends
      (fun result w' => Settled cfg w' ∧
        Wrote cfg w.conn.durable (ids.composite dims) effKey stat summary w'.conn.durable result)
      (Keeps w.conn.durable) w := by
  unfold writeFileRow
  rw [Eff.ends_bind, Eff.ends_attempt]
  refine Eff.Ends.mono (ends_withConn (Q := fun _ w' => w'.conn.txn = none ∧
    w'.caches = w'.conn.durable.names ∧
    Cataloged cfg w.conn.durable (ids.composite dims) effKey stat summary w'.conn.durable)
    ((ends_fileTransaction free settled.within settled.files).mono ?_ fun _ _ kept => kept)) ?_ ?_
  · rintro _ w' ⟨kept, caches, cataloged⟩
    exact ⟨kept, rfl, caches, cataloged⟩
  · rintro _ w' ⟨idle, caches, cataloged⟩
    rw [Eff.ends_pure]
    refine ⟨?_, .cataloged cataloged⟩
    obtain ⟨t, row, grows, names, composite, etag, laid, shape⟩ := cataloged
    have files := settled.files.mono grows
    refine ⟨idle, ?_, ?_, caches⟩
    · rw [shape]
      exact names.congr catalogFile_frame.1 catalogFile_frame.2
    · rw [shape]
      refine files.catalogFile clean ?_ laid.set
      rw [composite]
      exact grows.compositeOf named
  · rintro e w₁ ⟨kept, idle⟩
    rw [Eff.ends_bind]
    refine (ends_loadCaches idle kept settled.names).mono ?_ fun _ _ kept => kept
    rintro caches w₂ ⟨read, kept₂, idle₂⟩
    rw [Eff.ends_bind, Eff.ends_modify, Eff.ends_bind]
    refine Eff.Ends.mono (ends_quarantineExisting idle₂ kept₂) ?_ fun _ _ kept => kept
    rintro _ w₃ ⟨idle₃, caches₃, gone⟩
    rw [Eff.ends_pure]
    exact ⟨gone.settled settled.names settled.files idle₃ (caches₃.trans read), .failed e gone⟩

/-- What `apply_extract` returns, and the tables that it leaves. -/
inductive Applied (cfg : Setup) (t : Tables) (ex : Extract) (t' : Tables) : CatalogResult → Prop
  | vanished : ex.result = .vanished → t' = t → Applied cfg t ex t' (.failed "vanished")
  | unreadable {text : String} {t₁ : Tables} {c : Composite} : ex.result = .error text → Grows t t₁ →
      SoundNames cfg t₁ → t₁.compositeOf ex.dims = some c → Quarantined t₁ c ex.effKey text t' →
      Applied cfg t ex t' (.failed text)
  | wrote {summary : FileSummary} {t₁ : Tables} {c : Composite} {result : CatalogResult} :
      ex.result = .ready summary → Grows t t₁ → SoundNames cfg t₁ → t₁.compositeOf ex.dims = some c →
      Wrote cfg t₁ c ex.effKey ex.stat summary t' result → Applied cfg t ex t' result

lemma ends_applyExtract {ex : Extract} (free : CollisionFree cfg) (settled : Settled cfg w)
    (clean : ex.dims.Clean) :
    (applyExtract cfg ex).Ends
      (fun result w' => Settled cfg w' ∧ Applied cfg w.conn.durable ex w'.conn.durable result) Anyhow w := by
  unfold applyExtract
  cases outcome : ex.result with
  | vanished =>
    exact ⟨settled, .vanished outcome rfl⟩
  | error text =>
    dsimp only
    rw [Eff.ends_bind]
    refine (ends_resolveIds settled).mono ?_ fun _ _ _ => trivial
    rintro ids w₁ ⟨settled₁, grows, named⟩
    rw [Eff.ends_bind]
    refine (ends_quarantineExisting settled₁.idle rfl).mono ?_ fun _ _ _ => trivial
    rintro _ w₂ ⟨idle₂, caches₂, gone⟩
    rw [Eff.ends_pure]
    exact ⟨gone.settled settled₁.names settled₁.files idle₂ (caches₂.trans settled₁.caches),
      .unreadable outcome grows settled₁.names named gone⟩
  | ready summary =>
    dsimp only
    rw [Eff.ends_bind]
    refine (ends_resolveIds settled).mono ?_ fun _ _ _ => trivial
    rintro ids w₁ ⟨settled₁, grows, named⟩
    refine (ends_writeFileRow free settled₁ clean named).mono ?_ fun _ _ _ => trivial
    rintro result w₂ ⟨settled₂, wrote⟩
    exact ⟨settled₂, .wrote outcome grows settled₁.names named wrote⟩

/-- What `delete_by_key` does to the tables. -/
inductive Deleted (t : Tables) (key : String) (t' : Tables) : Bool → Prop
  | unknown : (∀ dims, parseHiveKey key = some dims → t.compositeOf dims = none) → t' = t → Deleted t key t' false
  | gone {dims : Dims} {c : Composite} : parseHiveKey key = some dims → t.compositeOf dims = some c →
      t' = (t.deleteFiles fun row => row.composite = c).deleteFailure key →
      Deleted t key t' (t.fileWith c).isSome

lemma ends_deleteByKey {key : String} (settled : Settled cfg w) :
    (deleteByKey cfg key).Ends
      (fun found w' => Settled cfg w' ∧ Deleted w.conn.durable key w'.conn.durable found)
      (Keeps w.conn.durable) w := by
  unfold deleteByKey
  cases parsed : parseHiveKey key with
  | none =>
    refine ⟨settled, .unknown (fun dims own => ?_) rfl⟩
    rw [parsed] at own
    cases own
  | some dims =>
    dsimp only
    rw [Eff.ends_bind, Eff.ends_gets, settled.caches]
    cases named : compositeIds w.conn.durable.names dims with
    | none =>
      refine ⟨settled, .unknown (fun dims' own => ?_) rfl⟩
      rw [parsed] at own
      cases own
      exact named
    | some c =>
      dsimp only
      rw [Eff.ends_bind, Eff.ends_gets, view_idle settled.idle, Eff.ends_bind]
      refine ends_execute rfl ?_
      rintro _ ⟨⟩
      rw [Eff.ends_bind]
      refine ends_execute rfl ?_
      rintro _ ⟨⟩
      rw [Eff.ends_bind]
      refine ends_commit rfl ?_
      rw [Eff.ends_pure, view_idle settled.idle]
      refine ⟨Settled.of_sublist settled.names settled.files rfl rfl List.filter_sublist rfl settled.caches,
        .gone parsed named rfl⟩

end PjCloud.Builder
