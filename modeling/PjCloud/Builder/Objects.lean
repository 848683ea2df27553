import PjCloud.Builder.Calls

/-!
# The objects that the writer catalogs

What `catalog_object` returns and leaves in the committed tables, whatever happens in the bucket meanwhile
(`Handled`). Reading an object leaves the connection and the caches alone.
-/

namespace PjCloud.Builder
open Lib
variable {cfg : Setup} {w w' : World} {key effKey : String}

lemma beside_changes {changes : List Change} : Beside w (changes.foldl Change.apply w) := by
  induction changes generalizing w with
  | nil => exact ⟨rfl, rfl⟩
  | cons change changes ih =>
    have one : Beside w (Change.apply w change) := by cases change <;> exact ⟨rfl, rfl⟩
    exact one.trans ih

lemma ends_reach {E : Exn → World → Prop} : (reach cfg).Ends (fun _ => Beside w) E w := by
  have moved : Beside w { w with tick := w.tick + 1 } := ⟨rfl, rfl⟩
  exact moved.trans beside_changes

lemma ends_stat : (Builder.stat cfg key).Ends (fun _ => Beside w) (fun _ => Beside w) w := by
  unfold Builder.stat
  rw [Eff.ends_bind]
  refine ends_reach.mono ?_ fun _ _ h => h
  intro n w₁ beside
  split
  · exact beside
  · exact beside

lemma ends_readSummary {size : Nat} :
    (readSummary cfg key size).Ends (fun _ => Beside w) (fun _ => Beside w) w := by
  have lifted : ∀ {w₁ : World} (r : Except Exn FileSummary), Beside w w₁ →
      (Eff.lift r : Prog FileSummary).Ends (fun _ => Beside w) (fun _ => Beside w) w₁ := by
    intro w₁ r beside
    cases r <;> exact beside
  unfold readSummary
  rw [Eff.ends_bind]
  refine ends_reach.mono ?_ fun _ _ h => h
  intro _ w₁ beside₁
  rw [Eff.ends_bind, Eff.ends_gets, Eff.ends_bind]
  refine (ends_reach (w := w₁)).mono ?_ fun _ _ h => h
  intro n w₂ beside₂
  have beside := beside₁.trans beside₂
  split
  · exact beside
  · split
    · exact lifted _ beside
    · split
      · exact beside
      · split
        · exact lifted _ beside
        · exact lifted _ beside

/-- The fields of an object and the key that they were parsed from. -/
structure KeyDims (cfg : Setup) (key : String) (dims : Dims) (effKey : String) : Prop where
  parsed : parseHiveKey effKey = some dims
  rebuilt : rebuildHiveKey dims = lstrip effKey
  own : cfg.isLocal = false → effKey = key

/-- The fields of a key, if they are rebuilt to it. -/
def keyDims (effKey : String) : Option (Dims × String) :=
  match parseHiveKey effKey with
  | none => none
  | some dims => if rebuildHiveKey dims = lstrip effKey then some (dims, effKey) else none

lemma keyDims_some {x : Dims × String} (found : keyDims effKey = some x) :
    parseHiveKey effKey = some x.1 ∧ rebuildHiveKey x.1 = lstrip effKey ∧ x.2 = effKey := by
  unfold keyDims at found
  cases parsed : parseHiveKey effKey with
  | none =>
    rw [parsed] at found
    cases found
  | some dims =>
    rw [parsed] at found
    dsimp only at found
    split at found
    · rename_i rebuilt
      cases found
      exact ⟨rfl, rebuilt, rfl⟩
    · cases found

lemma resolveKeyDims_eq :
    resolveKeyDims cfg key = intendedKey cfg key >>= fun intended => pure (keyDims (intended.getD key)) := by
  unfold resolveKeyDims keyDims
  congr 1
  funext intended
  dsimp only
  cases parseHiveKey (intended.getD key) <;> rfl

lemma ends_resolveKeyDims {E : Exn → World → Prop} :
    (resolveKeyDims cfg key).Ends
      (fun found w' => Beside w w' ∧ ∀ x, found = some x → KeyDims cfg key x.1 x.2) E w := by
  have rest : ∀ intended : Option String, (cfg.isLocal = false → intended = none) →
      ∀ x, keyDims (intended.getD key) = some x → KeyDims cfg key x.1 x.2 := by
    intro intended s3 x found
    obtain ⟨parsed, rebuilt, own⟩ := keyDims_some found
    rw [← own] at parsed rebuilt
    exact ⟨parsed, rebuilt, fun remote => by rw [own, s3 remote]; rfl⟩
  rw [resolveKeyDims_eq, intendedKey, Eff.ends_bind]
  split
  · rename_i isLocal
    rw [Eff.ends_bind]
    refine ends_reach.mono ?_ fun _ _ h => h
    intro _ w₁ beside
    rw [Eff.ends_gets, Eff.ends_pure]
    exact ⟨beside, rest _ fun s3 => by rw [s3] at isLocal; cases isLocal⟩
  · rw [Eff.ends_pure, Eff.ends_pure]
    exact ⟨⟨rfl, rfl⟩, rest none fun _ => rfl⟩

/-- What `catalog_object` returns, and the tables that it leaves. -/
inductive Handled (cfg : Setup) (key : String) (t t' : Tables) : CatalogResult → Prop
  | vanished : t' = t → Handled cfg key t t' (.failed "vanished")
  | unparseable (now : Nat) : t' = t.upsertFailure ⟨key, now, "unparseable key"⟩ →
      Handled cfg key t t' (.failed "unparseable key")
  | skipped : Grows t t' → Handled cfg key t t' .skipped
  | unreadable {dims : Dims} {effKey : String} {t₁ : Tables} {c : Composite} (e : Exn) :
      KeyDims cfg key dims effKey → Grows t t₁ → t₁.compositeOf dims = some c →
      Quarantined t₁ c effKey e.describe t' → Handled cfg key t t' (.failed e.text)
  | wrote {dims : Dims} {effKey : String} {stat : Stat} {summary : FileSummary} {t₁ : Tables} {c : Composite}
      {result : CatalogResult} : KeyDims cfg key dims effKey → Grows t t₁ → SoundFiles t₁ →
      t₁.compositeOf dims = some c → Wrote cfg t₁ c effKey stat summary t' result →
      Handled cfg key t t' result

lemma ends_recordUnparseable (settled : Settled cfg w) :
    (recordUnparseable cfg key).Ends
      (fun _ w' => Settled cfg w' ∧ ∃ now, w'.conn.durable =
        w.conn.durable.upsertFailure ⟨key, now, "unparseable key"⟩) (Keeps w.conn.durable) w := by
  unfold recordUnparseable
  rw [Eff.ends_bind]
  refine ends_recordFailure rfl ?_
  refine ends_commit rfl ?_
  rw [view_idle settled.idle]
  obtain ⟨dict, members, rows⟩ :=
    @upsertFailure_frame w.conn.durable ⟨key, cfg.clock w.tick, "unparseable key"⟩
  exact ⟨Settled.of_sublist settled.names settled.files dict members (by rw [← rows]; exact .refl _) rfl
    settled.caches, _, rfl⟩

/-- `catalog_object` once the object is found. -/
def catalogFound (cfg : Setup) (key : String) : Option Stat → Prog CatalogResult
  | none => pure (.failed "vanished")
  | some st => do
    match ← resolveKeyDims cfg key with
    | none => do
      recordUnparseable cfg key
      pure (.failed "unparseable key")
    | some (dims, effKey) => do
      let ids ← resolveIds cfg dims
      let existing ← compositeRow cfg ids dims
      if existing.map FileRow.etag = some st.etag then
        pure .skipped
      else
        match ← Eff.attempt (readSummary cfg key st.size) with
        | .error e => do
          quarantineExisting cfg ids dims effKey e.describe
          pure (.failed e.text)
        | .ok summary => writeFileRow cfg dims effKey ids st summary

lemma catalogObject_eq {known : Option Stat} : catalogObject cfg key known =
    (match known with
      | some st => pure (some st)
      | none => Builder.stat cfg key) >>= catalogFound cfg key := by
  cases known <;> rfl

lemma ends_catalogObject {known : Option Stat} (free : CollisionFree cfg)
    (settled : Settled cfg w) :
    (catalogObject cfg key known).Ends
      (fun result w' => Settled cfg w' ∧ Handled cfg key w.conn.durable w'.conn.durable result) Anyhow w := by
  rw [catalogObject_eq, Eff.ends_bind]
  have found : (match known with
      | some st => (pure (some st) : Prog (Option Stat))
      | none => Builder.stat cfg key).Ends (fun _ => Beside w) Anyhow w := by
    cases known with
    | some st => exact ⟨rfl, rfl⟩
    | none => exact ends_stat.mono (fun _ _ h => h) fun _ _ _ => trivial
  refine found.mono ?_ fun _ _ h => h
  intro found w₁ beside₁
  have settled₁ := settled.beside beside₁
  cases found with
  | none =>
    exact ⟨settled₁, .vanished (by rw [beside₁.conn])⟩
  | some st =>
    unfold catalogFound
    rw [Eff.ends_bind]
    refine ends_resolveKeyDims.mono ?_ fun _ _ h => h
    rintro resolved w₂ ⟨beside₂, dimsOf⟩
    have settled₂ := settled₁.beside beside₂
    have same : w₂.conn.durable = w.conn.durable := by rw [beside₂.conn, beside₁.conn]
    rw [← same]
    cases resolved with
    | none =>
      dsimp only
      rw [Eff.ends_bind]
      refine (ends_recordUnparseable settled₂).mono ?_ fun _ _ _ => trivial
      rintro _ w₃ ⟨settled₃, now, shape⟩
      exact ⟨settled₃, .unparseable now shape⟩
    | some x =>
      obtain ⟨dims, effKey⟩ := x
      have keyDims := dimsOf _ rfl
      dsimp only at keyDims ⊢
      rw [Eff.ends_bind]
      refine (ends_resolveIds settled₂).mono ?_ fun _ _ _ => trivial
      rintro ids w₃ ⟨settled₃, grows, named⟩
      unfold compositeRow
      rw [Eff.ends_bind]
      refine Eff.Ends.mono (ends_query rfl ?_) (fun _ _ h => h) fun _ _ _ => trivial
      have settled₄ : Settled cfg { w₃ with tick := w₃.tick + 1 } := settled₃.beside ⟨rfl, rfl⟩
      split
      · exact ⟨settled₄, .skipped grows⟩
      · rw [Eff.ends_bind, Eff.ends_attempt]
        refine ends_readSummary.mono ?_ ?_
        · intro summary w₅ beside₅
          have settled₅ := settled₄.beside beside₅
          have same₅ : w₅.conn.durable = w₃.conn.durable := by rw [beside₅.conn]
          dsimp only
          refine (ends_writeFileRow free settled₅ (clean_of_parse keyDims.parsed) ?_).mono ?_ fun _ _ _ => trivial
          · rw [same₅]
            exact named
          · rintro result w₆ ⟨settled₆, wrote⟩
            rw [same₅] at wrote
            exact ⟨settled₆, .wrote keyDims grows settled₃.files named wrote⟩
        · intro e w₅ beside₅
          have settled₅ := settled₄.beside beside₅
          have same₅ : w₅.conn.durable = w₃.conn.durable := by rw [beside₅.conn]
          dsimp only
          rw [Eff.ends_bind]
          refine (ends_quarantineExisting settled₅.idle same₅).mono ?_ fun _ _ _ => trivial
          rintro _ w₆ ⟨idle₆, caches₆, gone⟩
          rw [Eff.ends_pure]
          refine ⟨gone.settled settled₃.names settled₃.files idle₆ ?_, .unreadable e keyDims grows named gone⟩
          rw [caches₆, beside₅.caches]
          exact settled₃.caches

end PjCloud.Builder
