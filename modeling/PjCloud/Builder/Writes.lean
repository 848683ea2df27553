import PjCloud.Builder.Names

/-!
# Names in a transaction

The rules of the writer's primitives, and what the resolvers do in a transaction. `Within` is the state there:
the committed tables are those from before, and the tables of the transaction have more names, all of them in the
caches. Whatever is raised, the committed tables are kept (`Keeps`).
-/

namespace PjCloud.Builder
open Lib
variable {cfg : Setup} {t t₀ : Tables} {w : World} {site : Site} {d : Dict} {key : d.Key}

/-- The committed tables are these. -/
def Keeps (t₀ : Tables) (_ : Exn) (w : World) : Prop := w.conn.durable = t₀

/-- A transaction that has only added names to the committed tables. -/
structure Within (cfg : Setup) (t₀ : Tables) (w : World) : Prop where
  durable : w.conn.durable = t₀
  grows : Grows t₀ w.conn.view
  names : SoundNames cfg w.conn.view
  caches : w.caches = w.conn.view.names

/-! ## The primitives -/

variable {c : Conn}

@[simp] lemma view_write : (c.write t).view = t := rfl

@[simp] lemma durable_write : (c.write t).durable = c.durable := rfl

@[simp] lemma durable_commit : c.commit.durable = c.view := rfl

@[simp] lemma view_commit : c.commit.view = c.view := rfl

@[simp] lemma durable_rollback : c.rollback.durable = c.durable := rfl

lemma durable_fail {fault : Fault} : (w.fail fault).conn.durable = w.conn.durable := by
  unfold World.fail
  split <;> rfl

lemma ends_execute {stmt : Tables → Except Exn Tables} {Q : Unit → World → Prop}
    (kept : w.conn.durable = t₀)
    (ok : ∀ t, stmt w.conn.view = .ok t → Q () { w with tick := w.tick + 1, conn := w.conn.write t }) :
    (execute cfg site stmt).Ends Q (Keeps t₀) w := by
  unfold Eff.Ends execute
  dsimp only
  split
  · rename_i e s done
    split at done
    · cases done
    · split at done
      · cases done
        exact ok _ (by assumption)
      · cases done
  · rename_i e s done
    split at done
    · cases done
      exact durable_fail.trans kept
    · split at done
      · cases done
      · cases done
        exact kept

lemma ends_query {α : Type} {select : Tables → α} {Q : α → World → Prop} (kept : w.conn.durable = t₀)
    (ok : Q (select w.conn.view) { w with tick := w.tick + 1 }) :
    (query cfg site select).Ends Q (Keeps t₀) w := by
  unfold Eff.Ends query
  dsimp only
  split
  · rename_i a s done
    split at done
    · cases done
    · cases done
      exact ok
  · rename_i e s done
    split at done
    · cases done
      exact durable_fail.trans kept
    · cases done

lemma ends_commit {Q : Unit → World → Prop} (kept : w.conn.durable = t₀)
    (ok : Q () { w with tick := w.tick + 1, conn := w.conn.commit }) :
    (commit cfg site).Ends Q (Keeps t₀) w := by
  unfold Eff.Ends commit
  dsimp only
  split
  · rename_i a s done
    split at done
    · cases done
    · cases done
      exact ok
  · rename_i e s done
    split at done
    · cases done
      exact durable_fail.trans kept
    · cases done

lemma ends_nowNs {Q : Nat → World → Prop} {E : Exn → World → Prop}
    (ok : Q (cfg.clock w.tick) { w with tick := w.tick + 1 }) : (nowNs cfg).Ends Q E w := ok

/-! ## Resolvers -/

lemma names_addName (new : idOf (t.dict d) key = none) :
    Function.update t.names d (Function.update (t.names d) key (some (nextId ((t.dict d).map Prod.fst)))) =
      (t.addName d key).names := by
  funext d' key'
  unfold Tables.names
  by_cases same : d' = d
  · subst same
    rw [Function.update_self, addName_dict_self]
    by_cases own : key' = key
    · subst own
      rw [Function.update_self, idOf_addKey new]
    · rw [Function.update_of_ne own, idOf_addKey_of_ne own]
  · rw [Function.update_of_ne same, addName_dict_of_ne same]

lemma ends_resolve (within : Within cfg t₀ w) (noSet : d ≠ .topicSet) :
    (resolve cfg site d key).Ends
      (fun id w' => Within cfg t₀ w' ∧ Grows w.conn.view w'.conn.view ∧
        idOf (w'.conn.view.dict d) key = some id) (Keeps t₀) w := by
  unfold resolve
  rw [Eff.ends_bind, Eff.ends_gets, within.caches]
  cases known : w.conn.view.names d key with
  | some id =>
    rw [Eff.ends_pure]
    exact ⟨within, .refl, known⟩
  | none =>
    dsimp only
    rw [Eff.ends_bind]
    apply ends_execute within.durable
    intro t inserted
    -- the caches are the names, so the row is a new one
    unfold Tables.insertOrIgnore at inserted
    rw [show idOf (w.conn.view.dict d) key = none from known] at inserted
    simp only [Option.isSome_none, Bool.false_eq_true, if_false] at inserted
    split at inserted
    · rename_i parent
      cases inserted
      have number : idOf ((w.conn.view.addName d key).dict d) key =
          some (nextId ((w.conn.view.dict d).map Prod.fst)) := by
        rw [addName_dict_self]
        exact idOf_addKey known
      rw [Eff.ends_bind]
      refine ends_query (durable_write.trans within.durable) ?_
      rw [view_write, number]
      dsimp only
      rw [Eff.ends_bind, Eff.ends_modify, Eff.ends_pure]
      refine ⟨⟨within.durable, within.grows.trans grows_addName, within.names.addName known parent noSet, ?_⟩,
        grows_addName, number⟩
      dsimp only [World.remember]
      rw [within.caches]
      exact names_addName known
    · cases inserted

end PjCloud.Builder
