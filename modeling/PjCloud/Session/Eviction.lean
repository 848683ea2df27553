import PjCloud.Session.Frame

/-!
# Eviction and live bindings

`Detach` arms the eviction timer, `Reattach` stops it and makes a fired one stale, and
`BindConsumerChecked` installs the new consumer. `Reattach` and the bind are two critical sections: a
handler between them is *opening*. A `Detach` that still owns the binding and lands there arms a timer
that the bind does not stop (`evictFire_removes_live_binding`). When no such `Detach` happens, a
session with a live binding has no pending eviction (`live_binding_not_evicted`).
-/

namespace PjCloud.Session
open PjCloud.Lib
variable {μ : Type}

/-- The session is registered with a consumer that its connection has not detached. -/
def State.LiveBinding (s : State μ) : Prop :=
  s.entry.life = .registered ∧ s.entry.consumerCancel ≠ none

/-- No `Detach` that owns the binding lands while a handler of the session is opening. -/
def detachClear (s : State μ) : Action → Bool
  | .conn c .detach =>
    match (s.conns c).read with
    | .detaching (some gen) =>
      !s.entry.lookup || decide (s.entry.consumerGen ≠ gen) ||
        (List.range s.natts).all (fun a => !(s.atts a).pc.opening)
    | _ => true
  | _ => true

/-- What eviction relies on, for an entry and the set of opening handlers. -/
structure EvictInv (e : Entry) (opening : Nat → Prop) : Prop where
  unborn : e.life = .unregistered → e = .fresh ∧ ∀ a, ¬ opening a
  epochs : e.life = .registered → ∀ k, e.evictAt = some k ∨ k ∈ e.fired → k ≤ e.evictEpoch
  bound : e.life = .registered → e.EvictionPending → e.consumerCancel = none
  window : e.life = .registered → ∀ a, opening a → ¬ e.EvictionPending

/-- The handlers of `s` that are opening. -/
def State.openingSet (s : State μ) (a : Nat) : Prop :=
  (s.atts a).pc.opening = true

namespace EvictInv
variable {e : Entry} {w w' : Nat → Prop}

lemma mono (inv : EvictInv e w) (h : ∀ a, w' a → w a) : EvictInv e w' where
  unborn hl := ⟨(inv.unborn hl).1, fun a ha => (inv.unborn hl).2 a (h a ha)⟩
  epochs := inv.epochs
  bound := inv.bound
  window hl a ha := inv.window hl a (h a ha)

lemma of_removed (h : e.life = .removed) : EvictInv e w := by
  constructor <;> intro hl <;> rw [h] at hl <;> cases hl

/-- `Register` opens the window of a fresh id. -/
lemma register (inv : EvictInv e w) (hl : e.life = .unregistered) :
    EvictInv { e with life := .registered } w' := by
  obtain ⟨rfl, -⟩ := inv.unborn hl
  constructor
  · intro h
    cases h
  · intro _ k hk
    simp [Entry.fresh] at hk
  · intro _ hp
    rfl
  · intro _ a _ hp
    simp [Entry.EvictionPending, Entry.fresh] at hp

/-- `Reattach` makes every timer stale. -/
lemma reattach (inv : EvictInv e w) (hl : e.life = .registered) :
    EvictInv { e with evictAt := none, evictEpoch := e.evictEpoch + 1 } w' := by
  have stale : ¬ Entry.EvictionPending
      { e with evictAt := none, evictEpoch := e.evictEpoch + 1 } := by
    rintro (h | h)
    · cases h
    · have : e.evictEpoch + 1 ≤ e.evictEpoch := inv.epochs hl _ (.inr h)
      omega
  constructor
  · intro h
    rw [hl] at h
    cases h
  · rintro _ k (h | h)
    · cases h
    · have := inv.epochs hl k (.inr h)
      show k ≤ e.evictEpoch + 1
      omega
  · intro _ hp
    exact absurd hp stale
  · intro _ a _
    exact stale

lemma bind (inv : EvictInv e w) {a k g} (ha : w a) :
    EvictInv { e with consumerCancel := some k, consumerGen := g } w where
  unborn hl := absurd ha ((inv.unborn hl).2 a)
  epochs := inv.epochs
  bound hl hp := absurd hp (inv.window hl a ha)
  window := inv.window

/-- An owning `Detach` arms the timer of a session that nobody is opening. -/
lemma arm (inv : EvictInv e w) (hl : e.life = .registered) (hw : ∀ a, ¬ w a) :
    EvictInv { e with consumerCancel := none }.armEvictLocked w := by
  constructor
  · intro h
    change e.life = _ at h
    rw [hl] at h
    cases h
  · rintro _ k (h | h)
    · cases h
      exact Nat.le_refl _
    · have := inv.epochs hl k (.inr h)
      show k ≤ e.evictEpoch + 1
      omega
  · intro _ _
    rfl
  · intro _ a ha
    exact absurd ha (hw a)

lemma timerFire (inv : EvictInv e w) : EvictInv e.timerFire w := by
  have pending : e.timerFire.EvictionPending → e.EvictionPending := by
    rintro (h | h)
    · cases h
    · rcases List.mem_append.mp h with h | h
      · exact .inl (Option.mem_toList.mp h)
      · exact .inr h
  constructor
  · intro hl
    obtain ⟨rfl, hw⟩ := inv.unborn hl
    exact ⟨rfl, hw⟩
  · rintro hl k (h | h)
    · cases h
    · rcases List.mem_append.mp h with h | h
      · exact inv.epochs hl k (.inl (Option.mem_toList.mp h))
      · exact inv.epochs hl k (.inr h)
  · intro hl hp
    exact inv.bound hl (pending hp)
  · intro hl a ha hp
    exact inv.window hl a ha (pending hp)

lemma erase (inv : EvictInv e w) (k : Nat) : EvictInv { e with fired := e.fired.erase k } w := by
  have pending : Entry.EvictionPending { e with fired := e.fired.erase k } →
      e.EvictionPending := by
    rintro (h | h)
    · exact .inl h
    · exact .inr (List.mem_of_mem_erase h)
  constructor
  · intro hl
    obtain ⟨rfl, hw⟩ := inv.unborn hl
    exact ⟨rfl, hw⟩
  · rintro hl j (h | h)
    · exact inv.epochs hl j (.inl h)
    · exact inv.epochs hl j (.inr (List.mem_of_mem_erase h))
  · intro hl hp
    exact inv.bound hl (pending hp)
  · intro hl a ha hp
    exact inv.window hl a ha (pending hp)

lemma unbind (inv : EvictInv e w) : EvictInv { e with consumerCancel := none } w where
  unborn hl := by
    obtain ⟨rfl, hw⟩ := inv.unborn hl
    exact ⟨rfl, hw⟩
  epochs := inv.epochs
  bound _ _ := rfl
  window := inv.window

end EvictInv

lemma opening_update {atts : Nat → Attachment μ} {a x}
    (h : x.pc.opening = true → (atts a).pc.opening = true) :
    ∀ b, (Function.update atts a x b).pc.opening = true → (atts b).pc.opening = true := by
  intro b hb
  rw [Function.update_apply] at hb
  split at hb
  case isTrue e => rw [e]; exact h hb
  case isFalse => exact hb

/-- Every step that meets `detachClear` keeps what eviction relies on. -/
lemma EvictInv.step {n : Nat} {s s' : State μ} {a} (num : Numbering s) (h : Step n s a s')
    (hok : detachClear s a = true) (inv : EvictInv s.entry s.openingSet) :
    EvictInv s'.entry s'.openingSet := by
  have cancelled : ∀ k b, (cancelAtt s.atts k b).pc.opening = true → s.openingSet b := by
    intro k b hb
    rwa [cancelAtt_pc] at hb
  cases h
  case openFresh hl _ => exact inv.register hl
  case openResume => exact inv.mono (opening_update (by simp [Pc.opening]))
  case readEnd => exact inv.mono (opening_update id)
  -- the one step that the condition is about
  case detach c gen hr hl hg =>
    have clear : ∀ b, ¬ s.openingSet b := by
      intro b hb
      have hlt : b < s.natts := num.lt (by rintro e; rw [State.openingSet, e] at hb; cases hb)
      simp only [detachClear, hr, Entry.lookup, hl, hg, decide_true, Bool.not_true, ne_eq,
        not_true_eq_false, decide_false, Bool.or_self, Bool.false_or, List.all_eq_true,
        List.mem_range, Bool.not_eq_true'] at hok
      rw [State.openingSet, hok b hlt] at hb
      cases hb
    exact (inv.arm hl clear).mono (cancelled _)
  case timerFire => exact inv.timerFire
  case evictStale k _ _ => exact inv.erase k
  case cancelConsumer => exact inv.unbind.mono (cancelled _)
  case reattach hl => exact inv.reattach hl
  case bind hp hl =>
    exact (inv.bind (by rw [State.openingSet, hp]; rfl)).mono (opening_update (by simp [Pc.opening]))
  case takeover hp =>
    refine inv.mono fun b hb => cancelled _ b (opening_update ?_ b hb)
    simp [Pc.opening]
  case dispose b why _ =>
    refine inv.mono (opening_update ?_)
    rcases disposition_cases (s.atts b) why with e | e <;> simp [e, Pc.opening]
  all_goals first
    | exact inv
    | exact EvictInv.of_removed rfl
    | exact inv.mono (opening_update (by grind [Pc.opening]))

/-- What eviction relies on holds in every run whose steps meet `detachClear`. -/
lemma reach_evictInv {n : Nat} {s : State μ} (rch : ((server n).only detachClear).Reach s) :
    EvictInv s.entry s.openingSet := by
  refine only_invariant (fun s => EvictInv s.entry s.openingSet) ?_ ?_ rch
  · intro opts plan
    constructor
    · intro _
      exact ⟨rfl, fun a h => by cases h⟩
    all_goals
      intro hl
      cases hl
  · intro s a s' rch hok h inv
    exact inv.step (reach_numbering rch.of_only) h hok

/-- In every run where no owning `Detach` lands between a `Register` or `Reattach` and the bind that
    belongs to it, a session with a live binding has no pending eviction, and no callback that gets the
    lock removes it. -/
theorem live_binding_not_evicted {n : Nat} {s : State μ}
    (rch : ((server n).only detachClear).Reach s) (live : s.LiveBinding) :
    ¬ s.entry.EvictionPending ∧
      ∀ k, (server n).guard s (.registry (.evictFire k)) = true →
        ((server n).exec s (.registry (.evictFire k))).entry.life = .registered := by
  have inv := reach_evictInv rch
  have idle : ¬ s.entry.EvictionPending := fun hp => live.2 (inv.bound live.1 hp)
  refine ⟨idle, fun k hg => ?_⟩
  have hk : k ∈ s.entry.fired := by simpa [server, guard, registryGuard] using hg
  have hne : s.entry.evictEpoch ≠ k := by
    rintro rfl
    exact idle (.inr hk)
  simp [server, exec, registryExec, Entry.evictFire, hne, live.1]

/-- A run with a drop and a resume in which the resumed session has a live binding. -/
def resumeRun : List Action :=
  [.openFresh 0 0, .opening 0 .reply, .opening 0 .bind, .opening 0 .takeover, .opening 0 .track,
   .conn 0 .readEnd, .conn 0 .detach, .registry .timerFire, .openResume 1 0, .opening 1 .reattach,
   .opening 1 .prune, .opening 1 .reply, .opening 1 .bind]

/-- A resumed session whose old timer has fired is not evicted. -/
theorem resumed_binding_not_evicted :
    ∃ s : State Unit, ((server 64).only detachClear).Reach s ∧ s.LiveBinding ∧
      s.entry.fired = [1] ∧ ¬ s.entry.EvictionPending := by
  have run : (((server 64).only detachClear).replay (State.start ⟨2, 100⟩ []) resumeRun).any
      (fun s : State Unit => decide (s.entry.life = .registered ∧ s.entry.consumerCancel ≠ none ∧
        s.entry.fired = [1])) = true := by
    decide +kernel
  obtain ⟨s, rch, hs⟩ := replay_only_reach run
  obtain ⟨hl, hc, hf⟩ := of_decide_eq_true hs
  exact ⟨s, rch, ⟨hl, hc⟩, hf, (live_binding_not_evicted rch ⟨hl, hc⟩).1⟩

/-- The old connection ends while a second one is between `Reattach` and its bind. -/
def lateDetachRun : List Action :=
  [.openFresh 0 0, .opening 0 .reply, .opening 0 .bind, .opening 0 .takeover, .opening 0 .track,
   .openResume 1 0, .opening 1 .reattach, .conn 0 .readEnd, .conn 0 .detach, .opening 1 .prune,
   .opening 1 .reply, .opening 1 .bind, .registry .timerFire]

/-- Without the condition a timer with the current epoch runs against a live binding, and its callback
    removes the session. -/
theorem evictFire_removes_live_binding :
    ∃ s : State Unit, (server 64).Reach s ∧ s.LiveBinding ∧ s.entry.EvictionPending ∧
      ∃ k, (server 64).guard s (.registry (.evictFire k)) = true ∧
        ((server 64).exec s (.registry (.evictFire k))).entry.life = .removed := by
  have run : ((server 64).replay (State.start ⟨2, 100⟩ []) lateDetachRun).any
      (fun s : State Unit => decide (s.entry.life = .registered ∧ s.entry.consumerCancel ≠ none ∧
        s.entry.EvictionPending ∧ (server 64).guard s (.registry (.evictFire 2)) = true ∧
        ((server 64).exec s (.registry (.evictFire 2))).entry.life = .removed)) = true := by
    decide +kernel
  obtain ⟨s, rch, hs⟩ := replay_reach run
  obtain ⟨hl, hc, hp, hg, hr⟩ := of_decide_eq_true hs
  exact ⟨s, rch, ⟨hl, hc⟩, hp, 2, hg, hr⟩

end PjCloud.Session
