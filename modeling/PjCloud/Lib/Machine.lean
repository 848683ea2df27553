import Mathlib.Tactic.Lemma
import Mathlib.Logic.Basic

/-!
# Guarded machines

A `Machine` is a transition system given by a guard and an effect: an action may be taken in a state
when its guard is `true`, and the state after it is `exec`. Both are functions, so that a concrete run
can be replayed by evaluation (`Machine.replay`), while `Machine.Reach` is the inductive notion that
the invariant rule `Reach.invariant` goes by.

The runs whose steps all meet a condition on the state before the step are the runs of the restricted
machine `Machine.only`.
-/

namespace PjCloud.Lib

/-- A transition system with guarded, deterministic actions. -/
structure Machine (σ α : Type*) where
  init : σ → Prop
  guard : σ → α → Bool
  exec : σ → α → σ

namespace Machine
variable {σ α : Type*} {M : Machine σ α}

/-- The states that runs of the machine pass through. -/
inductive Reach (M : Machine σ α) : σ → Prop where
  | init {s} : M.init s → Reach M s
  | step {s a} : Reach M s → M.guard s a = true → Reach M (M.exec s a)

/-- The machine whose steps are those of `M` that meet `ok`. -/
def only (M : Machine σ α) (ok : σ → α → Bool) : Machine σ α where
  init := M.init
  guard s a := M.guard s a && ok s a
  exec := M.exec

/-- The guard of a restricted machine. -/
lemma only_guard {ok : σ → α → Bool} {s a} :
    (M.only ok).guard s a = true ↔ M.guard s a = true ∧ ok s a = true := by
  simp [only]

/-- A run that meets a condition is a run. -/
lemma Reach.of_only {ok : σ → α → Bool} {s} (rch : (M.only ok).Reach s) : M.Reach s := by
  induction rch with
  | init hi => exact .init hi
  | step _ hg ih => exact .step ih (only_guard.mp hg).1

/-- A run under a stronger condition is a run under a weaker one. -/
lemma Reach.only_mono {ok weaker : σ → α → Bool} {s} (rch : (M.only ok).Reach s)
    (imp : ∀ s a, ok s a = true → weaker s a = true) : (M.only weaker).Reach s := by
  induction rch with
  | init hi => exact .init hi
  | step _ hg ih =>
    obtain ⟨guard, own⟩ := only_guard.mp hg
    exact .step ih (only_guard.mpr ⟨guard, imp _ _ own⟩)

/-- The invariant rule: what holds initially and is kept by every step holds in every reached state.
    The step may use that its source is reached, so that earlier invariants are at hand. -/
lemma Reach.invariant {Inv : σ → Prop}
    (hinit : ∀ s, M.init s → Inv s)
    (hstep : ∀ s a, M.Reach s → Inv s → M.guard s a = true → Inv (M.exec s a))
    {s} (rch : M.Reach s) : Inv s := by
  induction rch with
  | init hi => exact hinit _ hi
  | step rch hg ih => exact hstep _ _ rch ih hg

/-- Replay a list of actions, checking each guard on the way. -/
def replay (M : Machine σ α) (s : σ) : List α → Option σ
  | [] => some s
  | a :: as => if M.guard s a then M.replay (M.exec s a) as else none

/-- A replayed run reaches its end state. -/
lemma Reach.replay {s t as} (rch : M.Reach s) (e : M.replay s as = some t) : M.Reach t := by
  induction as generalizing s with
  | nil =>
    cases e
    exact rch
  | cons a as ih =>
    rw [Machine.replay] at e
    split at e
    case isTrue hg => exact ih (.step rch hg) e
    case isFalse => cases e

/-- A property tested at the end of a replayed run holds in a reached state. -/
lemma Reach.replay_any {s as} {p : σ → Bool} (rch : M.Reach s)
    (e : (M.replay s as).any p = true) : ∃ t, M.Reach t ∧ p t = true := by
  cases h : M.replay s as with
  | none =>
    rw [h] at e
    cases e
  | some t =>
    rw [h] at e
    exact ⟨t, rch.replay h, e⟩

/-! ## Machines of partial functions -/

/-- The machine whose actions are given by one partial function. -/
def ofNext (init : σ → Prop) (next : σ → α → Option σ) : Machine σ α where
  init
  guard s a := (next s a).isSome
  exec s a := (next s a).getD s

section
variable {init : σ → Prop} {next : σ → α → Option σ}

lemma guard_next {s t a} (step : next s a = some t) : (ofNext init next).guard s a = true :=
  Option.isSome_iff_exists.mpr ⟨t, step⟩

lemma exec_next {s t a} (step : next s a = some t) : (ofNext init next).exec s a = t := by
  change (next s a).getD s = t
  rw [step]
  rfl

/-- The invariant rule for such a machine. -/
lemma Reach.invariant_next {Inv : σ → Prop} (hinit : ∀ s, init s → Inv s)
    (hstep : ∀ s a t, (ofNext init next).Reach s → Inv s → next s a = some t → Inv t)
    {s} (rch : (ofNext init next).Reach s) : Inv s := by
  refine rch.invariant hinit ?_
  intro s a rch inv enabled
  obtain ⟨t, step⟩ := Option.isSome_iff_exists.mp enabled
  rw [exec_next step]
  exact hstep s a t rch inv step

lemma replay_next {s t a as} (step : next s a = some t) :
    (ofNext init next).replay s (a :: as) = (ofNext init next).replay t as := by
  rw [replay, if_pos (guard_next step), exec_next step]

end

end Machine
end PjCloud.Lib
