import Mathlib.Tactic.Lemma
import Mathlib.Tactic.TypeStar

/-!
# Computations with a state that can raise

`Eff σ ε α` is a computation on a state of type `σ` that returns a value or raises an exception; the state
after a raise is the one at the raise, as in Python. `Ends Q E` says how it ends from a state: with a value and
a state in `Q`, or with an exception and a state in `E`. A program is proved by the rules of its parts.
-/

namespace PjCloud.Lib

/-- A computation on a state that returns a value or raises. -/
def Eff (σ ε α : Type) : Type := σ → Except ε α × σ

namespace Eff
variable {σ ε α β : Type}

/-- One computation after the other. -/
def andThen (x : Eff σ ε α) (f : α → Eff σ ε β) : Eff σ ε β := fun s =>
  match x s with
  | (.ok a, s') => f a s'
  | (.error e, s') => (.error e, s')

instance : Monad (Eff σ ε) where
  pure a := fun s => (.ok a, s)
  bind := andThen

def raise (e : ε) : Eff σ ε α := fun s => (.error e, s)

/-- A value or an exception that is there already. -/
def lift (r : Except ε α) : Eff σ ε α := fun s => (r, s)

/-- `try`, with what was raised as a value. -/
def attempt (x : Eff σ ε α) : Eff σ ε (Except ε α) := fun s => (.ok (x s).1, (x s).2)

/-- Read the state. -/
def gets (f : σ → α) : Eff σ ε α := fun s => (.ok (f s), s)

/-- Change the state. -/
def modify (f : σ → σ) : Eff σ ε Unit := fun s => (.ok (), f s)

/-- For each element of a list. -/
def each : List α → (α → Eff σ ε Unit) → Eff σ ε Unit
  | [], _ => pure ()
  | a :: rest, f => do
    f a
    each rest f

/-- For each element of a list, with a value that is passed on. -/
def fold (f : β → α → Eff σ ε β) : β → List α → Eff σ ε β
  | b, [] => pure b
  | b, a :: rest => do
    let b ← f b a
    fold f b rest

/-- How a computation ends. -/
def Ends (x : Eff σ ε α) (Q : α → σ → Prop) (E : ε → σ → Prop) (s : σ) : Prop :=
  match x s with
  | (.ok a, s') => Q a s'
  | (.error e, s') => E e s'

variable {x : Eff σ ε α} {f : α → Eff σ ε β} {Q Q' : α → σ → Prop} {R : β → σ → Prop} {E E' : ε → σ → Prop}
  {s : σ}

@[simp] lemma ends_pure {a : α} : (pure a : Eff σ ε α).Ends Q E s ↔ Q a s := Iff.rfl

@[simp] lemma ends_bind : (x >>= f).Ends R E s ↔ x.Ends (fun a s' => (f a).Ends R E s') E s := by
  unfold Ends bind Monad.toBind instMonad andThen
  dsimp only
  generalize x s = r
  obtain ⟨_ | _, _⟩ := r <;> rfl

@[simp] lemma ends_raise {e : ε} : (raise e : Eff σ ε α).Ends Q E s ↔ E e s := Iff.rfl

@[simp] lemma ends_lift_ok {a : α} : (lift (.ok a) : Eff σ ε α).Ends Q E s ↔ Q a s := Iff.rfl

@[simp] lemma ends_lift_error {e : ε} : (lift (.error e) : Eff σ ε α).Ends Q E s ↔ E e s := Iff.rfl

@[simp] lemma ends_attempt {Q : Except ε α → σ → Prop} :
    (attempt x).Ends Q E s ↔ x.Ends (fun a s' => Q (.ok a) s') (fun e s' => Q (.error e) s') s := by
  unfold Ends attempt
  dsimp only
  generalize x s = r
  obtain ⟨_ | _, _⟩ := r <;> rfl

@[simp] lemma ends_gets {g : σ → α} : (gets g : Eff σ ε α).Ends Q E s ↔ Q (g s) s := Iff.rfl

@[simp] lemma ends_modify {g : σ → σ} {Q : Unit → σ → Prop} :
    (modify g : Eff σ ε Unit).Ends Q E s ↔ Q () (g s) := Iff.rfl

/-- The rule of consequence. -/
lemma Ends.mono (ends : x.Ends Q E s) (ok : ∀ a s', Q a s' → Q' a s') (raised : ∀ e s', E e s' → E' e s') :
    x.Ends Q' E' s := by
  unfold Ends at *
  generalize x s = r at *
  obtain ⟨_ | a, s'⟩ := r
  · exact raised _ _ ends
  · exact ok _ _ ends

/-- Two facts about one computation. -/
lemma Ends.and (one : x.Ends Q E s) (other : x.Ends Q' E' s) :
    x.Ends (fun a s' => Q a s' ∧ Q' a s') (fun e s' => E e s' ∧ E' e s') s := by
  unfold Ends at *
  generalize x s = r at *
  obtain ⟨_ | a, s'⟩ := r <;> exact ⟨one, other⟩

/-- A computation ends as it does. -/
lemma ends_self : x.Ends (fun a s' => x s = (.ok a, s')) (fun e s' => x s = (.error e, s')) s := by
  unfold Ends
  generalize x s = r
  obtain ⟨_ | _, _⟩ := r <;> rfl

/-- What is known of the end, where it has ended with a value. -/
lemma Ends.ok {a : α} {s' : σ} (ends : x.Ends Q E s) (e : x s = (.ok a, s')) : Q a s' := by
  unfold Ends at ends
  rw [e] at ends
  exact ends

/-- What is known of the end state, however the computation has ended. -/
lemma Ends.state {P : σ → Prop} (ends : x.Ends (fun _ => P) (fun _ => P) s) : P (x s).2 := by
  unfold Ends at ends
  generalize x s = r at *
  obtain ⟨_ | a, s'⟩ := r <;> exact ends

/-- The rule of a loop: what holds with the elements left. -/
lemma Ends.each {l : List α} {body : α → Eff σ ε Unit} {I : List α → σ → Prop} (start : I l s)
    (step : ∀ a rest s, I (a :: rest) s → (body a).Ends (fun _ => I rest) E s) :
    (each l body).Ends (fun _ => I []) E s := by
  induction l generalizing s with
  | nil => exact start
  | cons a rest ih =>
    unfold Eff.each
    rw [ends_bind]
    exact (step a rest s start).mono (fun _ _ inv => ih inv) fun _ _ h => h

/-- The rule of a loop with a value: what holds with the elements left and the value. -/
lemma Ends.fold {l : List α} {body : β → α → Eff σ ε β} {b : β} {I : List α → β → σ → Prop} (start : I l b s)
    (step : ∀ b a rest s, I (a :: rest) b s → (body b a).Ends (fun b' => I rest b') E s) :
    (Eff.fold body b l).Ends (fun b' => I [] b') E s := by
  induction l generalizing s b with
  | nil => exact start
  | cons a rest ih =>
    unfold Eff.fold
    rw [ends_bind]
    exact (step b a rest s start).mono (fun _ _ inv => ih inv) fun _ _ h => h

end Eff

end PjCloud.Lib
