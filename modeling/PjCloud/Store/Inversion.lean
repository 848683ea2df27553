import Mathlib.Data.List.Count
import PjCloud.Store.Leases

/-!
# What a step of the store can do

`Step` has a constructor for each way that a step goes, with what it has tested and the state after it;
`exec_step` is that there are no others, and every invariant goes by its cases. `Tails` is the first of them: a
swap that waits for a call of `snapshot.release` waits for one.
-/

namespace PjCloud.Store
open Lib

/-- The swap looks at the served path and has no snapshot of its own. -/
def Reopener.Looking : Reopener → Prop
  | .identified _ => True
  | .opening _ => True
  | _ => False

/-- What a step can do. -/
inductive Step (s : State) : State → Prop where
  | same : Step s s
  | acquired {n} : s.closed = false → s.cur = some n →
      Step s { s with
        snaps := Function.update s.snaps n { s.snaps n with refs := (s.snaps n).refs + 1 }
        leases := s.leases ++ [⟨some n, false⟩] }
  | unavailable : s.closed = true ∨ s.cur = none → Step s { s with leases := s.leases ++ [⟨s.cur, true⟩] }
  | released {l n} : s.leases[l]? = some ⟨some n, false⟩ →
      Step s ({ s with leases := s.leases.set l ⟨some n, true⟩ }.release n .done)
  | unheld {l} : s.leases[l]? = some ⟨none, false⟩ → Step s { s with leases := s.leases.set l ⟨none, true⟩ }
  | closed {n} : s.closed = false → s.cur = some n → s.curRefLive = true →
      Step s ({ s with closed := true, curRefLive := false }.release n .done)
  | closedEmpty : s.closed = false → (∀ n, ¬(s.cur = some n ∧ s.curRefLive = true)) →
      Step s { s with closed := true, curRefLive := false }
  | dropped {call} : call ∈ s.calls → call.pc = .dropping → (s.snaps call.sn).refs - 1 ≠ 0 →
      Step s (finish call.after { s with
        snaps := Function.update s.snaps call.sn
          { s.snaps call.sn with refs := (s.snaps call.sn).refs - 1 }
        calls := s.calls.erase call })
  | droppedLast {call} : call ∈ s.calls → call.pc = .dropping → (s.snaps call.sn).refs - 1 = 0 →
      Step s { s with
        snaps := Function.update s.snaps call.sn
          { s.snaps call.sn with refs := (s.snaps call.sn).refs - 1 }
        calls := { call with pc := .closing } :: s.calls.erase call }
  | closedDb {call} : call ∈ s.calls → call.pc = .closing →
      Step s (finish call.after { s with
        dbs := Function.update s.dbs (s.snaps call.sn).db (s.dbs (s.snaps call.sn).db + 1)
        calls := s.calls.erase call })
  | looks {r} : s.reopener = .idle ∨ s.reopener.Looking → r.Looking → Step s { s with reopener := r }
  | ends {result} : s.reopener.Looking → Step s (s.unswapped result)
  | opens {r} : s.reopener.Looking → r.Looking → Step s { s.open 1 with reopener := r }
  | openEnds {result} : s.reopener.Looking → Step s ((s.open 1).unswapped result)
  | verified {ident} : s.reopener.Looking →
      Step s { s.open 0 with
        ordinal := s.ordinal + 1
        snaps := Function.update s.snaps s.nsnaps ⟨s.ndbs, ident, newGenToken s.epoch (s.ordinal + 1), 1⟩
        nsnaps := s.nsnaps + 1
        reopener := .publishing s.nsnaps }
  | rejected {sn} : s.reopener = .publishing sn → s.closed = true →
      Step s ({ s with reopener := .rejecting }.release sn .rejected)
  | swapped {sn old} : s.reopener = .publishing sn → s.closed = false → s.cur = some old →
      s.curRefLive = true →
      Step s ({ s with
        cur := some sn
        curRefLive := true
        published := s.published ++ [((s.snaps sn).db, (s.snaps sn).gen)]
        reopener := .retiring }.release old .swapped)
  | first {sn} : s.reopener = .publishing sn → s.closed = false →
      (∀ n, ¬(s.cur = some n ∧ s.curRefLive = true)) →
      Step s { s with
        cur := some sn
        curRefLive := true
        published := s.published ++ [((s.snaps sn).db, (s.snaps sn).gen)]
        reopener := .idle
        results := s.results ++ [.swapped] }

variable {s t : State} {a : Action}

lemma attempt_step {attempts : Nat} {outcome : Attempt} (at_ : s.reopener = .opening attempts) :
    Step s (attempt s attempts outcome) := by
  have looking : s.reopener.Looking := by rw [at_]; trivial
  cases outcome with
  | unopened => exact .ends looking
  | refused => exact .openEnds looking
  | raced =>
    simp only [attempt]
    split
    · exact @Step.opens s (.opening _) looking trivial
    · exact .openEnds looking
  | verified ident => exact .verified looking

lemma publish_step {sn : Nat} (at_ : s.reopener = .publishing sn) : Step s (publish s sn) := by
  unfold publish
  split
  · exact .rejected at_ ‹_›
  · rename_i opened
    rw [Bool.not_eq_true] at opened
    dsimp only
    split
    · exact .swapped at_ opened ‹_› ‹_›
    · rename_i none
      exact .first at_ opened fun n held => none n held.1 held.2

lemma exec_step (can : guard s a = true) : Step s (exec s a) := by
  cases a with
  | acquire =>
    simp only [exec, acquire]
    split
    · exact .acquired ‹_› ‹_›
    · rename_i none
      apply Step.unavailable
      cases closed : s.closed with
      | true => exact .inl rfl
      | false =>
        right
        cases cur : s.cur with
        | none => rfl
        | some n => exact (none n closed cur).elim
  | release l =>
    simp only [exec, release]
    split
    · exact .released ‹_›
    · exact .unheld ‹_›
    · exact .same
  | close =>
    simp only [exec, close]
    split
    · exact .same
    · rename_i opened
      rw [Bool.not_eq_true] at opened
      split
      · exact .closed opened ‹_› ‹_›
      · rename_i none
        exact .closedEmpty opened fun n held => none n held.1 held.2
  | drop call =>
    obtain ⟨mem, pc⟩ := of_decide_eq_true can
    simp only [exec, drop]
    split
    · exact .droppedLast mem pc ‹_›
    · exact .dropped mem pc ‹_›
  | closeDb call =>
    obtain ⟨mem, pc⟩ := of_decide_eq_true can
    exact .closedDb mem pc
  | reopen => exact .looks (.inl (of_decide_eq_true can)) trivial
  | stat outcome =>
    simp only [guard] at can
    split at can
    · rename_i cur at_
      have looking : s.reopener.Looking := by rw [at_]; trivial
      simp only [exec, at_]
      cases outcome with
      | fails notExist =>
        simp only [stat]
        split <;> exact .ends looking
      | found ident =>
        simp only [stat]
        split
        · exact .ends looking
        · exact @Step.looks s (.opening _) (.inr looking) trivial
    · cases can
  | attempt outcome =>
    simp only [guard] at can
    split at can
    · rename_i attempts at_
      simp only [exec, at_]
      exact attempt_step at_
    · cases can
  | publish =>
    simp only [guard] at can
    split at can
    · rename_i sn at_
      simp only [exec, at_]
      exact publish_step at_
    · cases can

lemma Reopener.Looking.ne {r : Reopener} (looking : r.Looking) :
    r ≠ .retiring ∧ r ≠ .rejecting ∧ ∀ n, r ≠ .publishing n := by
  cases r <;> simp_all [Reopener.Looking]

/-! ## The ends of swaps -/

/-- The number of calls of `snapshot.release` with something after them. -/
def before (calls : List Call) (after : After) : Nat := calls.countP fun c => decide (c.after = after)

/-- The swap waits for one call of `snapshot.release`, and only where it says so. -/
structure Tails (calls : List Call) (r : Reopener) : Prop where
  swapped : before calls .swapped = if r = .retiring then 1 else 0
  rejected : before calls .rejected = if r = .rejecting then 1 else 0

lemma Tails.of_ne {calls : List Call} {r r' : Reopener} (inv : Tails calls r)
    (was : r ≠ .retiring ∧ r ≠ .rejecting) (is : r' ≠ .retiring ∧ r' ≠ .rejecting) : Tails calls r' := by
  constructor
  · rw [inv.swapped, if_neg was.1, if_neg is.1]
  · rw [inv.rejected, if_neg was.2, if_neg is.2]

lemma Tails.cons {calls : List Call} {r : Reopener} {sn : Nat} {pc : ReleasePc} (inv : Tails calls r) :
    Tails (⟨sn, pc, .done⟩ :: calls) r := by
  constructor
  · simpa [before] using inv.swapped
  · simpa [before] using inv.rejected

lemma Tails.reopener {call : Call} {calls : List Call} {r : Reopener} (inv : Tails calls r)
    (mem : call ∈ calls) :
    (call.after = .swapped → r = .retiring) ∧ (call.after = .rejected → r = .rejecting) := by
  have waited : ∀ {after}, call.after = after → before calls after ≠ 0 := fun same =>
    Nat.ne_of_gt (List.countP_pos_iff.mpr ⟨call, mem, by simpa using same⟩)
  constructor <;>
    intro after <;>
    by_contra other <;>
    apply waited after
  · rw [inv.swapped, if_neg other]
  · rw [inv.rejected, if_neg other]

lemma Tails.finish {call : Call} (inv : Tails s.calls s.reopener) (mem : call ∈ s.calls)
    (calls : t.calls = s.calls.erase call) (reopener : t.reopener = s.reopener) :
    Tails (finish call.after t).calls (finish call.after t).reopener := by
  obtain ⟨swapped, rejected⟩ := inv
  unfold before at swapped rejected
  cases after : call.after <;>
    constructor <;>
    simp only [Store.finish, before, calls, reopener, List.countP_erase, mem, after, true_and,
      decide_eq_true_eq] <;>
    grind

lemma Tails.step (inv : Tails s.calls s.reopener) (step : Step s t) : Tails t.calls t.reopener := by
  cases step with
  | same | acquired | unavailable | unheld | closedEmpty => exact inv
  | released | closed => exact inv.cons
  | dropped mem => exact inv.finish mem rfl rfl
  | closedDb mem => exact inv.finish mem rfl rfl
  | droppedLast mem =>
    obtain ⟨swapped, rejected⟩ := inv
    unfold before at swapped rejected
    constructor <;>
      simp only [before, List.countP_cons, List.countP_erase, mem, true_and] <;>
      grind
  | looks source target =>
    refine inv.of_ne ?_ ⟨target.ne.1, target.ne.2.1⟩
    obtain idle | looking := source
    · simp [idle]
    · exact ⟨looking.ne.1, looking.ne.2.1⟩
  | opens looking target => exact inv.of_ne ⟨looking.ne.1, looking.ne.2.1⟩ ⟨target.ne.1, target.ne.2.1⟩
  | ends looking | openEnds looking | verified looking =>
    exact inv.of_ne ⟨looking.ne.1, looking.ne.2.1⟩ (by simp [State.unswapped])
  | rejected publishing | swapped publishing =>
    obtain ⟨swapped, rejected⟩ := inv
    unfold before at swapped rejected
    constructor <;> simp_all [before, State.release]
  | first publishing =>
    rw [publishing] at inv
    exact inv.of_ne (by simp) (by simp)

end PjCloud.Store
