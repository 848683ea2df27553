import PjCloud.Store.Inversion

/-!
# Counting the references

Who holds a reference on a snapshot: the leases that are not released, the calls of `snapshot.release` that
have yet to count down, the store itself, and the swap that has yet to publish it. `Counted` is that `refs` is
their number, and that a database has been closed, or is about to be, exactly when it is zero.
-/

namespace PjCloud.Store
open Lib

variable {s t : State}

def live (leases : List Lease) (n : Nat) : Nat := leases.countP fun l => decide (l = ⟨some n, false⟩)

/-- The calls of `snapshot.release` at a point. -/
def callsAt (calls : List Call) (pc : ReleasePc) (n : Nat) : Nat :=
  calls.countP fun c => decide (c.sn = n ∧ c.pc = pc)

def current (cur : Option Nat) (refLive : Bool) (n : Nat) : Nat := if cur = some n ∧ refLive = true then 1 else 0

def unpublished (r : Reopener) (n : Nat) : Nat := if r = .publishing n then 1 else 0

def State.holders (s : State) (n : Nat) : Nat :=
  live s.leases n + callsAt s.calls .dropping n + current s.cur s.curRefLive n + unpublished s.reopener n

section Counts
variable {leases : List Lease} {calls : List Call} {call : Call} {cur : Option Nat} {l m n : Nat}
  {pc pc' : ReleasePc} {after : After}

lemma live_acquire : live (leases ++ [⟨some n, false⟩]) m = live leases m + if n = m then 1 else 0 := by
  simp [live, List.countP_append, List.countP_singleton]

lemma live_unavailable : live (leases ++ [⟨cur, true⟩]) m = live leases m := by
  simp [live]

lemma live_release (held : leases[l]? = some ⟨some n, false⟩) :
    live (leases.set l ⟨some n, true⟩) m + (if n = m then 1 else 0) = live leases m := by
  obtain ⟨lt, value⟩ := List.getElem?_eq_some_iff.mp held
  have pos : n = m → 0 < live leases m := by
    rintro rfl
    exact List.countP_pos_iff.mpr ⟨_, value ▸ List.getElem_mem lt, by simp⟩
  unfold live at pos ⊢
  rw [List.countP_set lt, value]
  grind

lemma live_unheld (held : leases[l]? = some ⟨none, false⟩) :
    live (leases.set l ⟨none, true⟩) m = live leases m := by
  obtain ⟨lt, value⟩ := List.getElem?_eq_some_iff.mp held
  unfold live
  rw [List.countP_set lt, value]
  simp

lemma callsAt_cons : callsAt (⟨n, pc', after⟩ :: calls) pc m =
    callsAt calls pc m + if n = m ∧ pc' = pc then 1 else 0 := by
  simp [callsAt, List.countP_cons]

lemma callsAt_erase (mem : call ∈ calls) :
    callsAt (calls.erase call) pc m + (if call.sn = m ∧ call.pc = pc then 1 else 0) = callsAt calls pc m := by
  have pos : call.sn = m ∧ call.pc = pc → 0 < callsAt calls pc m := fun same =>
    List.countP_pos_iff.mpr ⟨call, mem, by simpa using same⟩
  unfold callsAt at pos ⊢
  rw [List.countP_erase]
  grind

lemma callsAt_pos (mem : call ∈ calls) : 0 < callsAt calls call.pc call.sn :=
  List.countP_pos_iff.mpr ⟨call, mem, by simp⟩

lemma unpublished_eq_zero {r : Reopener} (other : ∀ n, r ≠ .publishing n) : unpublished r m = 0 :=
  if_neg (other m)

end Counts

/-- `refs` is the number of references, and a database is closed when it has none. -/
structure Counted (s : State) : Prop where
  refs : ∀ n < s.nsnaps, (s.snaps n).refs = s.holders n
  unused : ∀ n, s.nsnaps ≤ n → s.holders n = 0 ∧ callsAt s.calls .closing n = 0
  used : ∀ n < s.nsnaps, 0 < s.holders n → s.dbs (s.snaps n).db = 0 ∧ callsAt s.calls .closing n = 0
  closes : ∀ n < s.nsnaps, s.holders n = 0 → s.dbs (s.snaps n).db + callsAt s.calls .closing n = 1
  opened : ∀ n < s.nsnaps, (s.snaps n).db < s.ndbs
  apart : ∀ m < s.nsnaps, ∀ n < s.nsnaps, (s.snaps m).db = (s.snaps n).db → m = n
  orphans : ∀ d < s.ndbs, (∀ n < s.nsnaps, (s.snaps n).db ≠ d) → s.dbs d = 1
  held : s.closed = false → s.cur ≠ none → s.curRefLive = true
  shut : s.closed = true → s.curRefLive = false

lemma Counted.frame (inv : Counted s) (holders : ∀ n, t.holders n = s.holders n)
    (closing : ∀ n, callsAt t.calls .closing n = callsAt s.calls .closing n)
    (snaps : t.snaps = s.snaps) (nsnaps : t.nsnaps = s.nsnaps) (dbs : t.dbs = s.dbs) (ndbs : t.ndbs = s.ndbs)
    (held : t.closed = false → t.cur ≠ none → t.curRefLive = true)
    (shut : t.closed = true → t.curRefLive = false) : Counted t := by
  constructor
  · simpa only [holders, snaps, nsnaps] using inv.refs
  · simpa only [holders, closing, nsnaps] using inv.unused
  · simpa only [holders, closing, snaps, nsnaps, dbs] using inv.used
  · simpa only [holders, closing, snaps, nsnaps, dbs] using inv.closes
  · simpa only [snaps, nsnaps, ndbs] using inv.opened
  · simpa only [snaps, nsnaps] using inv.apart
  · simpa only [snaps, nsnaps, dbs, ndbs] using inv.orphans
  · exact held
  · exact shut

lemma Counted.open (inv : Counted s) : Counted (s.open 1) := by
  have old : ∀ n < s.nsnaps, (s.open 1).dbs (s.snaps n).db = s.dbs (s.snaps n).db := fun n lt =>
    Function.update_of_ne (Nat.ne_of_lt (inv.opened n lt)) _ _
  constructor
  · exact inv.refs
  · exact inv.unused
  · intro n lt used
    exact (old n lt).symm ▸ inv.used n lt used
  · intro n lt free
    exact (old n lt).symm ▸ inv.closes n lt free
  · exact fun n lt => Nat.lt_succ_of_lt (inv.opened n lt)
  · exact inv.apart
  · intro d lt unused
    by_cases new : d = s.ndbs
    · rw [new]
      exact Function.update_self _ _ _
    · have old := inv.orphans d (Nat.lt_of_le_of_ne (Nat.le_of_lt_succ lt) new) unused
      rw [← old]
      exact Function.update_of_ne new _ _
  · exact inv.held
  · exact inv.shut

lemma Counted.bound {n : Nat} (inv : Counted s) (used : 0 < s.holders n) : n < s.nsnaps := by
  by_contra beyond
  have := (inv.unused n (Nat.le_of_not_lt beyond)).1
  omega

lemma Counted.recount {n : Nat} {refs : Int} (inv : Counted s) (used : 0 < s.holders n)
    (others : ∀ m, m ≠ n → t.holders m = s.holders m ∧ callsAt t.calls .closing m = callsAt s.calls .closing m)
    (count : refs = t.holders n)
    (closing : callsAt t.calls .closing n = callsAt s.calls .closing n + if t.holders n = 0 then 1 else 0)
    (snaps : t.snaps = Function.update s.snaps n { s.snaps n with refs := refs })
    (nsnaps : t.nsnaps = s.nsnaps) (dbs : t.dbs = s.dbs) (ndbs : t.ndbs = s.ndbs)
    (held : t.closed = false → t.cur ≠ none → t.curRefLive = true)
    (shut : t.closed = true → t.curRefLive = false) : Counted t := by
  have bound := inv.bound used
  have before := inv.used n bound used
  have db : ∀ m, (t.snaps m).db = (s.snaps m).db := by
    intro m
    rw [snaps, Function.update_apply]
    split <;> simp_all
  constructor
  · intro m lt
    rw [nsnaps] at lt
    rw [snaps, Function.update_apply]
    split
    · rename_i same
      rw [same]
      exact count
    · rename_i other
      rw [(others m other).1]
      exact inv.refs m lt
  · intro m le
    rw [nsnaps] at le
    have other : m ≠ n := by omega
    rw [(others m other).1, (others m other).2]
    exact inv.unused m le
  · intro m lt
    rw [nsnaps] at lt
    rw [db, dbs]
    by_cases same : m = n
    · subst same
      intro used
      rw [closing, if_neg (Nat.ne_of_gt used)]
      omega
    · rw [(others m same).1, (others m same).2]
      exact inv.used m lt
  · intro m lt
    rw [nsnaps] at lt
    rw [db, dbs]
    by_cases same : m = n
    · subst same
      intro free
      rw [closing, if_pos free]
      omega
    · rw [(others m same).1, (others m same).2]
      exact inv.closes m lt
  · simpa only [db, nsnaps, ndbs] using inv.opened
  · simpa only [db, nsnaps] using inv.apart
  · simpa only [db, nsnaps, dbs, ndbs] using inv.orphans
  · exact held
  · exact shut

lemma Counted.finish {after : After} (inv : Counted s) (ended : after = .done ∨ ∀ n, s.reopener ≠ .publishing n) :
    Counted (finish after s) := by
  cases after with
  | done => exact inv
  | swapped | rejected =>
    have ended : ∀ n, s.reopener ≠ .publishing n := by simpa using ended
    refine inv.frame ?_ (fun _ => rfl) rfl rfl rfl rfl inv.held inv.shut
    intro n
    simp [State.holders, Store.finish, unpublished_eq_zero ended, unpublished_eq_zero]

lemma Tails.ended {call : Call} {calls : List Call} {r : Reopener} (inv : Tails calls r) (mem : call ∈ calls) :
    call.after = .done ∨ ∀ n, r ≠ .publishing n := by
  obtain ⟨swapped, rejected⟩ := inv.reopener mem
  cases after : call.after with
  | done => exact .inl rfl
  | swapped => simp [swapped after]
  | rejected => simp [rejected after]

lemma Counted.dropping {call : Call} (inv : Counted s) (mem : call ∈ s.calls) (pc : call.pc = .dropping) :
    0 < s.holders call.sn ∧ (s.snaps call.sn).refs = s.holders call.sn := by
  have counted := callsAt_pos mem
  rw [pc] at counted
  have used : 0 < s.holders call.sn := by
    unfold State.holders
    omega
  exact ⟨used, inv.refs _ (inv.bound used)⟩

/-- A call of `snapshot.release` counts down. -/
lemma Counted.drop {call : Call} (inv : Counted s) (mem : call ∈ s.calls) (pc : call.pc = .dropping)
    (more : (s.snaps call.sn).refs - 1 ≠ 0) :
    Counted { s with
      snaps := Function.update s.snaps call.sn
        { s.snaps call.sn with refs := (s.snaps call.sn).refs - 1 }
      calls := s.calls.erase call } := by
  obtain ⟨used, refs⟩ := inv.dropping mem pc
  have dropping := fun m => @callsAt_erase s.calls call m .dropping mem
  have closing := fun m => @callsAt_erase s.calls call m .closing mem
  unfold State.holders at refs
  refine inv.recount used ?_ ?_ ?_ rfl rfl rfl rfl inv.held inv.shut
  · intro m other
    have := dropping m
    have := closing m
    simp only [State.holders]
    grind
  · have := dropping call.sn
    simp only [State.holders]
    grind
  · have := dropping call.sn
    have := closing call.sn
    simp only [State.holders]
    grind

/-- The last call of `snapshot.release` on a snapshot counts down. -/
lemma Counted.dropLast {call : Call} (inv : Counted s) (mem : call ∈ s.calls) (pc : call.pc = .dropping)
    (last : (s.snaps call.sn).refs - 1 = 0) :
    Counted { s with
      snaps := Function.update s.snaps call.sn
        { s.snaps call.sn with refs := (s.snaps call.sn).refs - 1 }
      calls := { call with pc := .closing } :: s.calls.erase call } := by
  obtain ⟨used, refs⟩ := inv.dropping mem pc
  have dropping := fun m => @callsAt_erase s.calls call m .dropping mem
  have closing := fun m => @callsAt_erase s.calls call m .closing mem
  unfold State.holders at refs
  refine inv.recount used ?_ ?_ ?_ rfl rfl rfl rfl inv.held inv.shut
  · intro m other
    have := dropping m
    have := closing m
    simp only [State.holders, callsAt_cons]
    grind
  · have := dropping call.sn
    simp only [State.holders, callsAt_cons]
    grind
  · have := dropping call.sn
    have := closing call.sn
    simp only [State.holders, callsAt_cons]
    grind

lemma Counted.closeDb {call : Call} (inv : Counted s) (mem : call ∈ s.calls) (pc : call.pc = .closing) :
    Counted { s with
      dbs := Function.update s.dbs (s.snaps call.sn).db (s.dbs (s.snaps call.sn).db + 1)
      calls := s.calls.erase call } := by
  have counted := callsAt_pos mem
  rw [pc] at counted
  have bound : call.sn < s.nsnaps := by
    by_contra beyond
    have := (inv.unused _ (Nat.le_of_not_lt beyond)).2
    omega
  have free : s.holders call.sn = 0 := by
    by_contra used
    have := (inv.used _ bound (Nat.pos_of_ne_zero used)).2
    omega
  have dropping : ∀ m, callsAt (s.calls.erase call) .dropping m = callsAt s.calls .dropping m := by
    intro m
    have := @callsAt_erase s.calls call m .dropping mem
    grind
  have closing := fun m => @callsAt_erase s.calls call m .closing mem
  have holders : ∀ m, State.holders { s with
      dbs := Function.update s.dbs (s.snaps call.sn).db (s.dbs (s.snaps call.sn).db + 1)
      calls := s.calls.erase call } m = s.holders m := by
    intro m
    simp only [State.holders, dropping]
  have other : ∀ m < s.nsnaps, m ≠ call.sn → (s.snaps m).db ≠ (s.snaps call.sn).db := fun m lt ne same =>
    ne (inv.apart m lt _ bound same)
  constructor
  · simpa only [holders] using inv.refs
  · intro m le
    have before := inv.unused m le
    have := closing m
    rw [holders]
    dsimp only
    omega
  · intro m lt used
    rw [holders] at used
    have ne : m ≠ call.sn := by
      rintro rfl
      omega
    have before := inv.used m lt used
    have := closing m
    dsimp only
    rw [Function.update_of_ne (other m lt ne)]
    omega
  · intro m lt unused
    rw [holders] at unused
    have before := inv.closes m lt unused
    have := closing m
    dsimp only
    by_cases same : m = call.sn
    · subst same
      rw [Function.update_self]
      rw [if_pos ⟨rfl, pc⟩] at this
      omega
    · rw [Function.update_of_ne (other m lt same)]
      rw [if_neg fun h => same h.1.symm] at this
      omega
  · exact inv.opened
  · exact inv.apart
  · intro d lt unused
    have before := inv.orphans d lt unused
    dsimp only
    rwa [Function.update_of_ne (unused call.sn bound).symm]
  · exact inv.held
  · exact inv.shut

lemma Counted.move {r : Reopener} {results : List Reopened} (inv : Counted s)
    (source : ∀ n, s.reopener ≠ .publishing n) (target : ∀ n, r ≠ .publishing n) :
    Counted { s with reopener := r, results := results } := by
  refine inv.frame ?_ (fun _ => rfl) rfl rfl rfl rfl inv.held inv.shut
  intro m
  simp only [State.holders, unpublished_eq_zero source, unpublished_eq_zero target]

lemma Counted.verify {ident : FileIdentity} {gen : Token} {ordinal : UInt64} (inv : Counted s)
    (looking : ∀ n, s.reopener ≠ .publishing n) :
    Counted { s.open 0 with
      ordinal := ordinal
      snaps := Function.update s.snaps s.nsnaps ⟨s.ndbs, ident, gen, 1⟩
      nsnaps := s.nsnaps + 1
      reopener := .publishing s.nsnaps } := by
  have old : ∀ m < s.nsnaps, Function.update s.snaps s.nsnaps ⟨s.ndbs, ident, gen, 1⟩ m = s.snaps m :=
    fun m lt => Function.update_of_ne (Nat.ne_of_lt lt) _ _
  have oldDb : ∀ m < s.nsnaps, Function.update s.dbs s.ndbs 0 (s.snaps m).db = s.dbs (s.snaps m).db :=
    fun m lt => Function.update_of_ne (Nat.ne_of_lt (inv.opened m lt)) _ _
  have holders : ∀ m, State.holders { s.open 0 with
      ordinal := ordinal
      snaps := Function.update s.snaps s.nsnaps ⟨s.ndbs, ident, gen, 1⟩
      nsnaps := s.nsnaps + 1
      reopener := .publishing s.nsnaps } m = s.holders m + if s.nsnaps = m then 1 else 0 := by
    intro m
    simp only [State.holders, State.open, unpublished_eq_zero looking]
    simp only [unpublished]
    grind
  have fresh := inv.unused s.nsnaps (Nat.le_refl _)
  constructor
  · intro m lt
    rw [holders]
    obtain lt | rfl := Nat.lt_succ_iff_lt_or_eq.mp lt
    · have before := inv.refs m lt
      dsimp only
      rw [old m lt, if_neg (Nat.ne_of_gt lt), before]
      rfl
    · dsimp only
      rw [Function.update_self, if_pos rfl, fresh.1]
      rfl
  · intro m le
    have before := inv.unused m (Nat.le_of_succ_le le)
    rw [holders, if_neg (Nat.ne_of_lt le)]
    exact before
  · intro m lt used
    obtain lt | rfl := Nat.lt_succ_iff_lt_or_eq.mp lt
    · rw [holders, if_neg (Nat.ne_of_gt lt)] at used
      dsimp only [State.open]
      rw [old m lt, oldDb m lt]
      exact inv.used m lt used
    · dsimp only [State.open]
      rw [Function.update_self, Function.update_self]
      exact ⟨rfl, fresh.2⟩
  · intro m lt free
    rw [holders] at free
    obtain lt | rfl := Nat.lt_succ_iff_lt_or_eq.mp lt
    · rw [if_neg (Nat.ne_of_gt lt)] at free
      dsimp only [State.open]
      rw [old m lt, oldDb m lt]
      exact inv.closes m lt free
    · rw [if_pos rfl] at free
      omega
  · intro m lt
    obtain lt | rfl := Nat.lt_succ_iff_lt_or_eq.mp lt
    · dsimp only [State.open]
      rw [old m lt]
      exact Nat.lt_succ_of_lt (inv.opened m lt)
    · dsimp only [State.open]
      rw [Function.update_self]
      exact Nat.lt_succ_self _
  · intro m ltm n ltn same
    dsimp only at same
    obtain ltm | rfl := Nat.lt_succ_iff_lt_or_eq.mp ltm <;> obtain ltn | rfl := Nat.lt_succ_iff_lt_or_eq.mp ltn
    · rw [old m ltm, old n ltn] at same
      exact inv.apart m ltm n ltn same
    · rw [old m ltm, Function.update_self] at same
      exact absurd same (Nat.ne_of_lt (inv.opened m ltm))
    · rw [old n ltn, Function.update_self] at same
      exact absurd same.symm (Nat.ne_of_lt (inv.opened n ltn))
    · rfl
  · intro d lt unused
    have ne : d ≠ s.ndbs := by
      have := unused s.nsnaps (Nat.lt_succ_self _)
      dsimp only at this
      rw [Function.update_self] at this
      exact this.symm
    have before : s.dbs d = 1 := by
      apply inv.orphans d (Nat.lt_of_le_of_ne (Nat.le_of_lt_succ lt) ne)
      intro n ltn same
      apply unused n (Nat.lt_succ_of_lt ltn)
      dsimp only
      rw [old n ltn, same]
    dsimp only [State.open]
    rwa [Function.update_of_ne ne]
  · exact inv.held
  · exact inv.shut

lemma Counted.step (inv : Counted s) (tails : Tails s.calls s.reopener) (step : Step s t) : Counted t := by
  cases step with
  | same => exact inv
  | @acquired n opened cur =>
    have refLive := inv.held opened (by simp [cur])
    have used : 0 < s.holders n := by
      simp only [State.holders, current, cur, refLive]
      grind
    have refs := inv.refs n (inv.bound used)
    unfold State.holders at refs
    refine inv.recount used ?_ ?_ ?_ rfl rfl rfl rfl inv.held inv.shut
    · intro m other
      simp only [State.holders, live_acquire]
      grind
    · simp only [State.holders, live_acquire]
      grind
    · simp only [State.holders, live_acquire]
      grind
  | unavailable missing =>
    refine inv.frame ?_ (fun _ => rfl) rfl rfl rfl rfl inv.held inv.shut
    intro m
    simp only [State.holders, live_unavailable]
  | @released l n held =>
    refine inv.frame ?_ ?_ rfl rfl rfl rfl inv.held inv.shut
    · intro m
      have := live_release (m := m) held
      simp only [State.holders, State.release, callsAt_cons]
      grind
    · intro m
      simp [State.release, callsAt_cons]
  | unheld held =>
    refine inv.frame ?_ (fun _ => rfl) rfl rfl rfl rfl inv.held inv.shut
    intro m
    simp only [State.holders, live_unheld held]
  | @closed n opened cur live =>
    refine inv.frame ?_ ?_ rfl rfl rfl rfl (by simp [State.release]) (by simp [State.release])
    · intro m
      simp only [State.holders, State.release, callsAt_cons, current]
      grind
    · intro m
      simp [State.release, callsAt_cons]
  | closedEmpty opened unheld =>
    refine inv.frame ?_ (fun _ => rfl) rfl rfl rfl rfl (by simp) (by simp)
    intro m
    have := unheld m
    simp only [State.holders, current]
    grind
  | dropped mem pc more => exact (inv.drop mem pc more).finish (tails.ended mem)
  | droppedLast mem pc last => exact inv.dropLast mem pc last
  | closedDb mem pc => exact (inv.closeDb mem pc).finish (tails.ended mem)
  | looks source target =>
    refine inv.move ?_ target.ne.2.2
    obtain idle | looking := source
    · simp [idle]
    · exact looking.ne.2.2
  | opens looking target => exact inv.open.move looking.ne.2.2 target.ne.2.2
  | ends looking => exact inv.move looking.ne.2.2 (by simp)
  | openEnds looking => exact inv.open.move looking.ne.2.2 (by simp)
  | verified looking => exact inv.verify looking.ne.2.2
  | @rejected sn publishing closed =>
    refine inv.frame ?_ ?_ rfl rfl rfl rfl inv.held inv.shut
    · intro m
      simp only [State.holders, State.release, callsAt_cons, unpublished, publishing]
      grind
    · intro m
      simp [State.release, callsAt_cons]
  | @swapped sn old publishing opened cur live =>
    refine inv.frame ?_ ?_ rfl rfl rfl rfl (by simp [State.release]) (by simp [State.release, opened])
    · intro m
      simp only [State.holders, State.release, callsAt_cons, unpublished, publishing, current, cur, live]
      grind
    · intro m
      simp [State.release, callsAt_cons]
  | @first sn publishing opened unheld =>
    refine inv.frame ?_ (fun _ => rfl) rfl rfl rfl rfl (by simp) (by simp [opened])
    intro m
    have := unheld m
    simp only [State.holders, unpublished, publishing, current]
    grind

end PjCloud.Store
