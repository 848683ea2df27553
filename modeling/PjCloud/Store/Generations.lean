import Mathlib.Data.List.Nodup
import PjCloud.Store.Counting

/-!
# Generations

What the leases are worth to a request: its database is open, and its token names the publication that the
database came with. The tokens are numbered by the ordinal, which has 64 bits, so they are different as long as
there have not been `2^64` of them.
-/

namespace PjCloud.Store
open Lib

variable {s t : State}

/-- How far the ordinal is ahead of the publications. -/
def Reopener.ahead : Reopener → Nat
  | .publishing _ => 1
  | .rejecting => 1
  | _ => 0

/-- The publications are numbered by the ordinal, and only they are served. -/
structure Ordered (s : State) : Prop where
  ordinal : s.ordinal = UInt64.ofNat (s.published.length + s.reopener.ahead)
  tokens : s.published.map Prod.snd =
    (List.range s.published.length).map fun k => newGenToken s.epoch (UInt64.ofNat (k + 1))
  next : ∀ n, s.reopener = .publishing n → (s.snaps n).gen = newGenToken s.epoch s.ordinal
  served : ∀ n, (s.cur = some n ∨ ∃ l ∈ s.leases, l.sn = some n) →
    n < s.nsnaps ∧ ((s.snaps n).db, (s.snaps n).gen) ∈ s.published

lemma Ordered.frame (inv : Ordered s) (epoch : t.epoch = s.epoch) (published : t.published = s.published)
    (ordinal : t.ordinal = UInt64.ofNat (s.published.length + t.reopener.ahead))
    (next : ∀ n, t.reopener = .publishing n → (t.snaps n).gen = newGenToken s.epoch t.ordinal)
    (snaps : ∀ n < s.nsnaps, (t.snaps n).db = (s.snaps n).db ∧ (t.snaps n).gen = (s.snaps n).gen)
    (nsnaps : s.nsnaps ≤ t.nsnaps) (cur : t.cur = s.cur)
    (leases : ∀ l ∈ t.leases, l.sn = s.cur ∨ ∃ l' ∈ s.leases, l.sn = l'.sn) : Ordered t := by
  constructor
  · rw [published]
    exact ordinal
  · rw [published, epoch]
    exact inv.tokens
  · rw [epoch]
    exact next
  · intro n held
    have before : s.cur = some n ∨ ∃ l ∈ s.leases, l.sn = some n := by
      obtain held | ⟨l, mem, sn⟩ := held
      · exact .inl (cur ▸ held)
      · obtain same | ⟨l', mem', same⟩ := leases l mem
        · exact .inl (same.symm.trans sn)
        · exact .inr ⟨l', mem', same.symm.trans sn⟩
    obtain ⟨lt, mem⟩ := inv.served n before
    rw [(snaps n lt).1, (snaps n lt).2, published]
    exact ⟨Nat.lt_of_lt_of_le lt nsnaps, mem⟩

lemma Ordered.lease (inv : Ordered s) (leases : ∀ l ∈ t.leases, l.sn = s.cur ∨ ∃ l' ∈ s.leases, l.sn = l'.sn)
    (snaps : ∀ n, (t.snaps n).db = (s.snaps n).db ∧ (t.snaps n).gen = (s.snaps n).gen)
    (rest : t = { s with
      snaps := t.snaps, dbs := t.dbs, calls := t.calls, leases := t.leases, closed := t.closed
      curRefLive := t.curRefLive }) : Ordered t := by
  rw [rest]
  refine inv.frame rfl rfl inv.ordinal ?_ (fun n _ => snaps n) (Nat.le_refl _) rfl leases
  intro n publishing
  dsimp only
  rw [(snaps n).2]
  exact inv.next n publishing

lemma kept {l : Lease} (mem : l ∈ s.leases) : l.sn = s.cur ∨ ∃ l' ∈ s.leases, l.sn = l'.sn :=
  .inr ⟨l, mem, rfl⟩

lemma kept_set {i : Nat} {sn : Option Nat} (held : s.leases[i]? = some ⟨sn, false⟩) {l : Lease}
    (mem : l ∈ s.leases.set i ⟨sn, true⟩) : l.sn = s.cur ∨ ∃ l' ∈ s.leases, l.sn = l'.sn := by
  obtain mem | rfl := List.mem_or_eq_of_mem_set mem
  · exact kept mem
  · exact .inr ⟨_, List.mem_of_getElem? held, rfl⟩

/-- The lease that `Acquire` makes is on the snapshot in use. -/
lemma kept_append {released : Bool} {l : Lease} (mem : l ∈ s.leases ++ [⟨s.cur, released⟩]) :
    l.sn = s.cur ∨ ∃ l' ∈ s.leases, l.sn = l'.sn := by
  obtain mem | last := List.mem_append.mp mem
  · exact kept mem
  · exact .inl (by rw [List.mem_singleton.mp last])

lemma recount_served {n : Nat} {refs : Int} (m : Nat) :
    (Function.update s.snaps n { s.snaps n with refs := refs } m).db = (s.snaps m).db ∧
    (Function.update s.snaps n { s.snaps n with refs := refs } m).gen = (s.snaps m).gen := by
  rw [Function.update_apply]
  split <;> simp_all

/-- The end of a call of `snapshot.release`. -/
lemma Ordered.finish {call : Call} (inv : Ordered s) (tails : Tails s.calls s.reopener) (mem : call ∈ s.calls)
    (snaps : ∀ n, (t.snaps n).db = (s.snaps n).db ∧ (t.snaps n).gen = (s.snaps n).gen)
    (rest : t = { s with snaps := t.snaps, dbs := t.dbs, calls := t.calls }) :
    Ordered (finish call.after t) := by
  obtain ⟨swapped, rejected⟩ := tails.reopener mem
  rw [rest]
  cases after : call.after with
  | done => exact inv.lease (fun _ => kept) snaps rfl
  | swapped =>
    refine inv.frame rfl rfl ?_ (by simp [Store.finish]) (fun n _ => snaps n) (Nat.le_refl _) rfl (fun _ => kept)
    simp [Store.finish, Reopener.ahead, inv.ordinal, swapped after]
  | rejected =>
    refine inv.frame rfl rfl ?_ (by simp [Store.finish]) (fun n _ => snaps n) (Nat.le_refl _) rfl (fun _ => kept)
    simp [Store.finish, Reopener.ahead, inv.ordinal, rejected after]

lemma Reopener.Looking.ahead {r : Reopener} (looking : r.Looking) : r.ahead = 0 := by
  cases r <;> simp_all [Reopener.Looking, Reopener.ahead]

lemma Ordered.move {r : Reopener} (inv : Ordered s) (source : s.reopener.ahead = 0) (target : r.ahead = 0)
    (rest : t = { s with reopener := r, results := t.results, dbs := t.dbs, ndbs := t.ndbs }) : Ordered t := by
  rw [rest]
  refine inv.frame rfl rfl ?_ ?_ (fun _ _ => ⟨rfl, rfl⟩) (Nat.le_refl _) rfl (fun _ => kept)
  · dsimp only
    rw [target, inv.ordinal, source]
  · rintro n rfl
    cases target

lemma Ordered.publish {sn : Nat} (inv : Ordered s) (counted : Counted s) (publishing : s.reopener = .publishing sn)
    (published : t.published = s.published ++ [((s.snaps sn).db, (s.snaps sn).gen)]) (cur : t.cur = some sn)
    (done : t.reopener.ahead = 0)
    (rest : t = { s with
      published := t.published, cur := t.cur, curRefLive := t.curRefLive, calls := t.calls
      reopener := t.reopener, results := t.results }) : Ordered t := by
  have ordinal := inv.ordinal
  have next := inv.next sn publishing
  rw [publishing] at ordinal
  have bound : sn < s.nsnaps := by
    apply counted.bound
    simp only [State.holders, unpublished, publishing]
    simp
  rw [rest]
  constructor
  · dsimp only
    rw [published, List.length_append, ordinal, done]
    rfl
  · dsimp only
    rw [published, List.map_append, inv.tokens, List.length_append, List.length_singleton, List.range_succ,
      List.map_append, List.map_singleton, List.map_singleton, next, ordinal]
    rfl
  · intro n other
    dsimp only at other
    rw [other] at done
    cases done
  · intro n held
    dsimp only at held ⊢
    rw [published]
    rw [cur] at held
    obtain same | held := held
    · cases same
      exact ⟨bound, List.mem_append_right _ (List.mem_singleton.mpr rfl)⟩
    · obtain ⟨lt, mem⟩ := inv.served n (.inr held)
      exact ⟨lt, List.mem_append_left _ mem⟩

lemma Ordered.step (inv : Ordered s) (tails : Tails s.calls s.reopener) (counted : Counted s)
    (step : Step s t) : Ordered t := by
  cases step with
  | same => exact inv
  | acquired opened cur =>
    refine inv.lease ?_ (fun m => recount_served m) rfl
    rw [← cur]
    exact fun _ => kept_append
  | unavailable => exact inv.lease (fun _ => kept_append) (fun _ => ⟨rfl, rfl⟩) rfl
  | released held => exact inv.lease (fun _ => kept_set held) (fun _ => ⟨rfl, rfl⟩) rfl
  | unheld held => exact inv.lease (fun _ => kept_set held) (fun _ => ⟨rfl, rfl⟩) rfl
  | closed | closedEmpty => exact inv.lease (fun _ => kept) (fun _ => ⟨rfl, rfl⟩) rfl
  | dropped mem => exact inv.finish tails mem (fun m => recount_served m) rfl
  | droppedLast => exact inv.lease (fun _ => kept) (fun m => recount_served m) rfl
  | closedDb mem => exact inv.finish tails mem (fun _ => ⟨rfl, rfl⟩) rfl
  | looks source target =>
    refine inv.move ?_ target.ahead rfl
    obtain idle | looking := source
    · rw [idle]
      rfl
    · exact looking.ahead
  | opens looking target => exact inv.move looking.ahead target.ahead rfl
  | ends looking | openEnds looking => exact inv.move (r := .idle) looking.ahead rfl rfl
  | verified looking =>
    refine inv.frame rfl rfl ?_ ?_ ?_ (Nat.le_succ _) rfl (fun _ => kept)
    · dsimp only [State.open]
      rw [inv.ordinal, looking.ahead]
      simp [Reopener.ahead]
    · rintro n ⟨⟩
      dsimp only
      rw [Function.update_self]
    · intro n lt
      dsimp only
      rw [Function.update_of_ne (Nat.ne_of_lt lt)]
      exact ⟨rfl, rfl⟩
  | rejected publishing =>
    refine inv.frame rfl rfl ?_ (by simp [State.release]) (fun _ _ => ⟨rfl, rfl⟩) (Nat.le_refl _) rfl (fun _ => kept)
    dsimp only [State.release]
    rw [inv.ordinal, publishing]
    rfl
  | swapped publishing => exact inv.publish counted publishing rfl rfl rfl rfl
  | first publishing => exact inv.publish counted publishing rfl rfl rfl rfl

/-! ## Runs -/

/-- The invariants together. -/
structure Sound (s : State) : Prop where
  tails : Tails s.calls s.reopener
  counted : Counted s
  ordered : Ordered s

lemma sound_newAwaiting {epoch : List UInt8} : Sound (newAwaiting epoch) := by
  refine ⟨⟨rfl, rfl⟩, ?_, ?_⟩
  · constructor <;> simp [newAwaiting, State.holders, live, callsAt, current, unpublished]
  · constructor <;> simp [newAwaiting, Reopener.ahead]

lemma sound_openReadOnly {epoch : List UInt8} {ident : FileIdentity} {raced : Nat} :
    Sound (openReadOnly epoch ident raced) := by
  refine ⟨⟨rfl, rfl⟩, ?_, ?_⟩
  · constructor <;> simp [openReadOnly, State.holders, live, callsAt, current, unpublished] <;> omega
  · constructor <;> simp [openReadOnly, Reopener.ahead]

/-- The invariants hold in every reached state. -/
lemma sound_of_reach (rch : machine.Reach s) : Sound s := by
  refine rch.invariant ?_ ?_
  · rintro s ⟨-, awaiting | ⟨ident, raced, -, opened⟩⟩
    · rw [awaiting]
      exact sound_newAwaiting
    · rw [opened]
      exact sound_openReadOnly
  · intro s a _ inv can
    have step := exec_step can
    exact ⟨inv.tails.step step, inv.counted.step inv.tails step, inv.ordered.step inv.tails inv.counted step⟩

/-! ## What the store promises -/

namespace Lease
variable (l : Lease) (s : State)

/-- `Snapshot.DB` -/
def db : Option Nat := l.sn.map fun n => (s.snaps n).db

/-- `Snapshot.Generation` -/
def generation : Option Token := l.sn.map fun n => (s.snaps n).gen

end Lease

namespace State
variable (s : State)

/-- Somebody holds a reference on the snapshot of a database. -/
def Referenced (d : Nat) : Prop := ∃ n < s.nsnaps, (s.snaps n).db = d ∧ 0 < s.holders n

/-- No call is under way. -/
def Quiet : Prop := s.calls = [] ∧ s.reopener = .idle

end State

/-- What the store promises: the database of a lease is open and came with the lease's token; a database is
closed once, after its last reference; the tokens are different and counted by the ordinal. -/
structure LeaseSafe (s : State) : Prop where
  opened : ∀ l ∈ s.leases, l.released = false → ∀ d, l.db s = some d → s.dbs d = 0
  once : ∀ d < s.ndbs, s.dbs d ≤ 1 ∧ (s.dbs d = 1 → ¬ s.Referenced d) ∧
    (s.Quiet → ¬ s.Referenced d → s.dbs d = 1)
  drained : s.Quiet → s.closed = true → (∀ l ∈ s.leases, l.released = true) → ∀ d < s.ndbs, s.dbs d = 1
  paired : ∀ l ∈ s.leases, ∀ d gen, l.db s = some d → l.generation s = some gen → (d, gen) ∈ s.published
  distinct : s.published.length < 2 ^ 64 → (s.published.map Prod.snd).Nodup
  counted : s.reopener = .idle → s.ordinal = UInt64.ofNat s.published.length

lemma Counted.closes_le (inv : Counted s) {d : Nat} (bound : d < s.ndbs) :
    s.dbs d ≤ 1 ∧ (s.dbs d = 1 → ¬ s.Referenced d) ∧ (s.Quiet → ¬ s.Referenced d → s.dbs d = 1) := by
  by_cases served : ∃ n < s.nsnaps, (s.snaps n).db = d
  · obtain ⟨n, lt, rfl⟩ := served
    have referenced : s.Referenced (s.snaps n).db ↔ 0 < s.holders n := by
      constructor
      · rintro ⟨m, ltm, same, used⟩
        rwa [← inv.apart m ltm n lt same]
      · exact fun used => ⟨n, lt, rfl, used⟩
    rw [referenced]
    obtain free | used := Nat.eq_zero_or_pos (s.holders n)
    · have closes := inv.closes n lt free
      refine ⟨by omega, by omega, ?_⟩
      rintro ⟨none, -⟩ -
      rw [none] at closes
      exact closes
    · have closes := inv.used n lt used
      refine ⟨by omega, by omega, ?_⟩
      exact fun _ free => absurd used free
  · have once := inv.orphans d bound fun n lt same => served ⟨n, lt, same⟩
    refine ⟨by omega, ?_, fun _ _ => once⟩
    rintro - ⟨n, lt, same, -⟩
    exact served ⟨n, lt, same⟩

lemma newGenToken_injective {epoch : List UInt8} : Function.Injective (newGenToken epoch) := by
  intro a b same
  exact Wire.write_injective (List.append_cancel_left same)

/-- Fewer than `2^64` publications have different tokens. -/
lemma Ordered.nodup (inv : Ordered s) (few : s.published.length < 2 ^ 64) :
    (s.published.map Prod.snd).Nodup := by
  rw [inv.tokens]
  refine List.Nodup.map_on ?_ List.nodup_range
  intro i memi j memj same
  have ordinals := congrArg UInt64.toNat (newGenToken_injective same)
  rw [List.mem_range] at memi memj
  rw [UInt64.toNat_ofNat', UInt64.toNat_ofNat', Nat.mod_eq_of_lt (by omega), Nat.mod_eq_of_lt (by omega)]
    at ordinals
  omega

/-- The store keeps its promises in every interleaving of its calls. -/
theorem leases_safe (rch : machine.Reach s) : LeaseSafe s := by
  obtain ⟨-, counted, ordered⟩ := sound_of_reach rch
  have held : ∀ n, (⟨some n, false⟩ : Lease) ∈ s.leases → n < s.nsnaps ∧ 0 < s.holders n := by
    intro n mem
    have live : 0 < live s.leases n := List.countP_pos_iff.mpr ⟨_, mem, by simp⟩
    have used : 0 < s.holders n := by
      unfold State.holders
      omega
    exact ⟨counted.bound used, used⟩
  constructor
  · rintro ⟨sn, released⟩ mem rfl d found
    obtain ⟨n, rfl, rfl⟩ := Option.map_eq_some_iff.mp found
    obtain ⟨lt, used⟩ := held n mem
    exact (counted.used n lt used).1
  · exact fun d lt => counted.closes_le lt
  · intro quiet closed released d lt
    refine (counted.closes_le lt).2.2 quiet ?_
    rintro ⟨n, ltn, rfl, used⟩
    have noLease : live s.leases n = 0 := by
      apply List.countP_eq_zero.mpr
      intro l mem same
      have := released l mem
      rw [of_decide_eq_true same] at this
      cases this
    simp only [State.holders, noLease, quiet.1, quiet.2, counted.shut closed, current, unpublished] at used
    simp [callsAt] at used
  · intro l mem d gen db token
    obtain ⟨n, sn, rfl⟩ := Option.map_eq_some_iff.mp db
    rw [Lease.generation, sn, Option.map_some, Option.some.injEq] at token
    rw [← token]
    exact (ordered.served n (.inr ⟨l, mem, sn⟩)).2
  · exact ordered.nodup
  · intro idle
    rw [ordered.ordinal, idle]
    rfl

/-- A lease is taken, the catalog is swapped and the store closed; then the lease is released. -/
def drainRun : List Action :=
  [.acquire, .reopen, .stat (.found ⟨0, 2⟩), .attempt (.verified ⟨0, 2⟩), .publish,
    .drop ⟨0, .dropping, .swapped⟩, .close, .drop ⟨1, .dropping, .done⟩, .closeDb ⟨1, .closing, .done⟩,
    .release 0, .release 0, .drop ⟨0, .dropping, .done⟩, .closeDb ⟨0, .closing, .done⟩]

/-- After that run both databases are closed, and there were two tokens. -/
theorem drained_leases_safe : ∃ s, machine.Reach s ∧ LeaseSafe s ∧ s.closed = true ∧
    s.published.length = 2 ∧ s.dbs 0 = 1 ∧ s.dbs 1 = 1 := by
  have run : (machine.replay (openReadOnly (List.replicate 16 0) ⟨0, 1⟩ 0) drainRun).any (fun s => decide
      (s.closed = true ∧ s.published.length = 2 ∧ s.dbs 0 = 1 ∧ s.dbs 1 = 1)) = true := by decide +kernel
  have start : machine.Reach (openReadOnly (List.replicate 16 0) ⟨0, 1⟩ 0) :=
    .init ⟨rfl, .inr ⟨⟨0, 1⟩, 0, by decide, rfl⟩⟩
  obtain ⟨s, rch, done⟩ := start.replay_any run
  exact ⟨s, rch, leases_safe rch, of_decide_eq_true done⟩

/-! ## The tokens come round -/

/-- A store that serves a catalog to nobody. -/
structure Serving (s : State) (n : Nat) : Prop where
  rch : machine.Reach s
  opened : s.closed = false
  cur : s.cur = some n
  live : s.curRefLive = true
  idle : s.reopener = .idle
  calls : s.calls = []
  leases : s.leases = []

/-- The steps of a swap from the snapshot `n`. -/
def swapRun (s : State) (n : Nat) : List Action :=
  let ident : FileIdentity := ⟨(s.snaps n).ident.dev + 1, 0⟩
  [.reopen, .stat (.found ident), .attempt (.verified ident), .publish, .drop ⟨n, .dropping, .swapped⟩,
    .closeDb ⟨n, .closing, .swapped⟩]

lemma Serving.swap {n : Nat} (serving : Serving s n) :
    ∃ t m, Serving t m ∧ t.published.length = s.published.length + 1 := by
  obtain ⟨rch, opened, cur, live, idle, calls, leases⟩ := serving
  have counted := (sound_of_reach rch).counted
  have holders : s.holders n = 1 := by
    simp [State.holders, Store.live, callsAt, current, unpublished, cur, live, idle, calls, leases]
  have bound : n < s.nsnaps := counted.bound (by omega)
  have refs : (s.snaps n).refs = 1 := by
    rw [counted.refs n bound, holders]
    rfl
  have other : (s.snaps n).ident ≠ ⟨(s.snaps n).ident.dev + 1, 0⟩ := by
    intro same
    have := congrArg FileIdentity.dev same
    simp at this
  have run : (machine.replay s (swapRun s n)).any (fun t => decide (t.closed = false ∧ t.cur = some s.nsnaps ∧
      t.curRefLive = true ∧ t.reopener = .idle ∧ t.calls = [] ∧ t.leases = [] ∧
      t.published.length = s.published.length + 1)) = true := by
    simp [swapRun, Machine.replay, machine, guard, exec, idle, cur, other, stat, attempt, publish, opened, live,
      State.release, drop, closeDb, calls, State.open, Function.update_of_ne (Nat.ne_of_lt bound), refs, finish,
      leases]
  obtain ⟨t, reached, done⟩ := rch.replay_any run
  obtain ⟨opened, cur, live, idle, calls, leases, length⟩ := of_decide_eq_true done
  exact ⟨t, s.nsnaps, ⟨reached, opened, cur, live, idle, calls, leases⟩, length⟩

/-- After `2^64` swaps the first token is the token of another generation. -/
theorem tokens_come_round : ∃ s, machine.Reach s ∧ ¬ (s.published.map Prod.snd).Nodup := by
  have swaps : ∀ k, ∃ s n, Serving s n ∧ s.published.length = k + 1 := by
    intro k
    induction k with
    | zero =>
      have rch : machine.Reach (openReadOnly (List.replicate 16 0) ⟨0, 1⟩ 0) :=
        .init ⟨rfl, .inr ⟨⟨0, 1⟩, 0, by decide, rfl⟩⟩
      exact ⟨_, 0, ⟨rch, rfl, rfl, rfl, rfl, rfl, rfl⟩, rfl⟩
    | succ k ih =>
      obtain ⟨s, n, serving, length⟩ := ih
      obtain ⟨t, m, served, longer⟩ := serving.swap
      exact ⟨t, m, served, by omega⟩
  obtain ⟨s, n, serving, length⟩ := swaps (2 ^ 64)
  refine ⟨s, serving.rch, ?_⟩
  rw [(sound_of_reach serving.rch).ordered.tokens, length]
  intro nodup
  have inj := List.inj_on_of_nodup_map nodup
  have same := inj (x := 0) (y := 2 ^ 64) (by simp) (by simp) (by rfl)
  omega

end PjCloud.Store
