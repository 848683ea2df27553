import Mathlib.Logic.Function.Basic
import PjCloud.Lib.Machine
import PjCloud.Lib.Wire

/-!
# The catalog store

`server/internal/catalog/store.go` and `reopen.go`: the served snapshot, the leases on it and the swap. Each
action is one atomic section: a stretch under `mu`, an operation on an atomic counter, or a call into SQLite or
the file system, whose outcome is in the action. `ReopenIfSwapped` runs under `reopenMu`, so there is one
`Reopener`; any number of calls of `snapshot.release` can be under way at once.

A database is the number of its opening. `dbs` counts how often each has been closed, and `published` is the
history of the pairs that were served.
-/

namespace PjCloud.Store
open Lib

structure FileIdentity where
  dev : Nat
  ino : Nat
  deriving DecidableEq, Repr

abbrev Token := List UInt8

structure Snapshot where
  db : Nat
  ident : FileIdentity
  gen : Token
  refs : Int
  deriving DecidableEq, Repr

/-- The lease that `Acquire` returns: `Snapshot` in the source. -/
structure Lease where
  sn : Option Nat
  released : Bool
  deriving DecidableEq, Repr

/-- What follows a call of `snapshot.release`: nothing, the end of a swap, or the end of a swap that came after
`Close`. -/
inductive After where
  | done
  | swapped
  | rejected
  deriving DecidableEq, Repr

/-- Where a call of `snapshot.release` is: before `refs.Add(-1)`, or before `db.Close()`. -/
inductive ReleasePc where
  | dropping
  | closing
  deriving DecidableEq, Repr

/-- A call of `snapshot.release` under way. -/
structure Call where
  sn : Nat
  pc : ReleasePc
  after : After
  deriving DecidableEq, Repr

/-- Where `ReopenIfSwapped` is. In `opening k`, `openVerified` has made `k` attempts. -/
inductive Reopener where
  | idle
  | identified (cur : Option FileIdentity)
  | opening (attempts : Nat)
  | publishing (sn : Nat)
  | retiring
  | rejecting
  deriving DecidableEq, Repr

/-- What `ReopenIfSwapped` returns. -/
inductive Reopened where
  | unswapped
  | failed
  | swapped
  deriving DecidableEq, Repr

/-- `Store`, with the databases, snapshots and leases there are. -/
structure State where
  epoch : List UInt8
  cur : Option Nat := none
  curRefLive : Bool := false
  closed : Bool := false
  ordinal : UInt64 := 0
  reopener : Reopener := .idle
  calls : List Call := []
  leases : List Lease := []
  snaps : Nat → Snapshot := fun _ => ⟨0, ⟨0, 0⟩, [], 0⟩
  nsnaps : Nat := 0
  dbs : Nat → Nat := fun _ => 0
  ndbs : Nat := 0
  published : List (Nat × Token) := []
  results : List Reopened := []

def newGenToken (epoch : List UInt8) (ordinal : UInt64) : Token := epoch ++ Wire.uint64.write ordinal

def newAwaiting (epoch : List UInt8) : State := { epoch }

/-- `OpenReadOnly`, where `raced` attempts have been in vain. -/
def openReadOnly (epoch : List UInt8) (ident : FileIdentity) (raced : Nat) : State :=
  { epoch
    cur := some 0
    curRefLive := true
    ordinal := 1
    snaps := fun _ => ⟨raced, ident, newGenToken epoch 1, 1⟩
    nsnaps := 1
    dbs := fun d => if d < raced then 1 else 0
    ndbs := raced + 1
    published := [(raced, newGenToken epoch 1)] }

/-! ## The leases -/

/-- Begin a call of `snapshot.release`. -/
def State.release (s : State) (sn : Nat) (after : After) : State :=
  { s with calls := ⟨sn, .dropping, after⟩ :: s.calls }

def acquire (s : State) : State :=
  match s.closed, s.cur with
  | false, some n =>
    { s with
      snaps := Function.update s.snaps n { s.snaps n with refs := (s.snaps n).refs + 1 }
      leases := s.leases ++ [⟨some n, false⟩] }
  | _, cur => { s with leases := s.leases ++ [⟨cur, true⟩] }

/-- `Release`, up to the call of `snapshot.release`. -/
def release (s : State) (l : Nat) : State :=
  match s.leases[l]? with
  | some ⟨some n, false⟩ => { s with leases := s.leases.set l ⟨some n, true⟩ }.release n .done
  | some ⟨none, false⟩ => { s with leases := s.leases.set l ⟨none, true⟩ }
  | _ => s

/-- `Close`, up to the call of `snapshot.release`. -/
def close (s : State) : State :=
  if s.closed then s
  else
    match s.cur, s.curRefLive with
    | some n, true => { s with closed := true, curRefLive := false }.release n .done
    | _, _ => { s with closed := true, curRefLive := false }

/-- What follows a call of `snapshot.release`. -/
def finish (after : After) (s : State) : State :=
  match after with
  | .done => s
  | .swapped => { s with reopener := .idle, results := s.results ++ [.swapped] }
  | .rejected =>
    { s with reopener := .idle, ordinal := s.ordinal - 1, results := s.results ++ [.unswapped] }

/-- `refs.Add(-1)` -/
def drop (s : State) (call : Call) : State :=
  let refs := (s.snaps call.sn).refs - 1
  let s := { s with snaps := Function.update s.snaps call.sn { s.snaps call.sn with refs := refs } }
  if refs = 0 then { s with calls := { call with pc := .closing } :: s.calls.erase call }
  else finish call.after { s with calls := s.calls.erase call }

/-- `db.Close()` by the last one out. -/
def closeDb (s : State) (call : Call) : State :=
  let db := (s.snaps call.sn).db
  finish call.after
    { s with dbs := Function.update s.dbs db (s.dbs db + 1), calls := s.calls.erase call }

/-! ## The swap -/

/-- The end of `ReopenIfSwapped` without a swap. -/
def State.unswapped (s : State) (result : Reopened) : State :=
  { s with reopener := .idle, results := s.results ++ [result] }

/-- `statIdentity` gives an identity, or an error with `true` for `fs.ErrNotExist`. -/
inductive StatOutcome where
  | found (ident : FileIdentity)
  | fails (notExist : Bool)
  deriving DecidableEq, Repr

/-- How `openVerifiedOnce` ends: before it has a handle, with an error that closes the handle, with
`errIdentityRace`, or with a handle. -/
inductive Attempt where
  | unopened
  | refused
  | raced
  | verified (ident : FileIdentity)
  deriving DecidableEq, Repr

def identityRaceAttempts : Nat := 3

/-- The stat of the served path, where the snapshot in use has identity `cur`. -/
def stat (s : State) (cur : Option FileIdentity) : StatOutcome → State
  | .fails notExist =>
    if cur = none ∧ notExist = true then s.unswapped .unswapped else s.unswapped .failed
  | .found ident =>
    if cur = some ident then s.unswapped .unswapped else { s with reopener := .opening 0 }

def State.open (s : State) (closes : Nat) : State :=
  { s with dbs := Function.update s.dbs s.ndbs closes, ndbs := s.ndbs + 1 }

/-- An attempt of `openVerified`, and what follows it up to `publish`. -/
def attempt (s : State) (attempts : Nat) : Attempt → State
  | .unopened => s.unswapped .failed
  | .refused => (s.open 1).unswapped .failed
  | .raced =>
    if attempts + 1 < identityRaceAttempts then { s.open 1 with reopener := .opening (attempts + 1) }
    else (s.open 1).unswapped .failed
  | .verified ident =>
    let ordinal := s.ordinal + 1
    { s.open 0 with
      ordinal := ordinal
      snaps := Function.update s.snaps s.nsnaps ⟨s.ndbs, ident, newGenToken s.epoch ordinal, 1⟩
      nsnaps := s.nsnaps + 1
      reopener := .publishing s.nsnaps }

/-- `publish`, up to the call of `snapshot.release`. -/
def publish (s : State) (sn : Nat) : State :=
  if s.closed then { s with reopener := .rejecting }.release sn .rejected
  else
    let s' := { s with
      cur := some sn
      curRefLive := true
      published := s.published ++ [((s.snaps sn).db, (s.snaps sn).gen)] }
    match s.cur, s.curRefLive with
    | some old, true => { s' with reopener := .retiring }.release old .swapped
    | _, _ => finish .swapped s'

/-! ## The machine -/

/-- All steps. -/
inductive Action where
  | acquire
  | release (l : Nat)
  | close
  | drop (call : Call)
  | closeDb (call : Call)
  | reopen
  | stat (outcome : StatOutcome)
  | attempt (outcome : Attempt)
  | publish
  deriving DecidableEq, Repr

/-- When a step can be taken. -/
def guard (s : State) : Action → Bool
  | .acquire => true
  | .release l => decide (l < s.leases.length)
  | .close => true
  | .drop call => decide (call ∈ s.calls ∧ call.pc = .dropping)
  | .closeDb call => decide (call ∈ s.calls ∧ call.pc = .closing)
  | .reopen => decide (s.reopener = .idle)
  | .stat _ =>
    match s.reopener with
    | .identified _ => true
    | _ => false
  | .attempt _ =>
    match s.reopener with
    | .opening _ => true
    | _ => false
  | .publish =>
    match s.reopener with
    | .publishing _ => true
    | _ => false

/-- The state after a step. -/
def exec (s : State) : Action → State
  | .acquire => acquire s
  | .release l => release s l
  | .close => close s
  | .drop call => drop s call
  | .closeDb call => closeDb s call
  | .reopen => { s with reopener := .identified (s.cur.map fun n => (s.snaps n).ident) }
  | .stat outcome =>
    match s.reopener with
    | .identified cur => stat s cur outcome
    | _ => s
  | .attempt outcome =>
    match s.reopener with
    | .opening attempts => attempt s attempts outcome
    | _ => s
  | .publish =>
    match s.reopener with
    | .publishing sn => publish s sn
    | _ => s

/-- The store, from its construction on. -/
def machine : Machine State Action where
  init s := s.epoch.length = 16 ∧
    (s = newAwaiting s.epoch ∨ ∃ ident, ∃ raced < identityRaceAttempts, s = openReadOnly s.epoch ident raced)
  guard := guard
  exec := exec

end PjCloud.Store
