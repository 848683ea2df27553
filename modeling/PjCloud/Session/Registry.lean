import Mathlib.Tactic.Lemma
import Mathlib.Data.List.Basic

/-!
# Session registry

The methods of `Registry` (`server/internal/session/registry.go`) at one subscription id. Every method
locks the registry and touches the map entries of its own id only, so an `Entry` collects what
`sessions`, `evictAt` and `evictEpoch` hold for that id, together with the consumer binding of the
`SessionState`. Each definition is one critical section.

Go's `time.Timer` is split in two: `evictAt` is the epoch captured by a timer that is armed and can
still be stopped, `fired` are the epochs of callbacks that have fired and wait for the lock, where
`Stop` no longer helps.
-/

namespace PjCloud.Session

/-- Whether the id is in `Registry.sessions`. Ids are never handed out twice. -/
inductive Life where
  | unregistered
  | registered
  | removed
  deriving DecidableEq, Repr

/-- The registry's knowledge about one subscription id. -/
structure Entry where
  life : Life
  evictAt : Option Nat
  fired : List Nat
  evictEpoch : Nat
  consumerCancel : Option Nat
  consumerGen : Nat
  deriving DecidableEq, Repr

namespace Entry

/-- An id that has not been handed out. -/
def fresh : Entry where
  life := .unregistered
  evictAt := none
  fired := []
  evictEpoch := 0
  consumerCancel := none
  consumerGen := 0

/-- The error of `Register` at capacity (`ErrAtCapacity`). -/
def errAtCapacity : String := "session: server at max concurrent sessions"

/-- The error of `Reattach` on an unknown id (`ErrSessionMissing`). -/
def errSessionMissing : String := "session: not found (may have been evicted)"

/-- `Register` with `active` sessions in the registry. -/
def register (e : Entry) (maxConcurrent active : Nat) : Except String Entry :=
  if maxConcurrent ≤ active then .error errAtCapacity
  else .ok { e with life := .registered }

def lookup (e : Entry) : Bool :=
  e.life = .registered

/-- `BindConsumerChecked` up to the unlock: the entry, the generation handed out and the replaced
    binding, whose cancel function the caller runs after the unlock. -/
def bindConsumerChecked (e : Entry) (cancel : Nat) : Option (Entry × Nat × Option Nat) :=
  if e.lookup then
    some ({ e with consumerCancel := some cancel, consumerGen := e.consumerGen + 1 },
      e.consumerGen + 1, e.consumerCancel)
  else none

/-- `armEvictLocked`: stop the old timer and arm a new one under the next epoch. -/
def armEvictLocked (e : Entry) : Entry :=
  { e with evictEpoch := e.evictEpoch + 1, evictAt := some (e.evictEpoch + 1) }

/-- `Detach` with the generation the caller got when it bound. The second component is the consumer
    whose cancel function is called. -/
def detach (e : Entry) (gen : Nat) : Entry × Option Nat :=
  if !e.lookup then (e, none)
  else if e.consumerGen ≠ gen then (e, none)
  else ({ e with consumerCancel := none }.armEvictLocked, e.consumerCancel)

/-- Take the id out of the registry's maps; the removed `SessionState` lives on. -/
def remove (e : Entry) : Entry :=
  { e with life := .removed, evictAt := none, evictEpoch := 0 }

def timerFire (e : Entry) : Entry :=
  { e with evictAt := none, fired := e.evictAt.toList ++ e.fired }

/-- `evictFire`: the callback gets the lock. The flag tells whether it removed the session. -/
def evictFire (e : Entry) (epoch : Nat) : Entry × Bool :=
  let e' := { e with fired := e.fired.erase epoch }
  if e.evictEpoch ≠ epoch then (e', false)
  else if !e.lookup then (e', false)
  else (e'.remove, true)

/-- `Reattach`: stop the timer and make fired callbacks stale. -/
def reattach (e : Entry) : Except String Entry :=
  if !e.lookup then .error errSessionMissing
  else .ok { e with evictAt := none, evictEpoch := e.evictEpoch + 1 }

/-- `Cancel` up to the unlock. The flag tells whether the caller owes the teardown. -/
def cancel (e : Entry) : Entry × Bool :=
  if e.lookup then (e.remove, true) else (e, false)

/-- An eviction whose epoch is current is armed or has fired. -/
def EvictionPending (e : Entry) : Prop :=
  e.evictAt = some e.evictEpoch ∨ e.evictEpoch ∈ e.fired

instance (e : Entry) : Decidable e.EvictionPending :=
  inferInstanceAs (Decidable (_ ∨ _))

end Entry
end PjCloud.Session
