import PjCloud.Intake.Inversion

/-!
# One audit at a time

The `AuditItem`s of `__main__.py` and the `AuditCoordinator` that hands them out, over every interleaving of the
coordinator, the callers of `request_due`, the worker and the stop event. An item only moves onward. While stop is unset
an item that is not finished is the current one, so that no other is made next to it; the coordinator clears it after its
result only, and it leaves its loop for the stop event only.
-/

namespace PjCloud.Intake
open Lib

variable {cfg : Setup} {s s' t : State}

/-- The item is pending or running. -/
def AuditItem.unfinished (item : AuditItem) : Bool :=
  match item.state with
  | .finished _ => false
  | _ => true

/-- An item moves on: what has begun is not pending again, and a result stays. -/
structure AuditItem.Onward (item item' : AuditItem) : Prop where
  begun : item.state ≠ .pending → item'.state ≠ .pending
  result : ∀ r, item.state = .finished r → item'.state = .finished r

namespace AuditItem.Onward
variable {item item' item'' : AuditItem} {items : Nat → AuditItem} {i j : Nat}

lemma refl : item.Onward item := ⟨id, fun _ => id⟩

lemma trans (first : item.Onward item') (second : item'.Onward item'') : item.Onward item'' :=
  ⟨fun begun => second.begun (first.begun begun), fun r done => second.result r (first.result r done)⟩

lemma of_pending (pending : item.state = .pending) : item.Onward item' :=
  ⟨fun begun => absurd pending begun, fun r done => by rw [pending] at done; cases done⟩

lemma cancel : item.Onward item.cancelIfPending := by
  unfold AuditItem.cancelIfPending
  split
  · rename_i pending
    exact of_pending pending
  · exact refl

lemma finish {result : AuditOutcome} : item.Onward (item.finish result) := by
  unfold AuditItem.finish
  split
  · exact refl
  · rename_i unfinished
    exact ⟨fun _ => nofun, fun r done => absurd done (unfinished r)⟩

lemma update (onward : (items j).Onward item) : (items i).Onward (Function.update items j item i) := by
  by_cases same : i = j
  · subst same
    rwa [Function.update_self]
  · rw [Function.update_of_ne same]
    exact refl

lemma unfinished (onward : item.Onward item') (open' : item'.unfinished = true) : item.unfinished = true := by
  unfold AuditItem.unfinished
  split
  · rename_i r done
    rw [AuditItem.unfinished, onward.result r done] at open'
    cases open'
  · rfl

end AuditItem.Onward

lemma cancelled_update {items : Nat → AuditItem} {item : AuditItem} {i j : Nat}
    (cancelled : (Function.update items j item i).state = .finished .cancelled) :
    (items i).state = .finished .cancelled ∨ i = j ∧ item.state = .finished .cancelled := by
  by_cases same : i = j
  · subst same
    rw [Function.update_self] at cancelled
    exact .inr ⟨rfl, cancelled⟩
  · rw [Function.update_of_ne same] at cancelled
    exact .inl cancelled

/-! ## The items -/

/-- At most one item is not finished. While stop is unset it is the current one. -/
structure Single (s : State) : Prop where
  single : ∀ i < s.nitems, ∀ j < s.nitems, (s.items i).unfinished = true → (s.items j).unfinished = true → i = j
  active : s.stop = false → ∀ i < s.nitems, (s.items i).unfinished = true → s.current = some i
  flag : s.queuedOrRunning = s.current.isSome
  known : ∀ i, s.current = some i → i < s.nitems
  cancelled : ∀ i, (s.items i).state = .finished .cancelled → s.stop = true

namespace Single

lemma frame (one : Single s) (onward : ∀ i, (s.items i).Onward (s'.items i)) (nitems : s'.nitems = s.nitems)
    (current : s'.current = s.current) (flag : s'.queuedOrRunning = s.queuedOrRunning)
    (stop : s.stop = true → s'.stop = true)
    (cancelled : ∀ i, (s'.items i).state = .finished .cancelled →
      (s.items i).state = .finished .cancelled ∨ s'.stop = true) : Single s' := by
  constructor
  · intro i lti j ltj openi openj
    rw [nitems] at lti ltj
    exact one.single i lti j ltj ((onward i).unfinished openi) ((onward j).unfinished openj)
  · intro go i lt open'
    rw [nitems] at lt
    have went : s.stop = false := by
      by_contra set
      rw [stop (by simpa using set)] at go
      cases go
    rw [current]
    exact one.active went i lt ((onward i).unfinished open')
  · rw [flag, current]
    exact one.flag
  · rw [current, nitems]
    exact one.known
  · intro i done
    obtain before | set := cancelled i done
    · exact stop (one.cancelled i before)
    · exact set

lemma same (one : Single s) (items : s'.items = s.items) (nitems : s'.nitems = s.nitems)
    (current : s'.current = s.current) (flag : s'.queuedOrRunning = s.queuedOrRunning)
    (stop : s.stop = true → s'.stop = true) : Single s' := by
  refine one.frame (fun i => ?_) nitems current flag stop fun i done => .inl ?_
  · rw [items]
    exact .refl
  · rwa [items] at done

lemma finished_of_idle (one : Single s) (go : s.stop = false) (idle : s.queuedOrRunning = false) {i : Nat}
    (lt : i < s.nitems) : (s.items i).unfinished = false := by
  by_contra open'
  have current := one.active go i lt (by simpa using open')
  rw [one.flag, current] at idle
  cases idle

/-- `_enqueue_if_idle` makes an item where there is none. -/
lemma newItem (one : Single s) (go : s.stop = false) (idle : s.queuedOrRunning = false) (scheduled : Bool) :
    Single (newItem s scheduled) := by
  have old : ∀ i, i ≠ s.nitems → (Intake.newItem s scheduled).items i = s.items i := fun i other =>
    Function.update_of_ne other _ _
  have last : ∀ i < s.nitems + 1, ((Intake.newItem s scheduled).items i).unfinished = true → i = s.nitems := by
    intro i lt open'
    by_contra other
    rw [old i other, one.finished_of_idle go idle (by omega)] at open'
    cases open'
  constructor
  · intro i lti j ltj openi openj
    rw [last i lti openi, last j ltj openj]
  · intro _ i lt open'
    rw [last i lt open']
    rfl
  · rfl
  · rintro i ⟨⟩
    exact Nat.lt_succ_self _
  · intro i done
    by_cases new : i = s.nitems
    · subst new
      rw [show (Intake.newItem s scheduled).items s.nitems = { scheduled } from Function.update_self _ _ _] at done
      cases done
    · rw [old i new] at done
      exact one.cancelled i done

/-- `_clear_active` for an item that is finished. -/
lemma clearActive (one : Single s) {i : Nat} (done : s.stop = false → (s.items i).unfinished = false) :
    Single (clearActive s i) := by
  unfold Intake.clearActive
  split
  · rename_i current
    refine ⟨one.single, ?_, rfl, nofun, one.cancelled⟩
    intro go j lt open'
    -- the item that is not finished is the one that is cleared
    obtain rfl : i = j := Option.some.inj (current.symm.trans (one.active go j lt open'))
    rw [done go] at open'
    cases open'
  · exact one

end Single

/-! ## The coordinator -/

def CoordPc.item : CoordPc → Option Nat
  | .putting i | .waiting i | .clearing i _ | .lastClearing i => some i
  | _ => none

def CoordPc.leaves : CoordPc → Bool
  | .clearing _ true | .resuming true | .ending | .lastClearing _ | .exited => true
  | _ => false

/-- The coordinator leaves for the stop event only, and clears an item after its result unless stop is set. -/
structure Guided (s : State) : Prop where
  item : ∀ i, s.coord.item = some i → i < s.nitems
  leaves : s.coord.leaves = true → s.stop = true
  fetched : s.coord = .fetching → s.stop = true ∨ s.current.isSome = true
  cleared : ∀ i leave, s.coord = .clearing i leave → s.stop = false → (s.items i).unfinished = false

namespace Guided

lemma frame (led : Guided s) (coord : s'.coord = s.coord) (nitems : s.nitems ≤ s'.nitems)
    (onward : ∀ i < s.nitems, (s.items i).Onward (s'.items i)) (stop : s.stop = true → s'.stop = true)
    (current : s.current.isSome = true → s'.current.isSome = true) : Guided s' := by
  constructor
  · intro i there
    rw [coord] at there
    exact Nat.lt_of_lt_of_le (led.item i there) nitems
  · intro leaves
    rw [coord] at leaves
    exact stop (led.leaves leaves)
  · intro here
    rw [coord] at here
    exact (led.fetched here).imp stop current
  · intro i leave here go
    rw [coord] at here
    have lt : i < s.nitems := led.item i (by rw [here]; rfl)
    have went : s.stop = false := by
      by_contra set
      rw [stop (by simpa using set)] at go
      cases go
    by_contra open'
    have before := (onward i lt).unfinished (by simpa using open')
    rw [led.cleared i leave here went] at before
    cases before

lemma of_none (none : s.coord.item = none) (leaves : s.coord.leaves = true → s.stop = true)
    (fetched : s.coord = .fetching → s.stop = true ∨ s.current.isSome = true) : Guided s := by
  refine ⟨fun i there => ?_, leaves, fetched, fun i leave here => ?_⟩
  · rw [none] at there
    cases there
  · rw [here] at none
    cases none

lemma of_item {i : Nat} (here : s.coord = .putting i ∨ s.coord = .waiting i) (lt : i < s.nitems) : Guided s := by
  obtain here | here := here <;>
  · constructor
    · intro j there
      rw [here] at there
      cases there
      exact lt
    · intro leaves
      rw [here] at leaves
      cases leaves
    · intro fetching
      rw [here] at fetching
      cases fetching
    · intro j leave clearing
      rw [here] at clearing
      cases clearing

end Guided

/-! ## One step -/

lemma ProducerStep.audits {act : ProducerAct} (step : ProducerStep cfg s act s') :
    s'.items = s.items ∧ s'.nitems = s.nitems ∧ s'.current = s.current ∧
      s'.queuedOrRunning = s.queuedOrRunning ∧ s'.coord = s.coord ∧ s'.stop = s.stop := by
  cases step <;> exact ⟨rfl, rfl, rfl, rfl, rfl, rfl⟩

lemma WorkerStep.audits {act : WorkerAct} (step : WorkerStep s act s') :
    s'.nitems = s.nitems ∧ s'.current = s.current ∧ s'.queuedOrRunning = s.queuedOrRunning ∧
      s'.coord = s.coord ∧ s'.stop = s.stop := by
  cases step <;> exact ⟨rfl, rfl, rfl, rfl, rfl⟩

lemma WorkerStep.onward {act : WorkerAct} (step : WorkerStep s act s') (i : Nat) :
    (s.items i).Onward (s'.items i) := by
  cases step with
  | dropAudit => exact .update .cancel
  | startAudit _ _ pending => exact .update (.of_pending pending)
  | finishAudit => exact .update .finish
  | _ => exact .refl

lemma WorkerStep.cancelled {act : WorkerAct} (step : WorkerStep s act s') {i : Nat}
    (done : (s'.items i).state = .finished .cancelled) :
    (s.items i).state = .finished .cancelled ∨ s.stop = true := by
  cases step with
  | dropAudit _ stop => exact .inr stop
  | startAudit =>
    obtain before | ⟨-, now⟩ := cancelled_update done
    · exact .inl before
    · cases now
  | @finishAudit j result here cancels =>
    obtain before | ⟨rfl, now⟩ := cancelled_update done
    · exact .inl before
    · unfold AuditItem.finish at now
      split at now
      · exact .inl now
      · cases now
        exact .inr (cancels rfl)
  | _ => exact .inl done

lemma CoordStep.onward {act : CoordAct} (step : CoordStep cfg s act s') :
    s.nitems ≤ s'.nitems ∧ ∀ i < s.nitems, (s.items i).Onward (s'.items i) := by
  cases step with
  | enqueue =>
    refine ⟨Nat.le_succ _, fun i lt => ?_⟩
    rw [show ({ newItem s true with coord := _ } : State).items i = s.items i from
      Function.update_of_ne (Nat.ne_of_lt lt) _ _]
    exact .refl
  | giveUp => exact ⟨Nat.le_refl _, fun _ _ => .update .cancel⟩
  | lastCancel => exact ⟨Nat.le_refl _, fun _ _ => .update .cancel⟩
  | @clear i | @lastClear i =>
    dsimp only
    unfold clearActive
    split <;> exact ⟨Nat.le_refl _, fun _ _ => .refl⟩
  | _ => exact ⟨Nat.le_refl _, fun _ _ => .refl⟩

lemma Step.onward {a : Action} (step : Step cfg s a s') :
    s.nitems ≤ s'.nitems ∧ ∀ i < s.nitems, (s.items i).Onward (s'.items i) := by
  cases step with
  | producer step =>
    obtain ⟨items, nitems, -⟩ := step.audits
    exact ⟨Nat.le_of_eq nitems.symm, fun i _ => by rw [items]; exact .refl⟩
  | worker step => exact ⟨Nat.le_of_eq step.audits.1.symm, fun i _ => step.onward i⟩
  | coord step => exact step.onward
  | requestDue =>
    refine ⟨Nat.le_succ _, fun i lt => ?_⟩
    rw [show ({ newItem s false with requests := _ } : State).items i = s.items i from
      Function.update_of_ne (Nat.ne_of_lt lt) _ _]
    exact .refl
  | _ => exact ⟨Nat.le_refl _, fun _ _ => .refl⟩

lemma CoordStep.single {act : CoordAct} (step : CoordStep cfg s act s') (one : Single s) (led : Guided s) :
    Single s' := by
  cases step with
  | enqueue _ go idle => exact (one.newItem go idle true).same rfl rfl rfl rfl id
  | giveUp _ stop => exact one.frame (fun _ => .update .cancel) rfl rfl rfl id fun _ _ => .inr stop
  | lastCancel here =>
    have stop := led.leaves (by rw [here]; rfl)
    exact one.frame (fun _ => .update .cancel) rfl rfl rfl id fun _ _ => .inr stop
  | @clear i leave here => exact (one.clearActive (led.cleared i leave here)).same rfl rfl rfl rfl id
  | @lastClear i here =>
    have stop := led.leaves (by rw [here]; rfl)
    refine (one.clearActive (i := i) fun go => ?_).same rfl rfl rfl rfl id
    rw [stop] at go
    cases go
  | _ => exact one.same rfl rfl rfl rfl id

lemma CoordStep.guided {act : CoordAct} (step : CoordStep cfg s act s') (one : Single s) (led : Guided s) :
    Guided s' := by
  cases step with
  | pause | due | drained => exact .of_none rfl nofun nofun
  | drainStopped _ stop => exact .of_none rfl (fun _ => stop) nofun
  | coalesce _ busy => exact .of_none rfl nofun fun _ => busy.imp_right fun set => one.flag ▸ set
  | enqueue => exact .of_item (.inl rfl) (Nat.lt_succ_self _)
  | @put i here => exact .of_item (.inr rfl) (led.item i (by rw [here]; rfl))
  | @fetch i _ current => exact .of_item (.inr rfl) (one.known i current)
  | fetchNone here none =>
    -- while stop is unset nobody else clears the item that was there
    refine .of_none rfl (fun _ => ?_) nofun
    obtain stop | there := led.fetched here
    · exact stop
    · rw [none] at there
      cases there
  | @observe i result here finished =>
    refine ⟨?_, ?_, nofun, ?_⟩
    · rintro j ⟨⟩
      exact led.item i (by rw [here]; rfl)
    · intro leaves
      cases result with
      | cancelled => exact one.cancelled i finished
      | ok | failed => cases leaves
    · rintro j leave ⟨⟩ -
      dsimp only
      rw [AuditItem.unfinished, finished]
  | @giveUp i here stop =>
    refine ⟨?_, fun _ => stop, nofun, ?_⟩
    · rintro j ⟨⟩
      exact led.item i (by rw [here]; rfl)
    · intro j leave _ go
      rw [show s.stop = false from go] at stop
      cases stop
  | @clear i leave here =>
    have stop : (clearActive s i).stop = s.stop := by
      unfold clearActive
      split <;> rfl
    refine .of_none rfl (fun leaves => ?_) nofun
    cases leave with
    | true => exact stop.trans (led.leaves (by rw [here]; rfl))
    | false => cases leaves
  | @resume leave here =>
    cases leave with
    | true => exact .of_none rfl (fun _ => led.leaves (by rw [here]; rfl)) nofun
    | false => exact .of_none rfl nofun nofun
  | stopped _ stop => exact .of_none rfl (fun _ => stop) nofun
  | @lastCancel i here current =>
    refine ⟨?_, fun _ => led.leaves (by rw [here]; rfl), nofun, nofun⟩
    rintro j ⟨⟩
    exact one.known i current
  | lastNone here => exact .of_none rfl (fun _ => led.leaves (by rw [here]; rfl)) nofun
  | @lastClear i here =>
    have stop : (clearActive s i).stop = s.stop := by
      unfold clearActive
      split <;> rfl
    exact .of_none rfl (fun _ => stop.trans (led.leaves (by rw [here]; rfl))) nofun

lemma Step.audits {a : Action} (step : Step cfg s a s') (one : Single s) (led : Guided s) : Single s' ∧ Guided s' := by
  cases step with
  | producer step =>
    obtain ⟨items, nitems, current, flag, coord, stop⟩ := step.audits
    refine ⟨one.same items nitems current flag stop.trans, led.frame coord (Nat.le_of_eq nitems.symm) ?_ stop.trans ?_⟩
    · intro i _
      rw [items]
      exact .refl
    · rw [current]
      exact id
  | worker step =>
    obtain ⟨nitems, current, flag, coord, stop⟩ := step.audits
    refine ⟨one.frame step.onward nitems current flag stop.trans ?_,
      led.frame coord (Nat.le_of_eq nitems.symm) (fun i _ => step.onward i) stop.trans ?_⟩
    · exact fun i done => (step.cancelled done).imp_right stop.trans
    · rw [current]
      exact id
  | coord step => exact ⟨step.single one led, step.guided one led⟩
  | requestDue go idle =>
    refine ⟨(one.newItem go idle false).same rfl rfl rfl rfl id, led.frame rfl (Nat.le_succ _) ?_ id fun _ => rfl⟩
    exact (@Step.requestDue cfg s go idle).onward.2
  | requestBusy => exact ⟨one, led⟩
  | requestPut | otherWork =>
    exact ⟨one.same rfl rfl rfl rfl id, led.frame rfl (Nat.le_refl _) (fun _ _ => .refl) id id⟩
  | stop => exact ⟨one.same rfl rfl rfl rfl fun _ => rfl, led.frame rfl (Nat.le_refl _) (fun _ _ => .refl) (fun _ => rfl) id⟩

/-! ## Whole runs -/

lemma audits_of_reach (rch : (daemon cfg).Reach s) : Single s ∧ Guided s := by
  induction rch with
  | init start =>
    obtain rfl := start
    exact ⟨⟨nofun, nofun, rfl, nofun, nofun⟩, .of_none rfl nofun nofun⟩
  | step _ can ih => exact (daemon_step can).audits ih.1 ih.2

lemma onward_replay {acts : List Action} (run : (daemon cfg).replay s acts = some t) :
    ∀ i < s.nitems, (s.items i).Onward (t.items i) := by
  induction acts generalizing s with
  | nil =>
    cases run
    exact fun _ _ => .refl
  | cons a acts ih =>
    rw [Machine.replay] at run
    split at run
    · rename_i can
      obtain ⟨more, onward⟩ := (daemon_step can).onward
      exact fun i lt => (onward i lt).trans (ih run i (Nat.lt_of_lt_of_le lt more))
    · cases run

def quietSetup : Setup := { library := { loads := fun _ => .error "", unquotePlus := id } }

def requestedAudit : List Action :=
  [.requestDue, .requestPut, .worker .check, .worker .take, .worker .dispatch, .requestDue]

end PjCloud.Intake
