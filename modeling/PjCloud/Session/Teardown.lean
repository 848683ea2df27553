import PjCloud.Session.Frame

/-!
# Handlers and connection teardown

`detachAll` looks at the tracked subscriptions once. A handler that tracks its subscription after that
look is not detached by anyone: when its consumer then stops on the failed write, the session stays in
the registry with no timer (`late_track_leaks`). The same happens to a binding whose handle an older
handler of the same connection overwrites.

When every handler that holds the current binding tracks it in time, and none overwrites the handle of
the current binding, a session is never abandoned: as long as it is registered somebody is `Cared` for
it, and once all of them are through, it is gone or its eviction is pending (`quiet_not_leaked`).
-/

namespace PjCloud.Session
open PjCloud.Lib
variable {μ : Type}

/-- `detachAll` has taken its snapshot of the tracked subscriptions. -/
def ReadPc.pastSnapshot : ReadPc → Bool
  | .detaching _ => true
  | .detached => true
  | .closed => true
  | _ => false

/-- The handler has returned and its consumer, if it spawned one, has exited. -/
def Pc.ended : Pc → Bool
  | .exited _ => true
  | .refused => true
  | _ => false

/-- The handler of the current binding tracks it before the snapshot of its connection's `detachAll`,
    and no other handler overwrites the handle of the current binding. -/
def trackTimely (s : State μ) : Action → Bool
  | .opening a .track =>
    if !s.entry.lookup then true
    else if (s.atts a).gen = s.entry.consumerGen then
      !(s.conns (s.atts a).conn).read.pastSnapshot
    else
      match (s.conns (s.atts a).conn).sub with
      | none => true
      | some b => decide ((s.atts b).gen ≠ s.entry.consumerGen)
  | _ => true

/-- Every handler has returned, every consumer has exited, the connections' teardowns are through, and
    the producer goroutine does not stand before its `Registry.Cancel`. -/
structure Quiet (s : State μ) : Prop where
  ended : ∀ a, a < s.natts → (s.atts a).pc.ended = true
  closed : ∀ a, a < s.natts → (s.conns (s.atts a).conn).read = .closed
  producer : s.producer ≠ .failedUntracked

/-- Somebody is bound to remove the session or to arm its timer: the eviction itself, a handler, the
    snapshot of the connection that tracks the current binding, the `Detach` after that snapshot, or a
    goroutine that stands before its `Registry.Cancel`. -/
inductive Cared (s : State μ) : Prop where
  | pending : s.entry.EvictionPending → Cared s
  | opening {a} : (s.atts a).pc.opening = true → Cared s
  | binding {a} : a < s.natts → (s.atts a).gen = s.entry.consumerGen →
    ((∃ p, (s.atts a).pc = .bound p) ∨ (s.atts a).pc = .takenOver) → Cared s
  | tracked {a} : a < s.natts → (s.atts a).gen = s.entry.consumerGen →
    (s.conns (s.atts a).conn).sub = some a →
    (s.conns (s.atts a).conn).read.pastSnapshot = false → Cared s
  | detaching {a} : a < s.natts → (s.atts a).gen = s.entry.consumerGen →
    (s.conns (s.atts a).conn).read = .detaching (some (s.atts a).gen) → Cared s
  | cancelConn {a} : a < s.natts → (s.conns (s.atts a).conn).read = .cancelUntracked → Cared s
  | cancelConsumer {a why} : (s.atts a).pc = .cancelling why → Cared s
  | cancelProducer : s.producer = .failedUntracked → Cared s

namespace Cared
variable {n : Nat} {s s' : State μ} {a : Action}

/-- A pending eviction stays until a `Reattach` takes over or the session is gone. -/
lemma step_pending (h : Step n s a s') (reg : s'.entry.life = .registered)
    (hp : s.entry.EvictionPending) : Cared s' := by
  cases h
  case reattach b _ _ => exact .opening (a := b) (by simp [Pc.opening])
  case detach => exact .pending (.inl rfl)
  case timerFire =>
    rcases hp with hp | hp
    · exact .pending (.inr (List.mem_append.mpr (.inl (Option.mem_toList.mpr hp))))
    · exact .pending (.inr (List.mem_append.mpr (.inr hp)))
  case evictStale k _ hk =>
    rcases hp with hp | hp
    · exact .pending (.inl hp)
    · exact .pending (.inr ((List.mem_erase_of_ne (hk reg)).mpr hp))
  all_goals first
    | exact .pending hp
    | cases reg

lemma step_opening (num : Numbering s) (h : Step n s a s') (reg : s'.entry.life = .registered)
    {b} (ho : (s.atts b).pc.opening = true) : Cared s' := by
  have hb : b < s.natts := num.lt (by rintro e; rw [e] at ho; cases ho)
  by_cases ha : a.attachment = some b
  · cases h
    case prune => cases ha; exact .opening (a := b) (by simp [Pc.opening])
    case reply => cases ha; exact .opening (a := b) (by simp [Pc.opening])
    case bindMissing hl => exact absurd reg hl
    case bind => cases ha; exact .binding (a := b) hb (by simp) (.inl ⟨_, by simp; rfl⟩)
    all_goals cases ha
    all_goals grind [Pc.opening]
  · have e : (s'.atts b).pc = (s.atts b).pc := h.att_frame hb _ (fun _ _ _ => rfl) ha
    exact .opening (a := b) (by rw [e]; exact ho)

lemma current_cases (h : Step n s a s') (num : Numbering s) {b} (hb : b < s.natts)
    (hg : (s.atts b).gen = s.entry.consumerGen) :
    (b < s'.natts ∧ (s'.atts b).gen = s'.entry.consumerGen ∧ (s'.atts b).gen = (s.atts b).gen) ∨ Cared s' := by
  rcases h.gen_cases num with ⟨eg, gens⟩ | ⟨c, p, hc, hcg, hcp⟩
  · exact .inl ⟨Nat.lt_of_lt_of_le hb h.natts_le, by rw [gens b hb, eg, hg], gens b hb⟩
  · exact .inr (.binding hc hcg (.inl ⟨p, hcp⟩))

lemma step_binding (num : Numbering s) (h : Step n s a s') (reg : s'.entry.life = .registered)
    (hok : trackTimely s a = true) {b} (hb : b < s.natts)
    (hg : (s.atts b).gen = s.entry.consumerGen)
    (hp : (∃ p, (s.atts b).pc = .bound p) ∨ (s.atts b).pc = .takenOver) : Cared s' := by
  rcases current_cases h num hb hg with ⟨hb', hg', egen⟩ | cared
  case inr => exact cared
  case inl =>
  by_cases ha : a.attachment = some b
  · cases h
    case takeover => cases ha; exact .binding (a := b) hb' hg' (.inr (by simp))
    case track =>
      cases ha
      have hl : s.entry.life = .registered := reg
      simp only [trackTimely, Entry.lookup, hl, hg, decide_true, Bool.not_true, if_true,
        Bool.false_eq_true, if_false, Bool.not_eq_true'] at hok
      exact .tracked (a := b) hb' hg' (by simp) (by simpa using hok)
    all_goals cases ha
    all_goals grind
  · have e : (s'.atts b).pc = (s.atts b).pc := h.att_frame hb _ (fun _ _ _ => rfl) ha
    exact .binding hb' hg' (by rwa [e])

/-- A tracked binding is in the snapshot of its connection, unless somebody who untracks it removes the
    session, or the handler of the current binding takes its place. -/
lemma step_tracked (num : Numbering s) (h : Step n s a s') (reg : s'.entry.life = .registered)
    (hok : trackTimely s a = true) {b} (hb : b < s.natts)
    (hg : (s.atts b).gen = s.entry.consumerGen) (hs : (s.conns (s.atts b).conn).sub = some b)
    (hr : (s.conns (s.atts b).conn).read.pastSnapshot = false) : Cared s' := by
  rcases current_cases h num hb hg with ⟨hb', hg', egen⟩ | cared
  case inr => exact cared
  case inl =>
  have ec := h.att_conn hb
  -- what is left to show: the handle and the read loop of this one connection
  suffices (s'.conns (s.atts b).conn).sub = some b ∧
      (s'.conns (s.atts b).conn).read.pastSnapshot = false ∨ Cared s' by
    rcases this with ⟨hs', hr'⟩ | hc
    · exact .tracked hb' hg' (by rwa [ec]) (by rwa [ec])
    · exact hc
  by_cases ha : a.readerAct = false
  · have e := h.reader_frame ha (s.atts b).conn
    simp only [Conn.reader, Prod.mk.injEq] at e
    exact .inl ⟨by rw [e.1, hs], by rw [e.2, hr]⟩
  have other : ∀ {c x}, (s.atts b).conn ≠ c →
      (Function.update s.conns c x (s.atts b).conn).sub = some b ∧
        (Function.update s.conns c x (s.atts b).conn).read.pastSnapshot = false := by
    intro c x e
    rw [Function.update_of_ne e]
    exact ⟨hs, hr⟩
  have moved : ∀ {c x}, x.sub = (s.conns c).sub → x.read.pastSnapshot = false →
      (Function.update s.conns c x (s.atts b).conn).sub = some b ∧
        (Function.update s.conns c x (s.atts b).conn).read.pastSnapshot = false := by
    intro c x hx hx'
    by_cases e : (s.atts b).conn = c
    · subst e
      simp [hx, hx', hs]
    · exact other e
  have away : ∀ {c}, (s.conns c).sub = none ∨ (s.conns c).read.pastSnapshot = true →
      (s.atts b).conn ≠ c := by
    rintro c hc rfl
    rw [hs, hr] at hc
    simp at hc
  cases h
  case cancelUntrack c _ =>
    by_cases e : (s.atts b).conn = c
    · subst e
      exact .inr (.cancelConn (a := b) hb' (by simp))
    · exact .inl (other e)
  case cancelGone hl => exact absurd reg hl
  case untrack c _ _ => exact .inr (.cancelConsumer (a := c) (by simp; rfl))
  case producerUntrack => exact .inr (.cancelProducer rfl)
  case readEnd c d hd hsd =>
    by_cases e : (s.atts b).conn = c
    · subst e
      obtain rfl : b = d := Option.some.inj (hs.symm.trans hsd)
      exact .inr (.detaching (a := b) hb' hg' (by simp))
    · exact .inl (other e)
  case track c hp =>
    by_cases e : (s.atts b).conn = (s.atts c).conn
    · have hc : c < s.natts := num.lt (by simp [hp])
      have hl : s.entry.life = .registered := reg
      by_cases hgc : (s.atts c).gen = s.entry.consumerGen
      · simp only [trackTimely, Entry.lookup, hl, hgc, decide_true, Bool.not_true, if_true,
          Bool.false_eq_true, if_false, Bool.not_eq_true'] at hok
        exact .inr (.tracked (a := c) hc (by simpa using hgc) (by simp) (by simpa using hok))
      · simp [trackTimely, Entry.lookup, hl, hgc, ← e, hs, hg] at hok
    · exact .inl (other e)
  case cancelRemove => cases reg
  case cancelLookup => exact .inl (moved rfl rfl)
  case cancelSend => exact .inl (moved (congrArg Prod.fst Conn.sendPriority_reader) rfl)
  case cancelReturn => exact .inl (moved rfl rfl)
  case readEndIdle hn => exact .inl (other (away (.inl hn)))
  case detachNone hd => exact .inl (other (away (.inr (by rw [hd]; rfl))))
  case detachStale hd _ => exact .inl (other (away (.inr (by rw [hd]; rfl))))
  case detach => exact .inr (.pending (.inl rfl))
  case closeDone hd => exact .inl (other (away (.inr (by rw [hd]; rfl))))
  all_goals exact absurd rfl ha

/-- The snapshot is followed by a `Detach` with the generation it found. -/
lemma step_detaching (num : Numbering s) (h : Step n s a s') (reg : s'.entry.life = .registered)
    {b} (hb : b < s.natts) (hg : (s.atts b).gen = s.entry.consumerGen)
    (hr : (s.conns (s.atts b).conn).read = .detaching (some (s.atts b).gen)) : Cared s' := by
  rcases current_cases h num hb hg with ⟨hb', hg', egen⟩ | cared
  case inr => exact cared
  case inl =>
  rcases h.read_cases (s.atts b).conn with e | m
  · exact .detaching hb' hg' (by rw [h.att_conn hb, egen, e, hr])
  · generalize (s'.conns (s.atts b).conn).read = r at m
    cases m
    case detach =>
      cases h with
      | detachNone hd =>
        rw [hr] at hd
        cases hd
      | detachStale hd hne =>
        rw [hr] at hd
        cases hd
        exact absurd hg.symm (hne reg)
      | detach => exact .pending (.inl rfl)
    all_goals simp_all

/-- A `handleCancel` that stands before its `Registry.Cancel` makes the call. -/
lemma step_cancelConn (h : Step n s a s') (reg : s'.entry.life = .registered) {b}
    (hb : b < s.natts) (hr : (s.conns (s.atts b).conn).read = .cancelUntracked) : Cared s' := by
  have hb' : b < s'.natts := Nat.lt_of_lt_of_le hb h.natts_le
  rcases h.read_cases (s.atts b).conn with e | m
  · exact .cancelConn hb' (by rw [h.att_conn hb, e, hr])
  · generalize (s'.conns (s.atts b).conn).read = r at m
    cases m
    case cancelRemove =>
      cases h with
      | cancelRemove => cases reg
      | cancelGone _ hl => exact absurd reg hl
    all_goals simp_all

/-- A consumer that stands before its `Registry.Cancel` makes the call. -/
lemma step_cancelConsumer (num : Numbering s) (h : Step n s a s')
    (reg : s'.entry.life = .registered) {b why} (hp : (s.atts b).pc = .cancelling why) :
    Cared s' := by
  have hb : b < s.natts := num.lt (by simp [hp])
  by_cases ha : a.attachment = some b
  · cases h
    case consumerCancel => cases reg
    case consumerGone hl => exact absurd reg hl
    all_goals cases ha
    all_goals grind
  · have e : (s'.atts b).pc = (s.atts b).pc := h.att_frame hb _ (fun _ _ _ => rfl) ha
    exact .cancelConsumer (e.trans hp)

/-- The producer that stands before its `Registry.Cancel` makes the call. -/
lemma step_cancelProducer (h : Step n s a s') (reg : s'.entry.life = .registered)
    (hp : s.producer = .failedUntracked) : Cared s' := by
  cases h
  case producerCancel => cases reg
  case producerGone hl => exact absurd reg hl
  all_goals first
    | exact .cancelProducer hp
    | grind

lemma step (num : Numbering s) (h : Step n s a s') (hok : trackTimely s a = true)
    (reg : s'.entry.life = .registered) (cared : Cared s) : Cared s' := by
  cases cared with
  | pending hp => exact step_pending h reg hp
  | opening ho => exact step_opening num h reg ho
  | binding hb hg hp => exact step_binding num h reg hok hb hg hp
  | tracked hb hg hs hr => exact step_tracked num h reg hok hb hg hs hr
  | detaching hb hg hr => exact step_detaching num h reg hb hg hr
  | cancelConn hb hr => exact step_cancelConn h reg hb hr
  | cancelConsumer hp => exact step_cancelConsumer num h reg hp
  | cancelProducer hp => exact step_cancelProducer h reg hp

lemma of_birth (h : Step n s a s') (reg : s'.entry.life = .registered)
    (hl : s.entry.life ≠ .registered) : Cared s' := by
  cases h
  case openFresh => exact .opening (a := s.natts) (by simp [Pc.opening])
  all_goals first
    | exact absurd reg hl
    | cases reg

end Cared

lemma reach_cared {n : Nat} {s : State μ} (rch : ((server n).only trackTimely).Reach s) :
    s.entry.life = .registered → Cared s := by
  refine only_invariant (fun s => s.entry.life = .registered → Cared s) ?_ ?_ rch
  · intro opts plan hl
    cases hl
  · intro s a s' rch hok h inv reg
    by_cases hl : s.entry.life = .registered
    · exact (inv hl).step (reach_numbering rch.of_only) h hok reg
    · exact .of_birth h reg hl

/-- In every run that tracks in time, a session whose handlers, consumers and connection teardowns are
    all through is out of the registry or has a current eviction pending. -/
theorem quiet_not_leaked {n : Nat} {s : State μ} (rch : ((server n).only trackTimely).Reach s)
    (quiet : Quiet s) : s.entry.life ≠ .registered ∨ s.entry.EvictionPending := by
  by_cases hl : s.entry.life = .registered
  case neg => exact .inl hl
  have num := reach_numbering rch.of_only
  have ended : ∀ {a}, (s.atts a).pc ≠ .unused → (s.atts a).pc.ended = true :=
    fun h => quiet.ended _ (num.lt h)
  right
  cases reach_cared rch hl with
  | pending hp => exact hp
  | @opening a ho =>
    have := ended (a := a) (by rintro e; rw [e] at ho; cases ho)
    cases hp : (s.atts a).pc <;> simp_all [Pc.opening, Pc.ended]
  | @binding a hb hg hp =>
    have := quiet.ended a hb
    rcases hp with ⟨p, hp⟩ | hp <;> simp [hp, Pc.ended] at this
  | @tracked a hb hg hs hr =>
    rw [quiet.closed a hb] at hr
    cases hr
  | @detaching a hb hg hr =>
    rw [quiet.closed a hb] at hr
    cases hr
  | @cancelConn a hb hr =>
    rw [quiet.closed a hb] at hr
    cases hr
  | @cancelConsumer a why hp =>
    have := ended (a := a) (by simp [hp])
    simp [hp, Pc.ended] at this
  | cancelProducer hp => exact absurd hp quiet.producer

/-- `Quiet` for a state with a known number of attachments. -/
lemma Quiet.of_all {s : State μ}
    (h : (List.range s.natts).all (fun a => (s.atts a).pc.ended &&
      decide ((s.conns (s.atts a).conn).read = .closed)) = true)
    (hp : s.producer ≠ .failedUntracked) : Quiet s := by
  simp only [List.all_eq_true, List.mem_range, Bool.and_eq_true, decide_eq_true_eq] at h
  exact ⟨fun a ha => (h a ha).1, fun a ha => (h a ha).2, hp⟩

/-- A drop in mid-stream: the consumer's write fails after the teardown. -/
def dropRun : List Action :=
  [.openFresh 0 0, .opening 0 .reply, .opening 0 .bind, .opening 0 .takeover, .opening 0 .track,
   .producer .spawn, .producer .record, .producer .append, .consumer 0 .fetch, .conn 0 .readEnd,
   .conn 0 .detach, .conn 0 .closeDone, .consumer 0 .send, .consumer 0 .dispose]

/-- The dropped session waits for its eviction. -/
theorem dropped_session_not_leaked :
    ∃ s : State Unit, ((server 64).only trackTimely).Reach s ∧ Quiet s ∧
      s.entry.life = .registered ∧ s.entry.EvictionPending := by
  have run : (((server 64).only trackTimely).replay (State.start ⟨2, 100⟩ [⟨1, 5, [()]⟩]) dropRun).any
      (fun s : State Unit => decide (((List.range s.natts).all (fun a => (s.atts a).pc.ended &&
        decide ((s.conns (s.atts a).conn).read = .closed)) = true ∧
        s.producer ≠ .failedUntracked) ∧ s.entry.life = .registered)) = true := by
    decide +kernel
  obtain ⟨s, rch, hs⟩ := replay_only_reach run
  obtain ⟨⟨hq, hp⟩, hl⟩ := of_decide_eq_true hs
  have quiet := Quiet.of_all hq hp
  exact ⟨s, rch, quiet, hl, (quiet_not_leaked rch quiet).resolve_left (fun h => h hl)⟩

/-- The handler tracks after the snapshot and the teardown of its connection. -/
def lateTrackRun : List Action :=
  [.openFresh 0 0, .opening 0 .reply, .opening 0 .bind, .opening 0 .takeover, .conn 0 .readEnd,
   .conn 0 .detach, .conn 0 .closeDone, .opening 0 .track, .producer .spawn, .producer .record,
   .producer .append, .consumer 0 .fetch, .consumer 0 .send, .consumer 0 .dispose]

/-- Without the condition a session is left behind: its handler, its teardown and its consumer are
    through, it is registered, and no eviction is pending. -/
theorem late_track_leaks :
    ∃ s : State Unit, (server 64).Reach s ∧ Quiet s ∧ s.entry.life = .registered ∧
      ¬ s.entry.EvictionPending := by
  have run : ((server 64).replay (State.start ⟨2, 100⟩ [⟨1, 5, [()]⟩]) lateTrackRun).any
      (fun s : State Unit => decide (((List.range s.natts).all (fun a => (s.atts a).pc.ended &&
        decide ((s.conns (s.atts a).conn).read = .closed)) = true ∧
        s.producer ≠ .failedUntracked) ∧ s.entry.life = .registered ∧
        ¬ s.entry.EvictionPending)) = true := by
    decide +kernel
  obtain ⟨s, rch, hs⟩ := replay_reach run
  obtain ⟨⟨hq, hp⟩, hl, he⟩ := of_decide_eq_true hs
  exact ⟨s, rch, Quiet.of_all hq hp, hl, he⟩

end PjCloud.Session
