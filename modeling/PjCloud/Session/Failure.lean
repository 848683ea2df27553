import PjCloud.Session.Terminal

/-!
# Producer failure

When `Producer.Run` ends with a stream-fatal error or a panic, its goroutine removes the session, which
cancels the bound consumer, and then queues `Error` and `Eos{ERROR}` on the connection captured when the
session was opened. A resume moves the binding to another connection, but not the captured one. The two
frames reach the connection that held the binding exactly when that is still the opener
(`failure_reaches_holder_iff`).
-/

namespace PjCloud.Session
open PjCloud.Lib
variable {μ : Type}

def failureFrames (c : Nat) : List (Nat × Frame μ) :=
  [(c, .error .s3Unavailable "stream failed"), (c, .eos .error 0 0)]

/-- What the failure path has done so far. -/
structure FailInv (s : State μ) : Prop where
  routed : ∀ p ∈ s.terminal, (∃ code message, p.2 = .error code message) → p.1 = s.opener
  reported : s.producer = .failedReported →
    (s.conns s.opener).done = true ∨
      (s.opener, .error .s3Unavailable "stream failed") ∈ s.terminal
  held : s.holder ≠ none → s.producer = .failedCancelled ∨ s.producer = .failedReported ∨
    ((s.producer = .ended ∨ s.producer = .closed) ∧
      ((s.conns s.opener).done = true ∨ (failureFrames s.opener).Sublist s.terminal))

namespace FailInv
variable {n : Nat} {s s' : State μ} {a : Action}

lemma terminal_grows (h : Step n s a s') : s.terminal <+: s'.terminal := by
  rcases h.terminal_cases with e | ⟨c, f, -, -, e⟩
  · exact e.symm ▸ List.prefix_refl _
  · rw [e]
    exact List.prefix_append _ _

/-- An `Error` goes to the opener. -/
lemma step_routed (inv : FailInv s) (unborn : s.entry.life = .unregistered → Unborn s)
    (h : Step n s a s') (p : Nat × Frame μ) (hp : p ∈ s'.terminal)
    (he : ∃ code message, p.2 = .error code message) : p.1 = s'.opener := by
  have born : p ∈ s.terminal → s.entry.life ≠ .unregistered := fun hm hl => by
    rw [(unborn hl).quiet] at hm
    cases hm
  rcases h.terminal_cases with e | ⟨c, f, hq, -, e⟩
  · rw [e] at hp
    rw [h.opener_frame (born hp)]
    exact inv.routed p hp he
  · rw [e, List.mem_append, List.mem_singleton] at hp
    rcases hp with hp | rfl
    · rw [h.opener_frame (born hp)]
      exact inv.routed p hp he
    · obtain ⟨code, message, he⟩ := he
      cases hq with
      | error =>
        cases h
        rfl
      | _ => cases he

/-- The `Error` is queued unless the connection is finished. -/
lemma step_reported (inv : FailInv s) (unborn : s.entry.life = .unregistered → Unborn s)
    (h : Step n s a s') (hp : s'.producer = .failedReported) :
    (s'.conns s'.opener).done = true ∨
      (s'.opener, .error .s3Unavailable "stream failed") ∈ s'.terminal := by
  by_cases ha : ∃ act, a = .producer act
  · obtain ⟨act, rfl⟩ := ha
    cases h
    case producerError =>
      cases hd : (s.conns s.opener).done with
      | true => exact .inl (by simp [sendPriority, hd])
      | false => exact .inr (by simp [logTerminal, hd, Frame.terminal])
    case finish => simp at hp; split at hp <;> simp_all
    all_goals simp_all
  · rw [(h.producer_frame fun act e => ha ⟨act, e⟩).1] at hp
    have born : s.entry.life ≠ .unregistered := fun hl => by simp [(unborn hl).idle] at hp
    rw [h.opener_frame born]
    exact (inv.reported hp).imp h.done_mono fun hm => (terminal_grows h).subset hm

/-- The failure path runs to its end and queues both frames unless the connection is finished. -/
lemma step_held (inv : FailInv s) (unborn : s.entry.life = .unregistered → Unborn s)
    (h : Step n s a s') (hh : s'.holder ≠ none) :
    s'.producer = .failedCancelled ∨ s'.producer = .failedReported ∨
      ((s'.producer = .ended ∨ s'.producer = .closed) ∧
        ((s'.conns s'.opener).done = true ∨
          (failureFrames s'.opener).Sublist s'.terminal)) := by
  by_cases ha : ∃ act, a = .producer act
  · obtain ⟨act, rfl⟩ := ha
    cases h
    case producerCancel => exact .inl rfl
    case producerGone => exact .inl rfl
    case producerError => exact .inr (.inl rfl)
    case producerEos hp _ =>
      refine .inr (.inr ⟨.inl rfl, ?_⟩)
      cases hd : (s.conns s.opener).done with
      | true => exact .inl (by simp [sendPriority, hd])
      | false =>
        have hm := (inv.reported hp).resolve_left (by simp [hd])
        refine .inr ?_
        simp only [logTerminal, hd, Frame.terminal, Bool.not_true, Bool.or_self,
          Bool.false_eq_true, if_false]
        exact (List.singleton_sublist.mpr hm).append (List.Sublist.refl [_])
    case close hp =>
      rcases inv.held hh with h' | h' | h'
      · simp [hp] at h'
      · simp [hp] at h'
      · exact .inr (.inr ⟨.inr rfl, h'.2⟩)
    all_goals
      have := inv.held hh
      simp_all
  · obtain ⟨ep, -⟩ := h.producer_frame fun act e => ha ⟨act, e⟩
    have eh : s'.holder = s.holder := by
      cases h <;> first | rfl | exact absurd ⟨_, rfl⟩ ha
    rw [eh] at hh
    rw [ep]
    have hheld := inv.held hh
    have born : s.entry.life ≠ .unregistered := fun hl => by simp [(unborn hl).idle] at hheld
    rw [h.opener_frame born]
    refine hheld.imp_right (Or.imp_right (And.imp_right (Or.imp h.done_mono ?_)))
    exact fun hs => hs.trans (terminal_grows h).sublist

end FailInv

lemma reach_failInv {n : Nat} {s : State μ} (rch : (server n).Reach s) : FailInv s := by
  refine server_invariant FailInv ?_ ?_ rch
  · intro opts plan
    constructor <;> simp [State.start]
  · intro s a s' rch h inv
    have unborn := reach_unborn rch
    exact ⟨inv.step_routed unborn h, inv.step_reported unborn h, inv.step_held unborn h⟩

/-- After the failure path has run, a live connection that held the consumer binding when the session was
    cancelled has got `Error` and then `Eos{ERROR}` if and only if it is the connection that opened the
    session. -/
theorem failure_reaches_holder_iff {n : Nat} {s : State μ} {c : Nat} (rch : (server n).Reach s)
    (ended : s.producer = .ended ∨ s.producer = .closed) (held : s.holder = some c)
    (live : (s.conns c).done = false) :
    (failureFrames c).Sublist s.terminal ↔ c = s.opener := by
  have inv := reach_failInv rch
  constructor
  · intro hs
    have hm : (c, .error .s3Unavailable "stream failed") ∈ s.terminal := hs.subset (by
      simp [failureFrames])
    exact inv.routed _ hm ⟨_, _, rfl⟩
  · rintro rfl
    rcases inv.held (by simp [held]) with h | h | h
    · simp [h] at ended
    · simp [h] at ended
    · exact h.2.resolve_left (by simp [live])

/-- The failure path of the producer, from the error to the closed `ProducerDone`. -/
def failureRun : List Action :=
  [.producer (.finish .failed), .producer .untrack, .producer .cancel, .registry .teardown,
   .registry .teardown, .registry .teardown, .producer .error, .producer .eos, .producer .close]

def failAtOpenerRun : List Action :=
  [.openFresh 0 0, .opening 0 .reply, .opening 0 .bind, .opening 0 .takeover, .opening 0 .track,
   .producer .spawn] ++ failureRun

/-- A client that has not moved is told. -/
theorem failure_reaches_opener :
    ∃ s : State Unit, (server 64).Reach s ∧ s.holder = some 0 ∧
      (failureFrames 0).Sublist s.terminal := by
  have run : ((server 64).replay (State.start ⟨2, 100⟩ []) failAtOpenerRun).any
      (fun s : State Unit => decide (s.producer = .closed ∧ s.holder = some 0 ∧
        (s.conns 0).done = false ∧ s.opener = 0)) = true := by
    decide +kernel
  obtain ⟨s, rch, hs⟩ := replay_reach run
  obtain ⟨hp, hh, hd, ho⟩ := of_decide_eq_true hs
  exact ⟨s, rch, hh, (failure_reaches_holder_iff rch (.inr hp) hh hd).mpr ho.symm⟩

/-- A session that is resumed on a second connection and then fails. -/
def failAfterResumeRun : List Action :=
  [.openFresh 0 0, .opening 0 .reply, .opening 0 .bind, .opening 0 .takeover, .opening 0 .track,
   .producer .spawn, .conn 0 .readEnd, .conn 0 .detach, .conn 0 .closeDone, .openResume 1 0,
   .opening 1 .reattach, .opening 1 .prune, .opening 1 .reply, .opening 1 .bind,
   .opening 1 .takeover, .opening 1 .track] ++ failureRun

/-- The client that has resumed holds the binding on a live connection, has its consumer cancelled and
    gets no terminal frame at all. -/
theorem failure_misses_resumed :
    ∃ s : State Unit, (server 64).Reach s ∧ s.producer = .closed ∧ s.holder = some 1 ∧
      (s.conns 1).done = false ∧ (s.atts 1).cancelled = true ∧ s.terminal = [] := by
  have run : ((server 64).replay (State.start ⟨2, 100⟩ []) failAfterResumeRun).any
      (fun s : State Unit => decide (s.producer = .closed ∧ s.holder = some 1 ∧
        (s.conns 1).done = false ∧ (s.atts 1).cancelled = true ∧ s.terminal = [])) = true := by
    decide +kernel
  obtain ⟨s, rch, hs⟩ := replay_reach run
  exact ⟨s, rch, of_decide_eq_true hs⟩

end PjCloud.Session
