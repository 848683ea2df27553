import PjCloud.Session.Frame

/-!
# Terminal frames

A stream ends with `Eos{COMPLETE}` from the consumer's `drainAndEos`, with `Eos{CANCELLED}` from
`handleCancel`, or with `Error` and `Eos{ERROR}` from the producer's failure path. Three goroutines queue
them, and nothing orders the three: `handleCancel` queues its frame before it removes the session, and a
drain that has begun is not stopped by a cancelled context.

`TerminalLaw` is what a client may expect of the frames queued for its session. It fails when a cancel
lands in a drain (`cancel_during_drain`). It holds in every run where the three paths keep apart, which
`terminalsApart` says at the step where each of them is entered (`terminal_law`).
-/

namespace PjCloud.Session
open PjCloud.Lib
variable {μ : Type}

/-- The frame is an `Eos`. -/
def Frame.isEos : Frame μ → Bool
  | .eos _ _ _ => true
  | _ => false

/-- The frame is an `Eos{COMPLETE}`. -/
def Frame.isComplete : Frame μ → Bool
  | .eos .complete _ _ => true
  | _ => false

/-- At most one `Eos` is queued for a connection, and no `Eos{COMPLETE}` is queued after another `Eos`
    of the session that is not one. -/
def TerminalLaw (log : List (Nat × Frame μ)) : Prop :=
  log.Pairwise fun p q => p.2.isEos = true → q.2.isEos = true →
    p.1 ≠ q.1 ∧ (q.2.isComplete = true → p.2.isComplete = true)

/-- The consumer is in `drainAndEos` or has come to its end. -/
def Pc.completing : Pc → Bool
  | .draining => true
  | .stopped why => why = .eos
  | .untracking why => why = .eos
  | .cancelling why => why = .eos
  | .exited why => why = .eos
  | _ => false

/-- The read loop is in `handleCancel`, between `Lookup` and `Cancel`. -/
def ReadPc.cancelling : ReadPc → Bool
  | .cancelLooked => true
  | .cancelSent => true
  | .cancelUntracked => true
  | _ => false

/-- The producer is on its stream-fatal path. -/
def ProducerPc.fatal : ProducerPc → Bool
  | .failed => true
  | .failedUntracked => true
  | .failedCancelled => true
  | .failedReported => true
  | _ => false

/-- The three ways to end a stream keep apart:
    * a `CancelSession` is looked up only when no consumer drains, none has completed on the same
      connection, and the producer is not failing towards that connection;
    * a consumer begins to drain only while the session is registered, nobody is in `handleCancel`, and
      no other consumer drains or has completed on the same connection;
    * the producer fails only while the session is registered and its opener is not in
      `handleCancel`. -/
def terminalsApart (s : State μ) : Action → Bool
  | .conn c .cancelLookup =>
    (List.range s.natts).all (fun a => decide ((s.atts a).pc ≠ .draining) &&
        !(decide ((s.atts a).conn = c) && (s.atts a).pc.completing)) &&
      !(decide (c = s.opener) && s.producer.fatal)
  | .consumer a .producerDone =>
    (s.atts a).cancelled ||
      (s.entry.lookup && s.cancels.isEmpty &&
        (List.range s.natts).all (fun b => decide (b = a) ||
          !(decide ((s.atts b).conn = (s.atts a).conn) && (s.atts b).pc.completing)))
  | .producer (.finish how) =>
    !streamFatal s.prodCancelled how || (s.entry.lookup && !decide (s.opener ∈ s.cancels))
  | _ => true

/-- The ways to queue a terminal frame. -/
inductive Queued (s : State μ) : Action → Nat → Frame μ → Prop where
  | cancelled {c} : (s.conns c).read = .cancelLooked →
    Queued s (.conn c .cancelSend) c (.eos .cancelled 0 0)
  | complete {a} : (s.atts a).pc = .draining → s.retain.next? (s.atts a).lastSeq = none →
    Queued s (.consumer a .eos) (s.atts a).conn
      (.eos .complete (s.atts a).messagesSent (s.atts a).bytesSent)
  | error : s.producer = .failedCancelled →
    Queued s (.producer .error) s.opener (.error .s3Unavailable "stream failed")
  | eosError : s.producer = .failedReported →
    Queued s (.producer .eos) s.opener (.eos .error 0 0)

lemma Step.terminal_cases {n : Nat} {s s' : State μ} {a} (h : Step n s a s') :
    s'.terminal = s.terminal ∨
      ∃ c f, Queued s a c f ∧ (s.conns c).done = false ∧ s'.terminal = s.terminal ++ [(c, f)] := by
  have logged : ∀ {c f}, Queued s a c f → f.terminal = true →
      logTerminal s.conns s.terminal c f = s.terminal ∨
      ∃ c' f', Queued s a c' f' ∧ (s.conns c').done = false ∧
        logTerminal s.conns s.terminal c f = s.terminal ++ [(c', f')] := by
    intro c f hq hf
    cases hd : (s.conns c).done with
    | true => exact .inl (by simp [logTerminal, hd])
    | false => exact .inr ⟨c, f, hq, hd, by simp [logTerminal, hd, hf]⟩
  cases h
  case cancelSend hr _ => exact logged (.cancelled hr) rfl
  case eos hp _ hn _ => exact logged (.complete hp hn) rfl
  case producerError hp _ _ => exact logged (.error hp) rfl
  case producerEos hp _ => exact logged (.eosError hp) rfl
  all_goals exact .inl rfl

lemma Step.terminal_mem {n : Nat} {s s' : State μ} {a c f} (h : Step n s a s') (hm : (c, f) ∈ s'.terminal) :
    (c, f) ∈ s.terminal ∨ Queued s a c f := by
  rcases h.terminal_cases with e | ⟨d, g, hq, -, e⟩
  · exact .inl (e ▸ hm)
  · rw [e, List.mem_append, List.mem_singleton] at hm
    rcases hm with hm | hm
    · exact .inl hm
    · cases hm
      exact .inr hq

/-- A consumer completes only by entering `drainAndEos` with a live context. -/
lemma Step.completing_cases {n : Nat} {s s' : State μ} {a} (num : Numbering s) (h : Step n s a s')
    {b} (hc : (s'.atts b).pc.completing = true) :
    (s.atts b).pc.completing = true ∧ ((s'.atts b).pc = .draining → (s.atts b).pc = .draining) ∨
      a = .consumer b .producerDone ∧ (s.atts b).cancelled = false ∧ s.producerDone = true ∧
        (s.atts b).pc = .running := by
  by_cases hb : b < s.natts
  case neg =>
    rcases h.pc_new num (Nat.le_of_not_lt hb) with e | e | e <;> rw [e] at hc <;> cases hc
  by_cases ha : a.attachment = some b
  · cases h
    case producerDone hp hd hk => cases ha; exact .inr ⟨rfl, hk, hd, hp⟩
    case dispose c why hp =>
      cases ha
      rcases disposition_cases (s.atts b) why with e | e <;> simp_all [Pc.completing]
    all_goals cases ha
    all_goals simp_all [Pc.completing]
  · have e : (s'.atts b).pc = (s.atts b).pc := h.att_frame hb _ (fun _ _ _ => rfl) ha
    rw [e] at hc ⊢
    exact .inl ⟨hc, id⟩

/-- Inside `handleCancel` a connection is listed. -/
lemma Step.cancels_mem {n : Nat} {s s' : State μ} {a} (h : Step n s a s') {c} (hc : c ∈ s.cancels)
    (ha : a ≠ .conn c .cancelRemove) : c ∈ s'.cancels := by
  cases h
  case cancelLookup => exact List.mem_cons_of_mem _ hc
  case cancelRemove d _ _ =>
    have : c ≠ d := fun e => ha (e ▸ rfl)
    exact (List.mem_erase_of_ne this).mpr hc
  case cancelGone d _ _ =>
    have : c ≠ d := fun e => ha (e ▸ rfl)
    exact (List.mem_erase_of_ne this).mpr hc
  all_goals exact hc

/-- An `Eos` has a reason and two totals. -/
lemma Frame.isEos_iff {f : Frame μ} : f.isEos = true ↔ ∃ r x y, f = .eos r x y := by
  cases f <;> simp [isEos]

lemma Step.completed_mono {n : Nat} {s s' : State μ} {a} (h : Step n s a s') {b} (hb : b < s.natts)
    (hc : (s.atts b).pc.completing = true) (hd : (s.atts b).pc ≠ .draining) :
    (s'.atts b).pc.completing = true ∧ (s'.atts b).pc ≠ .draining := by
  by_cases ha : a.attachment = some b
  · cases h
    case dispose c why hp =>
      cases ha
      rcases disposition_cases (s.atts b) why with e | e <;> simp_all [Pc.completing]
    all_goals cases ha
    all_goals grind [Pc.completing]
  · have e : (s'.atts b).pc = (s.atts b).pc := h.att_frame hb _ (fun _ _ _ => rfl) ha
    rw [e]
    exact ⟨hc, hd⟩

/-- The producer gets onto its stream-fatal path when `Run` ends so. -/
lemma Step.fatal_cases {n : Nat} {s s' : State μ} {a} (h : Step n s a s')
    (hf : s'.producer.fatal = true) :
    s.producer.fatal = true ∨
      ∃ how, a = .producer (.finish how) ∧ streamFatal s.prodCancelled how = true := by
  cases h
  case finish how _ _ =>
    refine .inr ⟨how, rfl, ?_⟩
    by_contra hn
    simp [hn, ProducerPc.fatal] at hf
  all_goals first
    | exact .inl hf
    | exact .inl (by simp_all [ProducerPc.fatal])

/-- `ProducerDone` is closed once. -/
lemma Step.producerDone_mono {n : Nat} {s s' : State μ} {a} (h : Step n s a s')
    (hd : s.producerDone = true) : s'.producerDone = true := by
  cases h
  case close => rfl
  all_goals exact hd

/-- Before the session is registered it has no producer, no terminal frame and no canceller. -/
structure Unborn (s : State μ) : Prop where
  idle : s.producer = .idle
  quiet : s.terminal = []
  reading : ∀ c, (s.conns c).read.cancelling = false

lemma Unborn.step {n : Nat} {s s' : State μ} {a} (num : Numbering s)
    (hl : s.entry.life = .unregistered) (u : Unborn s) (h : Step n s a s') : Unborn s' := by
  have idle : ∀ b, (s.atts b).pc = .unused := fun b =>
    num.unused b (by rw [(num.unborn hl).2]; exact Nat.zero_le b)
  refine ⟨?_, ?_, fun c => ?_⟩
  · have hp := u.idle
    cases h
    case spawn hs => simp [idle, Pc.spawned] at hs
    all_goals first
      | exact hp
      | simp_all
  · rcases h.terminal_cases with e | ⟨c, f, hq, -, -⟩
    · rw [e, u.quiet]
    · cases hq with
      | @cancelled c hr => simpa [hr, ReadPc.cancelling] using u.reading c
      | complete hp => simp [idle] at hp
      | error hp => simp [u.idle] at hp
      | eosError hp => simp [u.idle] at hp
  · have hc := u.reading c
    rcases h.read_cases c with e | m
    · rw [e, hc]
    · generalize (s'.conns c).read = r at m
      cases m <;> simp_all [ReadPc.cancelling]

lemma reach_unborn {n : Nat} {s : State μ} (rch : (server n).Reach s) :
    s.entry.life = .unregistered → Unborn s := by
  refine server_invariant (fun s => s.entry.life = .unregistered → Unborn s) ?_ ?_ rch
  · intro opts plan _
    exact ⟨rfl, rfl, fun _ => rfl⟩
  · intro s a s' rch h ih hl
    rcases h.life_cases with e | e | ⟨e, -⟩
    · exact (ih (e ▸ hl)).step (reach_numbering rch) (e ▸ hl) h
    · rw [hl] at e
      cases e
    · exact (ih e).step (reach_numbering rch) e h

/-- Consumers complete after the producer goroutine has returned. -/
structure CompletionInv (s : State μ) : Prop where
  done : ∀ a, (s.atts a).pc.completing = true → s.producerDone = true
  closed : s.producerDone = true → s.producer = .closed

lemma CompletionInv.step {n : Nat} {s s' : State μ} {a} (inv : CompletionInv s) (num : Numbering s)
    (h : Step n s a s') : CompletionInv s' := by
  constructor
  · intro b hb
    obtain ⟨hc, -⟩ | ⟨-, -, hd, -⟩ := h.completing_cases num hb
    · exact h.producerDone_mono (inv.done b hc)
    · exact h.producerDone_mono hd
  · intro hd
    by_cases ha : ∃ act, a = .producer act
    · obtain ⟨act, rfl⟩ := ha
      cases h
      case close => rfl
      all_goals
        have := inv.closed hd
        simp_all
    · obtain ⟨ep, ed⟩ := h.producer_frame fun act e => ha ⟨act, e⟩
      rw [ep, inv.closed (ed ▸ hd)]

lemma reach_completionInv {n : Nat} {s : State μ} (rch : (server n).Reach s) : CompletionInv s :=
  server_invariant CompletionInv
    (fun _ _ => ⟨fun _ h => absurd h (by simp [State.start, Pc.completing]), (by intro h; cases h)⟩)
    (fun _ _ _ rch h inv => inv.step (reach_numbering rch) h) rch

/-- What the frames queued so far and the three goroutines know about each other. -/
structure TermInv (s : State μ) : Prop where
  law : TerminalLaw s.terminal
  listed : ∀ c, (s.conns c).read.cancelling = true → c ∈ s.cancels
  looked : ∀ c, (s.conns c).read = .cancelLooked →
    (∀ a, (s.atts a).pc ≠ .draining) ∧ (∀ f, (c, f) ∈ s.terminal → f.isEos = false) ∧
      (c = s.opener → s.producer.fatal = false)
  cancelled : ∀ c x y, (c, .eos .cancelled x y) ∈ s.terminal → s.entry.life = .registered →
    (s.conns c).read = .cancelSent ∨ (s.conns c).read = .cancelUntracked
  failed : ∀ c x y, (c, .eos .error x y) ∈ s.terminal →
    s.entry.life = .removed ∧ (s.producer = .ended ∨ s.producer = .closed)
  complete : ∀ c x y, (c, .eos .complete x y) ∈ s.terminal →
    ∃ a, (s.atts a).conn = c ∧ (s.atts a).pc.completing = true ∧ (s.atts a).pc ≠ .draining
  draining : ∀ a, (s.atts a).pc = .draining → ∀ p ∈ s.terminal, p.2.isEos = true →
    p.2.isComplete = true
  apart : ∀ a b, (s.atts a).conn = (s.atts b).conn → (s.atts a).pc.completing = true →
    (s.atts b).pc.completing = true → a = b
  fatal : s.producer.fatal = true → ∀ x y, (s.opener, .eos .cancelled x y) ∉ s.terminal
  gone : s.producer = .failedCancelled ∨ s.producer = .failedReported → s.entry.life = .removed

namespace TermInv
variable {n : Nat} {s s' : State μ} {a : Action}

lemma step_law (inv : TermInv s) (comp : CompletionInv s) (h : Step n s a s') :
    TerminalLaw s'.terminal := by
  rcases h.terminal_cases with e | ⟨c, f, hq, -, e⟩
  · rw [e]
    exact inv.law
  rw [e, TerminalLaw, List.pairwise_append]
  refine ⟨inv.law, List.pairwise_singleton _ _, ?_⟩
  rintro ⟨d, g⟩ hg q hq' hgE hqE
  rw [List.mem_singleton] at hq'
  subst hq'
  obtain ⟨r, x, y, rfl⟩ := Frame.isEos_iff.mp hgE
  cases hq with
  | cancelled hr =>
    refine ⟨?_, by simp [Frame.isComplete]⟩
    rintro rfl
    cases (inv.looked _ hr).2.1 _ hg
  | @complete b hp =>
    have hcomp : Frame.isComplete (.eos r x y : Frame μ) = true := inv.draining b hp _ hg hgE
    refine ⟨?_, fun _ => hcomp⟩
    rintro rfl
    obtain rfl : r = .complete := by cases r <;> simp_all [Frame.isComplete]
    obtain ⟨b', hb', hc', hne⟩ := inv.complete _ _ _ hg
    have := inv.apart b' b hb' hc' (by simp [hp, Pc.completing])
    exact hne (this ▸ hp)
  | error => cases hqE
  | eosError hp =>
    refine ⟨?_, by simp [Frame.isComplete]⟩
    rintro rfl
    cases r with
    | complete =>
      obtain ⟨b', -, hc', -⟩ := inv.complete _ _ _ hg
      have := comp.closed (comp.done b' hc')
      simp_all
    | cancelled => exact inv.fatal (by simp [hp, ProducerPc.fatal]) _ _ hg
    | error =>
      have := (inv.failed _ _ _ hg).2
      simp_all

/-- Everyone in `handleCancel` is listed. -/
lemma step_listed (inv : TermInv s) (h : Step n s a s') (c : Nat)
    (hc : (s'.conns c).read.cancelling = true) : c ∈ s'.cancels := by
  by_cases ha : a = .conn c .cancelRemove
  · subst ha
    cases h <;> simp [ReadPc.cancelling] at hc
  rcases h.read_cases c with e | m
  · exact h.cancels_mem (inv.listed c (e ▸ hc)) ha
  · generalize (s'.conns c).read = r at m hc
    cases m with
    | cancelLookup =>
      cases h
      exact List.mem_cons_self
    | cancelSend hr => exact h.cancels_mem (inv.listed c (by simp [hr, ReadPc.cancelling])) ha
    | cancelUntrack hr => exact h.cancels_mem (inv.listed c (by simp [hr, ReadPc.cancelling])) ha
    | _ => simp [ReadPc.cancelling] at hc

/-- Nobody begins to drain while somebody is in `handleCancel`. -/
lemma not_draining (inv : TermInv s) (num : Numbering s) (h : Step n s a s')
    (hok : terminalsApart s a = true) {c} (hc : (s.conns c).read.cancelling = true)
    (hd : ∀ b, (s.atts b).pc ≠ .draining) (b : Nat) : (s'.atts b).pc ≠ .draining := by
  intro hb
  have hcb : (s'.atts b).pc.completing = true := by simp [hb, Pc.completing]
  rcases h.completing_cases num hcb with ⟨-, hp⟩ | ⟨rfl, hk, -, -⟩
  · exact hd b (hp hb)
  · have := inv.listed c hc
    simp_all [terminalsApart]

/-- A `Lookup` of `handleCancel` excludes the other two ways to end the stream. -/
lemma step_looked (inv : TermInv s) (num : Numbering s) (unborn : s.entry.life = .unregistered → Unborn s)
    (h : Step n s a s') (hok : terminalsApart s a = true) (c : Nat)
    (hc : (s'.conns c).read = .cancelLooked) :
    (∀ b, (s'.atts b).pc ≠ .draining) ∧ (∀ f, (c, f) ∈ s'.terminal → f.isEos = false) ∧
      (c = s'.opener → s'.producer.fatal = false) := by
  rcases h.read_cases c with e | m
  · rw [e] at hc
    obtain ⟨hd, heos, hfat⟩ := inv.looked c hc
    have hcan : (s.conns c).read.cancelling = true := by simp [hc, ReadPc.cancelling]
    have born : s.entry.life ≠ .unregistered := fun hl => by
      have := (unborn hl).reading c
      simp_all
    refine ⟨inv.not_draining num h hok hcan hd, ?_, ?_⟩
    · intro f hf
      rcases h.terminal_mem hf with hf | hq
      · exact heos f hf
      · cases hq with
        | cancelled => cases h; simp [hc] at e
        | complete hp => exact absurd hp (hd _)
        | error => rfl
        | eosError hp => simp [hp, ProducerPc.fatal] at hfat
    · intro ho
      rw [h.opener_frame born] at ho
      by_contra hn
      rcases h.fatal_cases (by simpa using hn) with hf | ⟨how, rfl, hs⟩
      · simp [hfat ho] at hf
      · have := inv.listed c hcan
        simp_all [terminalsApart]
  · generalize (s'.conns c).read = r at m hc
    cases m with
    | cancelLookup hr hl =>
      simp only [terminalsApart, Bool.and_eq_true, List.all_eq_true, List.mem_range,
        Bool.not_eq_true', Bool.and_eq_false_iff, decide_eq_true_eq, decide_eq_false_iff_not] at hok
      cases h
      refine ⟨fun b hb => ?_, fun f hf => ?_, fun ho => ?_⟩
      · exact (hok.1 b (num.lt (by simp_all))).1 hb
      · by_contra hn
        obtain ⟨r, x, y, rfl⟩ := Frame.isEos_iff.mp (by simpa using hn)
        cases r with
        | complete =>
          obtain ⟨b, hb, hcb, -⟩ := inv.complete _ _ _ hf
          have hlt : b < s.natts := num.lt (by rintro e; simp [e, Pc.completing] at hcb)
          rcases (hok.1 b hlt).2 with h' | h'
          · exact h' hb
          · simp [hcb] at h'
        | cancelled => rcases inv.cancelled _ _ _ hf hl with h' | h' <;> simp [hr] at h'
        | error =>
          rw [(inv.failed _ _ _ hf).1] at hl
          cases hl
      · rcases hok.2 with h' | h'
        · exact absurd ho h'
        · exact h'
    | _ => cases hc

lemma registered_before (unborn : s.entry.life = .unregistered → Unborn s) (h : Step n s a s')
    {p} (hp : p ∈ s.terminal) (reg : s'.entry.life = .registered) :
    s.entry.life = .registered := by
  rcases h.life_cases with e | e | ⟨e, -⟩
  · rw [← e, reg]
  · rw [reg] at e
    cases e
  · rw [(unborn e).quiet] at hp
    cases hp

/-- Whoever has queued `Eos{CANCELLED}` goes on to remove the session. -/
lemma step_cancelled (inv : TermInv s) (unborn : s.entry.life = .unregistered → Unborn s)
    (h : Step n s a s') (c x y : Nat) (hm : (c, .eos .cancelled x y) ∈ s'.terminal)
    (reg : s'.entry.life = .registered) :
    (s'.conns c).read = .cancelSent ∨ (s'.conns c).read = .cancelUntracked := by
  have old : (c, .eos .cancelled x y) ∈ s.terminal →
      (s'.conns c).read = .cancelSent ∨ (s'.conns c).read = .cancelUntracked := by
    intro hm
    have hr := inv.cancelled c x y hm (registered_before unborn h hm reg)
    rcases h.read_cases c with e | m
    · rwa [e]
    · generalize (s'.conns c).read = r at m
      cases m
      case cancelUntrack => exact .inr rfl
      case cancelRemove =>
        cases h with
        | cancelRemove => cases reg
        | cancelGone _ hl => exact absurd reg hl
      all_goals simp_all
  rcases h.terminal_mem hm with hm | hq
  · exact old hm
  · cases hq
    cases h
    exact .inl (by simp)

/-- `Eos{ERROR}` is queued after the session is removed, at the end of the failure path. -/
lemma step_failed (inv : TermInv s) (h : Step n s a s') (c x y : Nat)
    (hm : (c, .eos .error x y) ∈ s'.terminal) :
    s'.entry.life = .removed ∧ (s'.producer = .ended ∨ s'.producer = .closed) := by
  have old : (c, .eos .error x y) ∈ s.terminal →
      s'.entry.life = .removed ∧ (s'.producer = .ended ∨ s'.producer = .closed) := by
    intro hm
    obtain ⟨hl, hp⟩ := inv.failed c x y hm
    refine ⟨h.removed_mono hl, ?_⟩
    by_cases ha : ∃ act, a = .producer act
    · obtain ⟨act, rfl⟩ := ha
      cases h
      case close => exact .inr rfl
      all_goals simp_all
    · rw [(h.producer_frame fun act e => ha ⟨act, e⟩).1]
      exact hp
  rcases h.terminal_mem hm with hm | hq
  · exact old hm
  · cases hq with
    | eosError hp =>
      refine ⟨h.removed_mono (inv.gone (.inr hp)), ?_⟩
      cases h
      exact .inl rfl

/-- `Eos{COMPLETE}` is queued by a consumer that has come to the end of its drain. -/
lemma step_complete (inv : TermInv s) (num : Numbering s) (h : Step n s a s') (c x y : Nat)
    (hm : (c, .eos .complete x y) ∈ s'.terminal) :
    ∃ b, (s'.atts b).conn = c ∧ (s'.atts b).pc.completing = true ∧ (s'.atts b).pc ≠ .draining := by
  have old : (c, .eos .complete x y) ∈ s.terminal →
      ∃ b, (s'.atts b).conn = c ∧ (s'.atts b).pc.completing = true ∧ (s'.atts b).pc ≠ .draining := by
    intro hm
    obtain ⟨b, hb, hc, hd⟩ := inv.complete c x y hm
    have hlt : b < s.natts := num.lt (by rintro e; simp [e, Pc.completing] at hc)
    exact ⟨b, (h.att_conn hlt).trans hb, h.completed_mono hlt hc hd⟩
  rcases h.terminal_mem hm with hm | hq
  · exact old hm
  · cases hq with
    | @complete b hp =>
      have hlt : b < s.natts := num.lt (by simp [hp])
      refine ⟨b, h.att_conn hlt, ?_⟩
      cases h
      simp [Pc.completing]

lemma step_draining (inv : TermInv s) (num : Numbering s) (comp : CompletionInv s)
    (h : Step n s a s') (hok : terminalsApart s a = true) (b : Nat) (hb : (s'.atts b).pc = .draining) :
    ∀ p ∈ s'.terminal, p.2.isEos = true → p.2.isComplete = true := by
  have hcb : (s'.atts b).pc.completing = true := by simp [hb, Pc.completing]
  rcases h.completing_cases num hcb with ⟨hc, hd⟩ | ⟨rfl, hk, -, -⟩
  · have hd := hd hb
    rintro ⟨c, f⟩ hp hE
    rcases h.terminal_mem hp with hp | hq
    · exact inv.draining b hd _ hp hE
    · cases hq with
      | cancelled hr => exact absurd hd ((inv.looked _ hr).1 b)
      | complete => rfl
      | error => cases hE
      | eosError hp =>
        have := comp.closed (comp.done b hc)
        simp_all
  · rintro ⟨c, f⟩ hp hE
    have e : s'.terminal = s.terminal := by
      rcases h.terminal_cases with e | ⟨d, f, hq, -, -⟩
      · exact e
      · cases hq
    rw [e] at hp
    simp only [terminalsApart, hk, Bool.false_or, Bool.and_eq_true, List.isEmpty_iff,
      Step.lookup_iff] at hok
    obtain ⟨⟨hl, hnil⟩, -⟩ := hok
    obtain ⟨r, x, y, rfl⟩ := Frame.isEos_iff.mp hE
    cases r with
    | complete => rfl
    | cancelled =>
      have hr := inv.cancelled c x y hp hl
      have := inv.listed c (by rcases hr with hr | hr <;> simp [hr, ReadPc.cancelling])
      simp [hnil] at this
    | error =>
      rw [(inv.failed c x y hp).1] at hl
      cases hl

lemma step_apart (inv : TermInv s) (num : Numbering s) (h : Step n s a s')
    (hok : terminalsApart s a = true) (b d : Nat) (hbd : (s'.atts b).conn = (s'.atts d).conn)
    (hb : (s'.atts b).pc.completing = true) (hd : (s'.atts d).pc.completing = true) : b = d := by
  have numbered : ∀ {b}, (s'.atts b).pc.completing = true → b < s.natts := by
    intro b hb
    by_contra hn
    rcases h.pc_new num (Nat.le_of_not_lt hn) with e | e | e <;> simp [e, Pc.completing] at hb
  -- a consumer that begins to drain is alone on its connection
  have alone : ∀ {b d}, a = .consumer b .producerDone → (s.atts b).cancelled = false →
      d < s.natts → (s.atts d).conn = (s.atts b).conn → (s.atts d).pc.completing = true → d = b := by
    rintro b d rfl hk hlt hconn hcd
    simp only [terminalsApart, hk, Bool.false_or, Bool.and_eq_true, List.all_eq_true,
      List.mem_range, Bool.or_eq_true, decide_eq_true_eq, Bool.not_eq_true',
      Bool.and_eq_false_iff, decide_eq_false_iff_not] at hok
    rcases hok.2 d hlt with e | e | e
    · exact e
    · exact absurd hconn e
    · simp [hcd] at e
  have hlb := numbered hb
  have hld := numbered hd
  rw [h.att_conn hlb, h.att_conn hld] at hbd
  rcases h.completing_cases num hb with ⟨hcb, -⟩ | ⟨eb, hkb, -, -⟩
  · rcases h.completing_cases num hd with ⟨hcd, -⟩ | ⟨ed, hkd, -, -⟩
    · exact inv.apart b d hbd hcb hcd
    · exact alone ed hkd hlb hbd hcb
  · rcases h.completing_cases num hd with ⟨hcd, -⟩ | ⟨ed, hkd, -, -⟩
    · exact (alone eb hkb hld hbd.symm hcd).symm
    · rw [eb] at ed
      cases ed
      rfl

lemma step_fatal (inv : TermInv s) (unborn : s.entry.life = .unregistered → Unborn s)
    (h : Step n s a s') (hok : terminalsApart s a = true) (hf : s'.producer.fatal = true)
    (x y : Nat) : (s'.opener, .eos .cancelled x y) ∉ s'.terminal := by
  intro hm
  rcases h.fatal_cases hf with hf | ⟨how, rfl, hs⟩
  · have born : s.entry.life ≠ .unregistered := fun hl => by
      simp [(unborn hl).idle, ProducerPc.fatal] at hf
    rw [h.opener_frame born] at hm
    rcases h.terminal_mem hm with hm | hq
    · exact inv.fatal hf x y hm
    · generalize ho : s.opener = o at hq
      cases hq with
      | cancelled hr => simp [(inv.looked _ hr).2.2 ho.symm] at hf
  · simp only [terminalsApart, hs, Bool.not_true, Bool.false_or, Bool.and_eq_true,
      Step.lookup_iff, Bool.not_eq_true', decide_eq_false_iff_not] at hok
    cases h
    have hr := inv.cancelled _ x y hm hok.1
    refine hok.2 (inv.listed _ ?_)
    rcases hr with hr | hr <;> simp [hr, ReadPc.cancelling]

lemma step_gone (inv : TermInv s) (unborn : s.entry.life = .unregistered → Unborn s)
    (h : Step n s a s') (hp : s'.producer = .failedCancelled ∨ s'.producer = .failedReported) :
    s'.entry.life = .removed := by
  by_cases ha : ∃ act, a = .producer act
  · obtain ⟨act, rfl⟩ := ha
    cases h
    case producerCancel => rfl
    case producerGone hs hl =>
      show s.entry.life = .removed
      cases hlife : s.entry.life with
      | unregistered => simp [(unborn hlife).idle] at hs
      | registered => exact absurd hlife hl
      | removed => rfl
    case producerError hs _ _ => exact inv.gone (.inl hs)
    case finish => simp at hp; split at hp <;> simp_all
    all_goals simp_all
  · rw [(h.producer_frame fun act e => ha ⟨act, e⟩).1] at hp
    exact h.removed_mono (inv.gone hp)

/-- Every step that keeps the three ways apart keeps the invariant. -/
lemma step (inv : TermInv s) (num : Numbering s) (comp : CompletionInv s)
    (unborn : s.entry.life = .unregistered → Unborn s) (h : Step n s a s')
    (hok : terminalsApart s a = true) : TermInv s' where
  law := inv.step_law comp h
  listed := inv.step_listed h
  looked := inv.step_looked num unborn h hok
  cancelled := inv.step_cancelled unborn h
  failed := inv.step_failed h
  complete := inv.step_complete num h
  draining := inv.step_draining num comp h hok
  apart := inv.step_apart num h hok
  fatal := inv.step_fatal unborn h hok
  gone := inv.step_gone unborn h

end TermInv

/-- The invariant holds in every run that keeps the three ways apart. -/
lemma reach_termInv {n : Nat} {s : State μ} (rch : ((server n).only terminalsApart).Reach s) :
    TermInv s := by
  refine only_invariant TermInv ?_ ?_ rch
  · intro opts plan
    constructor <;> simp [State.start, TerminalLaw, ReadPc.cancelling, ProducerPc.fatal,
      Pc.completing]
  · intro s a s' rch hok h inv
    have rch := rch.of_only
    exact inv.step (reach_numbering rch) (reach_completionInv rch) (reach_unborn rch) h hok

/-- In every run where completion, cancellation and failure keep apart, at most one `Eos` is queued for
    a connection, and no `Eos{COMPLETE}` is queued once the session has been cancelled or has failed. -/
theorem terminal_law {n : Nat} {s : State μ} (rch : ((server n).only terminalsApart).Reach s) :
    TerminalLaw s.terminal :=
  (reach_termInv rch).law

/-- A session without batches that completes. -/
def completeRun : List Action :=
  [.openFresh 0 0, .opening 0 .reply, .opening 0 .bind, .opening 0 .takeover, .opening 0 .track,
   .producer .spawn, .producer (.finish .exhausted), .producer .close, .consumer 0 .producerDone,
   .consumer 0 .eos]

/-- The law holds at the end of a run that has queued an `Eos{COMPLETE}`. -/
theorem complete_terminal_law :
    ∃ s : State Unit, ((server 64).only terminalsApart).Reach s ∧
      s.terminal = [(0, .eos .complete 0 0)] ∧ TerminalLaw s.terminal := by
  have run : (((server 64).only terminalsApart).replay (State.start ⟨2, 100⟩ []) completeRun).any
      (fun s : State Unit => decide (s.terminal = [(0, .eos .complete 0 0)])) = true := by
    decide +kernel
  obtain ⟨s, rch, hs⟩ := replay_only_reach run
  exact ⟨s, rch, of_decide_eq_true hs, terminal_law rch⟩

/-- A `CancelSession` is handled while the consumer drains. -/
def cancelInDrainRun : List Action :=
  [.openFresh 0 0, .opening 0 .reply, .opening 0 .bind, .opening 0 .takeover, .opening 0 .track,
   .producer .spawn, .producer (.finish .exhausted), .producer .close, .consumer 0 .producerDone,
   .conn 0 .cancelLookup, .conn 0 .cancelSend, .consumer 0 .eos]

/-- Without the condition a cancelled session gets an `Eos{COMPLETE}`, the second `Eos` of its
    connection. -/
theorem cancel_during_drain :
    ∃ s : State Unit, (server 64).Reach s ∧
      s.terminal = [(0, .eos .cancelled 0 0), (0, .eos .complete 0 0)] ∧
      ¬ TerminalLaw s.terminal := by
  have run : ((server 64).replay (State.start ⟨2, 100⟩ []) cancelInDrainRun).any
      (fun s : State Unit => decide
        (s.terminal = [(0, .eos .cancelled 0 0), (0, .eos .complete 0 0)])) = true := by
    decide +kernel
  obtain ⟨s, rch, hs⟩ := replay_reach run
  have ht := of_decide_eq_true hs
  refine ⟨s, rch, ht, ?_⟩
  simp [ht, TerminalLaw, Frame.isEos]

end PjCloud.Session
