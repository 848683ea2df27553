import PjCloud.Session.Inversion

/-!
# Frames

What a step of the server leaves alone. Attachments are numbered (`Numbering`) and keep their
connection and cursor; a generation is handed out by a bind and kept; whoever else acts only sets an
attachment's two flags; read loops and tracked handles are moved by a few actions only.
-/

namespace PjCloud.Session
open PjCloud.Lib
variable {μ : Type}

lemma proj_update {α β : Type} (f : α → β) {g : Nat → α} {a x} (h : f x = f (g a)) (b : Nat) :
    f (Function.update g a x b) = f (g b) := by
  rw [Function.update_apply]
  split
  case isTrue e => rw [e, h]
  case isFalse => rfl

lemma cancelAtt_apply {atts : Nat → Attachment μ} {k b} :
    cancelAtt atts k b =
      { atts b with cancelled := (atts b).cancelled || decide (k = some b) } := by
  cases k with
  | none => simp [cancelAtt]
  | some k =>
    simp only [cancelAtt, Function.update_apply]
    split
    case isTrue h => simp [h]
    case isFalse h => simp [Ne.symm h]

@[simp] lemma cancelAtt_pc {atts : Nat → Attachment μ} {k b} :
    (cancelAtt atts k b).pc = (atts b).pc := by
  rw [cancelAtt_apply]

lemma disposition_cases (x : Attachment μ) (why : Cause) :
    disposition x why = .exited why ∨ disposition x why = .untracking why := by
  cases why with
  | panicked => exact .inr rfl
  | writeFailed => exact .inl rfl
  | _ =>
    unfold disposition
    cases x.detaching <;> cases x.cancelled <;> simp

/-- An id that is not registered yet is fresh and has no attachment; numbers from `natts` on are
    unused. -/
structure Numbering (s : State μ) : Prop where
  unborn : s.entry.life = .unregistered → s.entry = .fresh ∧ s.natts = 0
  unused : ∀ a, s.natts ≤ a → (s.atts a).pc = .unused

namespace Numbering
variable {n : Nat} {s : State μ}

lemma lt (num : Numbering s) {a} (h : (s.atts a).pc ≠ .unused) : a < s.natts :=
  Nat.lt_of_not_le (fun hle => h (num.unused a hle))

lemma move (num : Numbering s) {a x} {atts : Nat → Attachment μ} (h : (s.atts a).pc ≠ .unused)
    (hatts : ∀ b, (atts b).pc = (s.atts b).pc) :
    ∀ b, s.natts ≤ b → (Function.update atts a x b).pc = .unused := by
  intro b hb
  have hne : b ≠ a := by
    rintro rfl
    exact h (num.unused b hb)
  rw [Function.update_of_ne hne, hatts, num.unused b hb]

lemma add (num : Numbering s) {x} :
    ∀ b, s.natts + 1 ≤ b → (Function.update s.atts s.natts x b).pc = .unused := by
  intro b hb
  have hne : b ≠ s.natts := by omega
  rw [Function.update_of_ne hne]
  exact num.unused b (by omega)

lemma of_born (hl : s.entry.life ≠ .unregistered)
    (hu : ∀ a, s.natts ≤ a → (s.atts a).pc = .unused) : Numbering s :=
  ⟨fun h => absurd h hl, hu⟩

lemma step {s' a} (num : Numbering s) (h : Step n s a s') :
    Numbering s' := by
  have cancelled : ∀ k b, s.natts ≤ b → (cancelAtt s.atts k b).pc = .unused := by
    intro k b hb
    rw [cancelAtt_pc, num.unused b hb]
  cases h
  case openFresh => exact .of_born (by simp) num.add
  case openResume hl _ => exact .of_born (by simp [hl]) num.add
  case readEnd b _ _ =>
    refine ⟨num.unborn, fun b' hb => ?_⟩
    simp only [Function.update_apply]
    split
    case isTrue e => rw [← e, num.unused b' hb]
    case isFalse => exact num.unused b' hb
  case detach hl _ => exact .of_born (by simp [Entry.armEvictLocked, hl]) (cancelled _)
  case cancelConsumer =>
    refine ⟨fun h => ?_, cancelled _⟩
    obtain ⟨he, hn⟩ := num.unborn h
    exact ⟨by rw [he]; rfl, hn⟩
  case timerFire hk =>
    refine ⟨fun h => ?_, num.unused⟩
    rw [(num.unborn h).1] at hk
    cases hk
  case evictStale hk _ =>
    refine ⟨fun h => ?_, num.unused⟩
    rw [(num.unborn h).1] at hk
    cases hk
  case reattach hp hl => exact .of_born (by simp [hl]) (num.move (by simp [hp]) fun _ => rfl)
  case bind hp hl => exact .of_born (by simp [hl]) (num.move (by simp [hp]) fun _ => rfl)
  case takeover hp => exact ⟨num.unborn, num.move (by simp [hp]) fun b => cancelAtt_pc⟩
  all_goals first
    | exact ⟨num.unborn, num.unused⟩
    | exact .of_born (by simp [Entry.remove]) num.unused
    | exact ⟨num.unborn, num.move (by grind) fun b => rfl⟩
    | exact .of_born (by simp [Entry.remove]) (num.move (by grind) fun b => rfl)
end Numbering

/-- The handler is between `Register` or `Reattach` and its `BindConsumerChecked`. -/
def Pc.opening : Pc → Bool
  | .registered => true
  | .reattached => true
  | .pruned => true
  | .replied => true
  | _ => false

/-- Numbers are never given back. -/
lemma Step.natts_le {n : Nat} {s s' : State μ} {a} (h : Step n s a s') : s.natts ≤ s'.natts := by
  cases h
  case openFresh => exact Nat.le_succ _
  case openResume => exact Nat.le_succ _
  all_goals exact Nat.le_refl _

lemma Step.natts_cases {n : Nat} {s s' : State μ} {a} (h : Step n s a s') :
    s'.natts = s.natts ∨ s'.natts = s.natts + 1 ∧
      ((∃ c k, a = .openFresh c k ∧ s'.atts s.natts = { conn := c, pc := .registered }) ∨
        ∃ c m, a = .openResume c m ∧ m ≤ highestAppendedSeq s.ledger ∧
          s'.atts s.natts = { conn := c, startAfterSeq := m, pc := .looked }) := by
  cases h
  case openFresh => exact .inr ⟨rfl, .inl ⟨_, _, rfl, Function.update_self ..⟩⟩
  case openResume hm => exact .inr ⟨rfl, .inr ⟨_, _, rfl, hm, Function.update_self ..⟩⟩
  all_goals exact .inl rfl

/-- The attachment whose handler or consumer acts. -/
def Action.attachment : Action → Option Nat
  | .opening a _ => some a
  | .consumer a _ => some a
  | _ => none

/-- What others can do to an attachment is to set its `detaching` and `cancelled` flags. -/
lemma Step.att_frame {n : Nat} {s s' : State μ} {a} (h : Step n s a s') {b} (hb : b < s.natts)
    {β : Type} (f : Attachment μ → β)
    (hf : ∀ (x : Attachment μ) d k, f { x with detaching := d, cancelled := k } = f x)
    (ha : a.attachment ≠ some b) : f (s'.atts b) = f (s.atts b) := by
  have hne : b ≠ s.natts := by omega
  have cancelled : ∀ k, f (cancelAtt s.atts k b) = f (s.atts b) := by
    intro k
    rw [cancelAtt_apply]
    exact hf _ _ _
  cases h
  case openFresh => simp [hne]
  case openResume => simp [hne]
  case readEnd => exact proj_update f (hf _ _ _) b
  case detach => exact cancelled _
  case cancelConsumer => exact cancelled _
  case takeover c _ _ =>
    have : b ≠ c := fun e => ha (congrArg some e.symm)
    simp only [Function.update_of_ne this, cancelled]
  all_goals first
    | rfl
    | exact congrArg f (Function.update_of_ne (fun e => ha (congrArg some e.symm)) _ _)

lemma Step.pc_new {n : Nat} {s s' : State μ} {a} (num : Numbering s) (h : Step n s a s') {b}
    (hb : s.natts ≤ b) :
    (s'.atts b).pc = .unused ∨ (s'.atts b).pc = .registered ∨ (s'.atts b).pc = .looked := by
  by_cases hb' : s'.natts ≤ b
  · exact .inl ((num.step h).unused b hb')
  cases h
  case openFresh =>
    obtain rfl : b = s.natts := by simp only at hb'; omega
    simp
  case openResume =>
    obtain rfl : b = s.natts := by simp only at hb'; omega
    simp
  all_goals exact absurd hb hb'

def Attachment.origin (x : Attachment μ) : Nat × Nat :=
  (x.conn, x.startAfterSeq)

lemma Step.att_origin {n : Nat} {s s' : State μ} {a} (h : Step n s a s') {b} (hb : b < s.natts) :
    (s'.atts b).origin = (s.atts b).origin := by
  have hne : b ≠ s.natts := by omega
  have cancelled : ∀ k, (cancelAtt s.atts k b).origin = (s.atts b).origin := by
    intro k
    rw [cancelAtt_apply]
    rfl
  cases h
  case openFresh => simp [hne]
  case openResume => simp [hne]
  case takeover => exact (proj_update Attachment.origin (by rfl) b).trans (cancelled _)
  all_goals first
    | rfl
    | exact cancelled _
    | exact proj_update Attachment.origin (by rfl) b

lemma Step.att_conn {n : Nat} {s s' : State μ} {a} (h : Step n s a s') {b} (hb : b < s.natts) :
    (s'.atts b).conn = (s.atts b).conn :=
  congrArg Prod.fst (h.att_origin hb)

lemma Step.cancelled_mono {n : Nat} {s s' : State μ} {a} (h : Step n s a s') {b}
    (hb : b < s.natts) (hk : (s.atts b).cancelled = true) : (s'.atts b).cancelled = true := by
  have hne : b ≠ s.natts := by omega
  have cancelled : ∀ k, (cancelAtt s.atts k b).cancelled = true := by
    intro k
    simp [cancelAtt_apply, hk]
  cases h
  case openFresh => simpa [hne] using hk
  case openResume => simpa [hne] using hk
  case bindMissing =>
    simp only [Function.update_apply]
    split
    · rfl
    · exact hk
  case takeover => exact (proj_update Attachment.cancelled (by rfl) b).trans (cancelled _)
  all_goals first
    | exact hk
    | exact cancelled _
    | exact (proj_update Attachment.cancelled (by rfl) b).trans hk

lemma Step.att_gen {n : Nat} {s s' : State μ} {a} (h : Step n s a s') {b} (hb : b < s.natts)
    (ha : a ≠ .opening b .bind) : (s'.atts b).gen = (s.atts b).gen := by
  have hne : b ≠ s.natts := by omega
  have cancelled : ∀ k, (cancelAtt s.atts k b).gen = (s.atts b).gen := by
    intro k
    rw [cancelAtt_apply]
  cases h
  case openFresh => simp [hne]
  case openResume => simp [hne]
  case bind c _ _ =>
    have : b ≠ c := fun e => ha (e ▸ rfl)
    simp only [Function.update_of_ne this]
  case takeover => exact (proj_update Attachment.gen (by rfl) b).trans (cancelled _)
  all_goals first
    | rfl
    | exact cancelled _
    | exact proj_update Attachment.gen (by rfl) b

lemma Step.gen_cases {n : Nat} {s s' : State μ} {a} (num : Numbering s) (h : Step n s a s') :
    (s'.entry.consumerGen = s.entry.consumerGen ∧
      ∀ b, b < s.natts → (s'.atts b).gen = (s.atts b).gen) ∨
    ∃ b p, b < s'.natts ∧ (s'.atts b).gen = s'.entry.consumerGen ∧ (s'.atts b).pc = .bound p := by
  by_cases ha : ∃ b, a = .opening b .bind
  · obtain ⟨b, rfl⟩ := ha
    cases h with
    | bindMissing hp hl =>
      exact .inl ⟨rfl, fun c _ => proj_update Attachment.gen (by rfl) c⟩
    | bind hp hl => exact .inr ⟨b, _, num.lt (by simp [hp]), by simp, by simp; rfl⟩
  · refine .inl ⟨?_, fun b hb => h.att_gen hb fun e => ha ⟨b, e⟩⟩
    cases h
    case bind b _ _ => exact absurd ⟨b, rfl⟩ ha
    all_goals rfl

def Conn.reader (x : Conn μ) : Option Nat × ReadPc :=
  (x.sub, x.read)

@[simp] lemma Conn.sendPriority_reader {x : Conn μ} {f} : (x.sendPriority f).reader = x.reader := by
  unfold sendPriority
  split <;> rfl

@[simp] lemma Conn.sendPriority_done {x : Conn μ} {f} : (x.sendPriority f).done = x.done := by
  unfold sendPriority
  split <;> rfl

/-- The actions that track, untrack or move a read loop. -/
def Action.readerAct : Action → Bool
  | .conn _ .cancelLookup => true
  | .conn _ .cancelSend => true
  | .conn _ .cancelUntrack => true
  | .conn _ .cancelRemove => true
  | .conn _ .cancelReturn => true
  | .conn _ .readEnd => true
  | .conn _ .detach => true
  | .conn _ .closeDone => true
  | .opening _ .track => true
  | .consumer _ .untrack => true
  | .producer .untrack => true
  | _ => false

lemma Step.reader_frame {n : Nat} {s s' : State μ} {a} (h : Step n s a s')
    (ha : a.readerAct = false) (c : Nat) : (s'.conns c).reader = (s.conns c).reader := by
  cases h
  all_goals first
    | rfl
    | exact proj_update Conn.reader (by rfl) c
    | exact proj_update Conn.reader Conn.sendPriority_reader c
    | cases ha

/-- The moves of the read loop of `c`. -/
inductive ReadMove (s : State μ) (c : Nat) : Action → ReadPc → Prop where
  | cancelLookup : (s.conns c).read = .reading → s.entry.life = .registered →
    ReadMove s c (.conn c .cancelLookup) .cancelLooked
  | cancelSend : (s.conns c).read = .cancelLooked → ReadMove s c (.conn c .cancelSend) .cancelSent
  | cancelUntrack : (s.conns c).read = .cancelSent →
    ReadMove s c (.conn c .cancelUntrack) .cancelUntracked
  | cancelRemove : (s.conns c).read = .cancelUntracked →
    ReadMove s c (.conn c .cancelRemove) .cancelRemoved
  | cancelReturn : (s.conns c).read = .cancelRemoved → ReadMove s c (.conn c .cancelReturn) .reading
  | readEnd {g} : (s.conns c).read = .reading → ReadMove s c (.conn c .readEnd) (.detaching g)
  | detach {g} : (s.conns c).read = .detaching g → ReadMove s c (.conn c .detach) .detached
  | closeDone : (s.conns c).read = .detached → ReadMove s c (.conn c .closeDone) .closed

lemma Step.read_cases {n : Nat} {s s' : State μ} {a} (h : Step n s a s') (c : Nat) :
    (s'.conns c).read = (s.conns c).read ∨ ReadMove s c a (s'.conns c).read := by
  by_cases ha : a.readerAct = false
  · exact .inl (congrArg Prod.snd (h.reader_frame ha c))
  have moved : ∀ {d x}, (d = c → ReadMove s c a x.read) →
      (Function.update s.conns d x c).read = (s.conns c).read ∨
        ReadMove s c a (Function.update s.conns d x c).read := by
    intro d x hx
    by_cases e : c = d
    · rw [e, Function.update_self, ← e]
      exact .inr (hx e.symm)
    · exact .inl (by rw [Function.update_of_ne e])
  cases h
  case cancelLookup hr hl => exact moved fun e => e ▸ .cancelLookup hr hl
  case cancelSend hr _ => exact moved fun e => e ▸ .cancelSend hr
  case cancelUntrack hr => exact moved fun e => e ▸ .cancelUntrack hr
  case cancelRemove hr _ => exact moved fun e => e ▸ .cancelRemove hr
  case cancelGone hr _ => exact moved fun e => e ▸ .cancelRemove hr
  case cancelReturn hr _ => exact moved fun e => e ▸ .cancelReturn hr
  case readEndIdle hr _ => exact moved fun e => e ▸ .readEnd hr
  case readEnd hr _ => exact moved fun e => e ▸ .readEnd hr
  case detachNone hr => exact moved fun e => e ▸ .detach hr
  case detachStale hr _ => exact moved fun e => e ▸ .detach hr
  case detach hr _ _ => exact moved fun e => e ▸ .detach hr
  case closeDone hr => exact moved fun e => e ▸ .closeDone hr
  all_goals first
    | exact .inl (proj_update Conn.read (by rfl) c)
    | exact absurd rfl ha

lemma Step.life_cases {n : Nat} {s s' : State μ} {a} (h : Step n s a s') :
    s'.entry.life = s.entry.life ∨ s'.entry.life = .removed ∨
      s.entry.life = .unregistered ∧ s'.entry.life = .registered := by
  cases h
  case openFresh hl _ => exact .inr (.inr ⟨hl, rfl⟩)
  all_goals first
    | exact .inl rfl
    | exact .inr (.inl rfl)

lemma Step.removed_mono {n : Nat} {s s' : State μ} {a} (h : Step n s a s')
    (hl : s.entry.life = .removed) : s'.entry.life = .removed := by
  rcases h.life_cases with e | e | ⟨e, -⟩
  · rw [e, hl]
  · exact e
  · rw [hl] at e
    cases e

lemma Step.opener_frame {n : Nat} {s s' : State μ} {a} (h : Step n s a s')
    (hl : s.entry.life ≠ .unregistered) : s'.opener = s.opener := by
  cases h
  case openFresh hl' _ => exact absurd hl' hl
  all_goals rfl

/-- Nobody moves the producer but itself. -/
lemma Step.producer_frame {n : Nat} {s s' : State μ} {a} (h : Step n s a s')
    (ha : ∀ act, a ≠ .producer act) :
    s'.producer = s.producer ∧ s'.producerDone = s.producerDone := by
  cases h
  all_goals first
    | exact ⟨rfl, rfl⟩
    | exact absurd rfl (ha _)

lemma Step.done_mono {n : Nat} {s s' : State μ} {a} (h : Step n s a s') {c}
    (hd : (s.conns c).done = true) : (s'.conns c).done = true := by
  cases h
  all_goals first
    | exact hd
    | exact (proj_update Conn.done (by rfl) c).trans hd
    | exact (proj_update Conn.done (by exact Conn.sendPriority_done) c).trans hd
    | (simp only [Function.update_apply]
       split
       · rfl
       · exact hd)

lemma reach_numbering {n : Nat} {s : State μ} (rch : (server n).Reach s) : Numbering s :=
  server_invariant Numbering (fun _ _ => ⟨fun _ => ⟨rfl, rfl⟩, fun _ _ => rfl⟩)
    (fun _ _ _ _ h num => num.step h) rch

end PjCloud.Session
