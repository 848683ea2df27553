import PjCloud.Session.Replay

/-!
# The channels of a connection

Frames reach the wire through two queues: batches through the bulk channel, everything else through the
priority channel. `Step.chan_cases` lists what a step can do to the two queues and to the wire, and who
did it.
-/

namespace PjCloud.Session
open PjCloud.Lib
variable {μ : Type}

/-- The part of a connection that its write loop works on. -/
structure Chans (μ : Type) where
  priorityCh : List (Frame μ)
  bulkCh : List (Frame μ)
  wire : List (Frame μ)
  writing : Bool

def Conn.chans (x : Conn μ) : Chans μ :=
  ⟨x.priorityCh, x.bulkCh, x.wire, x.writing⟩

/-- Who queues which frame on the priority channel of `c`. -/
inductive Posted (s : State μ) (c : Nat) : Action → Frame μ → Prop where
  | refuseFresh {k code message} : Posted s c (.openFresh c k) (.openError code message)
  | refuseResume {m code message} : Posted s c (.openResume c m) (.openError code message)
  | refuse {a code message} : (s.atts a).conn = c → (s.atts a).pc = .looked →
    Posted s c (.opening a .reattach) (.openError code message)
  | reply {a} : (s.atts a).conn = c → ((s.atts a).pc = .pruned ∨ (s.atts a).pc = .registered) →
    Posted s c (.opening a .reply) .openSession
  | progress {a x y} : (s.atts a).conn = c → (s.atts a).pc = .running →
    Posted s c (.consumer a .progress) (.progress x y)
  | terminal {a f} : Queued s a c f → Posted s c a f

/-- What a step can do to the channels of `c`. -/
inductive ChanMove (s : State μ) (c : Nat) : Action → Chans μ → Prop where
  | post {a f} : Posted s c a f →
    ChanMove s c a { (s.conns c).chans with priorityCh := (s.conns c).priorityCh ++ [f] }
  | push {a env} : (s.atts a).conn = c → ((s.atts a).pc = .running ∨ (s.atts a).pc = .draining) →
    (s.atts a).slot = .ready env → (s.conns c).done = false →
    ChanMove s c (.consumer a .send)
      { (s.conns c).chans with bulkCh := (s.conns c).bulkCh ++ [.batch env] }
  | writePriority {f fs} : (s.conns c).writing = true → (s.conns c).priorityCh = f :: fs →
    ChanMove s c (.conn c .writePriority)
      { (s.conns c).chans with priorityCh := fs, wire := (s.conns c).wire ++ [f] }
  | writeBulk {f fs} : (s.conns c).writing = true → (s.conns c).bulkCh = f :: fs →
    ChanMove s c (.conn c .writeBulk)
      { (s.conns c).chans with bulkCh := fs, wire := (s.conns c).wire ++ [f] }
  | losePriority {f fs} : (s.conns c).priorityCh = f :: fs →
    ChanMove s c (.conn c (.writeFail false))
      { (s.conns c).chans with priorityCh := fs, writing := false }
  | loseBulk {f fs} : (s.conns c).bulkCh = f :: fs →
    ChanMove s c (.conn c (.writeFail true))
      { (s.conns c).chans with bulkCh := fs, writing := false }

lemma posted_chans {s : State μ} {a c d f x} (h : d = c → Posted s c a f)
    (hx : x.chans = ((s.conns d).sendPriority f).chans) :
    (Function.update s.conns d x c).chans = (s.conns c).chans ∨
      ChanMove s c a (Function.update s.conns d x c).chans := by
  by_cases e : d = c
  · obtain rfl := e
    rw [Function.update_self, hx, Conn.sendPriority]
    split
    · exact .inl rfl
    · exact .inr (.post (h rfl))
  · rw [Function.update_of_ne (Ne.symm e)]
    exact .inl rfl

/-- A step leaves the channels of `c`, or it does one of the listed things. -/
lemma Step.chan_cases {n : Nat} {s s' : State μ} {a} (h : Step n s a s') (c : Nat) :
    (s'.conns c).chans = (s.conns c).chans ∨ ChanMove s c a (s'.conns c).chans := by
  have moved : ∀ {d x}, (d = c → ChanMove s c a x.chans) →
      (Function.update s.conns d x c).chans = (s.conns c).chans ∨
        ChanMove s c a (Function.update s.conns d x c).chans := by
    intro d x hx
    by_cases e : d = c
    · obtain rfl := e
      rw [Function.update_self]
      exact .inr (hx rfl)
    · rw [Function.update_of_ne (Ne.symm e)]
      exact .inl rfl
  cases h
  case openFreshFull => exact posted_chans (fun e => e ▸ .refuseFresh) rfl
  case openResumeMissing => exact posted_chans (fun e => e ▸ .refuseResume) rfl
  case openResumeBeyond => exact posted_chans (fun e => e ▸ .refuseResume) rfl
  case reattachMissing hp _ _ => exact posted_chans (fun e => .refuse e hp) rfl
  case reply hp _ => exact posted_chans (fun e => .reply e hp) rfl
  case progress hp _ _ => exact posted_chans (fun e => .progress e hp) rfl
  case eos hp _ hn _ => exact posted_chans (fun e => e ▸ .terminal (.complete hp hn)) rfl
  case producerError hp _ _ => exact posted_chans (fun e => e ▸ .terminal (.error hp)) rfl
  case producerEos hp _ => exact posted_chans (fun e => e ▸ .terminal (.eosError hp)) rfl
  case cancelSend hr _ => exact posted_chans (fun e => e ▸ .terminal (.cancelled hr)) rfl
  case writePriority hw hq => exact moved fun e => by subst e; exact .writePriority hw hq
  case writeBulk hw _ hq => exact moved fun e => by subst e; exact .writeBulk hw hq
  case writeFailPriority hw hq => exact moved fun e => by subst e; exact .losePriority hq
  case writeFailBulk hw _ hq => exact moved fun e => by subst e; exact .loseBulk hq
  case send hp he hd _ => exact moved fun e => by subst e; exact .push rfl hp he hd
  all_goals first
    | exact .inl rfl
    | exact .inl (proj_update Conn.chans (by rfl) c)

lemma Step.wire_grows {n : Nat} {s s' : State μ} {a} (h : Step n s a s') (c : Nat) :
    (s.conns c).wire <+: (s'.conns c).wire := by
  obtain e | m := h.chan_cases c
  · have e : (s'.conns c).wire = (s.conns c).wire := congrArg Chans.wire e
    exact e.symm ▸ List.prefix_refl _
  change (s.conns c).wire <+: (s'.conns c).chans.wire
  generalize (s'.conns c).chans = x at m
  cases m with
  | writePriority => exact List.prefix_append _ _
  | writeBulk => exact List.prefix_append _ _
  | _ => exact List.prefix_refl _

def Chans.posted (x : Chans μ) : List (Frame μ) :=
  x.priorityCh ++ x.wire

lemma ChanMove.posted_cases {s : State μ} {c a x} (m : ChanMove s c a x) {f} (hf : f ∈ x.posted) :
    f ∈ (s.conns c).chans.posted ∨ Posted s c a f ∨ f ∈ (s.conns c).bulkCh := by
  cases m with
  | post hp =>
    simp only [Chans.posted, Conn.chans, List.mem_append, List.mem_singleton] at hf ⊢
    obtain (hf | rfl) | hf := hf
    · exact .inl (.inl hf)
    · exact .inr (.inl hp)
    · exact .inl (.inr hf)
  | push => exact .inl hf
  | writePriority _ hq =>
    simp only [Chans.posted, Conn.chans, List.mem_append, List.mem_singleton, hq] at hf ⊢
    grind
  | writeBulk _ hq =>
    simp only [Chans.posted, Conn.chans, List.mem_append, List.mem_singleton, hq] at hf ⊢
    grind
  | losePriority hq =>
    simp only [Chans.posted, Conn.chans, List.mem_append, hq] at hf ⊢
    grind
  | loseBulk => exact .inl hf

/-- Only `sendBatch` queues batches, and nothing else goes through the bulk channel. -/
structure ChanInv (x : Chans μ) : Prop where
  bulk : ∀ f ∈ x.bulkCh, f.batch?.isSome = true
  priority : ∀ f ∈ x.priorityCh, f.batch? = none

lemma Posted.batch?_eq {s : State μ} {c a f} (h : Posted s c a f) : f.batch? = none := by
  cases h with
  | terminal hq => cases hq <;> rfl
  | _ => rfl

lemma ChanInv.step {n : Nat} {s s' : State μ} {a c} (inv : ChanInv (s.conns c).chans)
    (h : Step n s a s') : ChanInv (s'.conns c).chans := by
  obtain e | m := h.chan_cases c
  · rw [e]
    exact inv
  have rest : ∀ {l : List (Frame μ)} {g gs f}, l = g :: gs → f ∈ gs → f ∈ l := by
    intro l g gs f e hf
    exact e ▸ List.mem_cons_of_mem g hf
  generalize (s'.conns c).chans = x at m
  cases m with
  | post hp =>
    refine ⟨inv.bulk, fun f hf => ?_⟩
    obtain hf | hf := List.mem_append.mp hf
    · exact inv.priority f hf
    · cases List.mem_singleton.mp hf
      exact hp.batch?_eq
  | push =>
    refine ⟨fun f hf => ?_, inv.priority⟩
    obtain hf | hf := List.mem_append.mp hf
    · exact inv.bulk f hf
    · cases List.mem_singleton.mp hf
      rfl
  | writePriority _ hq =>
    exact ⟨inv.bulk, fun f hf => inv.priority f (rest hq hf)⟩
  | writeBulk _ hq =>
    exact ⟨fun f hf => inv.bulk f (rest hq hf), inv.priority⟩
  | losePriority hq =>
    exact ⟨inv.bulk, fun f hf => inv.priority f (rest hq hf)⟩
  | loseBulk hq =>
    exact ⟨fun f hf => inv.bulk f (rest hq hf), inv.priority⟩

lemma reach_chanInv {n : Nat} {s : State μ} (rch : (server n).Reach s) (c : Nat) :
    ChanInv (s.conns c).chans := by
  refine server_invariant (fun s => ChanInv (s.conns c).chans) ?_ ?_ rch
  · intro opts plan
    exact ⟨(by intro _ hf; cases hf), (by intro _ hf; cases hf)⟩
  · exact fun _ _ _ _ h inv => inv.step h

/-- Where an `OpenSessionResponse` comes from. -/
lemma Step.openSession_cases {n : Nat} {s s' : State μ} {a c} (h : Step n s a s')
    (inv : ChanInv (s.conns c).chans) (hf : .openSession ∈ (s'.conns c).chans.posted) :
    .openSession ∈ (s.conns c).chans.posted ∨
      ∃ b, a = .opening b .reply ∧ (s.atts b).conn = c ∧
        ((s.atts b).pc = .pruned ∨ (s.atts b).pc = .registered) := by
  obtain e | m := h.chan_cases c
  · exact .inl (e ▸ hf)
  obtain hf | hp | hf := m.posted_cases hf
  · exact .inl hf
  · generalize hfr : Frame.openSession = f at hp
    cases hp with
    | reply e hp => exact .inr ⟨_, rfl, e, hp⟩
    | terminal hq => cases hq <;> cases hfr
    | _ => cases hfr
  · cases inv.bulk _ hf

/-- An `OpenSessionResponse` on a connection answers a handler of the connection. -/
lemma reach_replied {n : Nat} {s : State μ} (rch : (server n).Reach s) {c : Nat} :
    .openSession ∈ (s.conns c).chans.posted → ∃ b, b < s.natts ∧ (s.atts b).conn = c := by
  refine server_invariant
    (fun s => .openSession ∈ (s.conns c).chans.posted → ∃ b, b < s.natts ∧ (s.atts b).conn = c)
    ?_ ?_ rch
  · intro opts plan hf
    nomatch hf
  · intro s a s' rch h ih hf
    have keep : ∀ b, b < s.natts → (s.atts b).conn = c →
        ∃ b, b < s'.natts ∧ (s'.atts b).conn = c :=
      fun b hb e => ⟨b, Nat.lt_of_lt_of_le hb h.natts_le, (h.att_conn hb).trans e⟩
    obtain hf | ⟨b, -, e, hp⟩ := h.openSession_cases (reach_chanInv rch c) hf
    · obtain ⟨b, hb, e⟩ := ih hf
      exact keep b hb e
    · refine keep b ((reach_numbering rch).lt fun hu => ?_) e
      simp [hu] at hp

end PjCloud.Session
