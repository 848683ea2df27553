import PjCloud.Download.Delivery

/-!
# Complete downloads

What a client has handed on is a first piece of the stream (`Delivery.delivered`), but a download that
ends with `Complete` need not have all of it. `Eos{COMPLETE}` goes through the priority channel and may
overtake the last batches, which wait in the bulk channel; the client ends at the `Eos`, without them
(`eos_overtakes_batch`).

When the write loop takes an `Eos{COMPLETE}` only after the batches (`eosAfterBatches`), a download that
ends with `Complete` is whole (`complete_whole`).
-/

namespace PjCloud.Download
open PjCloud.Lib PjCloud.Session
variable {μ : Type}

/-- The write loop takes an `Eos{COMPLETE}` from the priority channel only when no batch waits in the
    bulk channel. -/
def eosAfterBatches (S : System μ) : Act → Bool
  | .server (.conn c .writePriority) =>
    !(S.server.conns c).priorityCh.head?.any Frame.isComplete ||
      (batches (S.server.conns c).bulkCh).isEmpty
  | _ => true

/-- The frames before the first `Eos{COMPLETE}`. -/
def beforeEos (fs : List (Frame μ)) : List (Frame μ) :=
  fs.takeWhile fun f => !f.isComplete

/-- Frames behind an `Eos{COMPLETE}` do not matter. -/
lemma beforeEos_append {fs gs : List (Frame μ)} (h : fs.any Frame.isComplete = true) :
    beforeEos (fs ++ gs) = beforeEos fs := by
  induction fs with
  | nil => cases h
  | cons f fs ih =>
    cases hf : f.isComplete with
    | true => simp [beforeEos, hf]
    | false =>
      have := ih (by simpa [hf] using h)
      simpa [beforeEos, hf] using this

/-- Everything stands before the first `Eos{COMPLETE}`. -/
lemma beforeEos_snoc {fs : List (Frame μ)} {f} (h : fs.any Frame.isComplete = false)
    (hf : f.isComplete = true) : beforeEos (fs ++ [f]) = fs := by
  induction fs with
  | nil => simp [beforeEos, hf]
  | cons g fs ih =>
    simp only [List.any_cons, Bool.or_eq_false_iff] at h
    have := ih h.2
    simpa [beforeEos, h.1] using this

lemma written_cases {n : Nat} {s s' : State μ} {a} (h : Step n s a s') (c : Nat) :
    (s'.conns c).wire = (s.conns c).wire ∨
      (∃ f fs, a = .conn c .writePriority ∧ (s.conns c).writing = true ∧
        (s.conns c).priorityCh = f :: fs ∧ (s'.conns c).wire = (s.conns c).wire ++ [f]) ∨
      ∃ f, f ∈ (s.conns c).bulkCh ∧ (s'.conns c).wire = (s.conns c).wire ++ [f] := by
  obtain e | m := h.chan_cases c
  · exact .inl (congrArg Chans.wire e)
  change (s'.conns c).chans.wire = _ ∨ (∃ f fs, _ ∧ _ ∧ _ ∧ (s'.conns c).chans.wire = _) ∨
    ∃ f, _ ∧ (s'.conns c).chans.wire = _
  generalize (s'.conns c).chans = x at m
  cases m with
  | @writePriority f fs hw hq => exact .inr (.inl ⟨f, fs, rfl, hw, hq, rfl⟩)
  | @writeBulk f fs _ hq => exact .inr (.inr ⟨f, by simp [hq], rfl⟩)
  | _ => exact .inl rfl

/-- All that is left of the stream stands before an `Eos{COMPLETE}` in transit. -/
structure Ordered (S : System μ) : Prop where
  before : S.client.phase.armed = true → (transit S).any Frame.isComplete = true →
    batches (beforeEos (transit S)) = S.server.appended.drop S.client.lastSeq
  whole : S.client.phase = .ended .complete → S.server.appended.length ≤ S.client.lastSeq

namespace Ordered
variable {n k : Nat} {S S' : System μ}

/-- An `Eos{COMPLETE}` in transit has been written. -/
lemma transit_posted (sock : Socket S) (h : (transit S).any Frame.isComplete = true) :
    ∃ x y, .eos .complete x y ∈ (S.server.conns S.client.conn).chans.posted := by
  obtain ⟨f, hf, hc⟩ := List.any_eq_true.mp h
  have hw : f ∈ (S.server.conns S.client.conn).wire := by
    obtain hf | hf := List.mem_append.mp hf
    · exact sock.inbox hf
    · exact List.mem_of_mem_drop (List.mem_filter.mp hf).1
  cases f with
  | eos r x y =>
    obtain rfl : r = .complete := by cases r <;> first | rfl | cases hc
    exact ⟨x, y, List.mem_append_right _ hw⟩
  | _ => cases hc

/-- The batches in transit are all that is left, when the write loop takes the `Eos{COMPLETE}`. -/
lemma written (d : Delivery S) (rch : (Session.server n).Reach S.server)
    (hp : S.client.phase.armed = true) {f fs} (hf : f.isComplete = true)
    (hw : (S.server.conns S.client.conn).writing = true)
    (hq : (S.server.conns S.client.conn).priorityCh = f :: fs)
    (hb : batches (S.server.conns S.client.conn).chans.bulkCh = []) :
    batches (transit S) = S.server.appended.drop S.client.lastSeq := by
  cases f with
  | eos r x y =>
    obtain rfl : r = .complete := by cases r <;> first | rfl | cases hf
    have hmem : .eos .complete x y ∈ (S.server.conns S.client.conn).chans.posted :=
      List.mem_append_left _ (by simp [Conn.chans, hq])
    obtain ⟨-, -, b, hb', hc, hend⟩ := Delivery.of_complete (d.current hp) rch hmem
    obtain ⟨rest, e, hrest⟩ := ((d.current hp).flow b hb' hc).rest
    rwa [hrest hw, hb, List.append_nil, List.take_of_length_le hend] at e
  | _ => cases hf

lemma server {a s'} (o : Ordered S) (d : Delivery S) (rch : (Session.server n).Reach S.server)
    (hok : eosAfterBatches S (.server a) = true) (h : Step n S.server a s') :
    Ordered { S with server := s', opens := S.opensAfter a, up := S.upAfter a } := by
  have frozen : S.server.producerDone = true → s'.appended = S.server.appended :=
    fun hd => h.appended_closed ((reach_completionInv rch).closed hd)
  refine ⟨fun hp hany => ?_, fun hp => ?_⟩
  · have posted : ∀ {x y}, .eos .complete x y ∈ (S.server.conns S.client.conn).chans.posted →
        s'.appended = S.server.appended :=
      fun hf => frozen (Delivery.of_complete (d.current hp) rch hf).1
    obtain ⟨w, hw⟩ := h.wire_grows S.client.conn
    rw [Current.transit_server d.socket hw.symm] at hany ⊢
    by_cases hold : (transit S).any Frame.isComplete = true
    · obtain ⟨x, y, hf⟩ := transit_posted d.socket hold
      rw [beforeEos_append hold, o.before hp hold, posted hf]
    · -- the frame that has just been written is the first `Eos{COMPLETE}`
      have hold : (transit S).any Frame.isComplete = false := by simpa using hold
      rw [List.any_append, hold, Bool.false_or] at hany
      obtain ⟨g, hg, hgc⟩ := List.any_eq_true.mp hany
      obtain ⟨hg, hs⟩ := List.mem_filter.mp hg
      obtain e | ⟨f, fs, rfl, hwr, hq, e⟩ | ⟨f, hf, e⟩ := written_cases h S.client.conn <;>
        rw [← hw] at e
      · obtain rfl : w = [] := by simpa using e
        cases hg
      · obtain rfl : w = [f] := by simpa using e
        obtain rfl := List.mem_singleton.mp hg
        have hb : batches (S.server.conns S.client.conn).bulkCh = [] := by
          simpa [eosAfterBatches, hq, hgc] using hok
        have e := written d rch hp hgc hwr hq hb
        rw [List.filter_cons_of_pos hs, List.filter_nil, beforeEos_snoc hold hgc, e,
          h.appended_frame (by intro e; cases e)]
      · obtain rfl : w = [f] := by simpa using e
        obtain rfl := List.mem_singleton.mp hg
        have hb := (reach_chanInv rch S.client.conn).bulk g hf
        cases g with
        | batch env => cases hgc
        | _ => cases hb
  · rw [frozen (d.totals hp).1]
    exact o.whole hp

lemma client (o : Ordered S) {x : Client μ} {up} (hx : x.lastSeq = S.client.lastSeq)
    (harm : x.phase.armed = true → S.client.phase.armed = true ∧
      transit { S with client := x, up := up } = transit S)
    (hend : x.phase = .ended .complete → S.server.appended.length ≤ S.client.lastSeq) :
    Ordered { S with client := x, up := up } := by
  constructor
  · intro hp
    obtain ⟨hp, e⟩ := harm hp
    rw [e, hx]
    exact o.before hp
  · rw [hx]
    exact hend

/-- The download ends, other than with `Complete`. -/
lemma finish (o : Ordered S) {eos up} (he : eos ≠ .complete) :
    Ordered { S with client := S.client.finish eos, up := up } := by
  refine o.client (by rfl) (by intro hp; cases hp) fun hp => ?_
  cases hp
  exact absurd rfl he

lemma advance (o : Ordered S) {f fs} (hp : S.client.phase = .streaming) (hq : S.client.inbox = f :: fs)
    (hf : f.isComplete = false) {x : Client μ} {up}
    (e : (x.phase, x.conn, x.taken, x.inbox) = (S.client.phase, S.client.conn, S.client.taken, fs))
    (hx : x.lastSeq = S.client.lastSeq + f.batch?.toList.length) :
    Ordered { S with client := x, up := up } := by
  simp only [Prod.mk.injEq] at e
  obtain ⟨e1, e2, e3, e4⟩ := e
  have ht : transit S = f :: transit { S with client := x, up := up } := by
    simp [transit, System.unread, hq, e2, e3, e4]
  constructor
  · intro _ hany
    have hb := o.before (by simp [hp, Phase.armed]) (by simpa [ht, hf] using hany)
    rw [ht, beforeEos, List.takeWhile_cons_of_pos (by simp [hf])] at hb
    cases hfb : f.batch? with
    | none =>
      rw [batches_cons_of_none hfb] at hb
      simpa [hx, hfb, beforeEos] using hb
    | some env =>
      rw [batches, List.filterMap_cons_some hfb] at hb
      simp only [hx, hfb, Option.toList_some, List.length_singleton]
      rw [← List.drop_drop, ← hb]
      rfl
  · intro h
    rw [e1, hp] at h
    cases h

lemma step {a : Act} (o : Ordered S) (d : Delivery S) (w : Wiring S) (rch : (Session.server n).Reach S.server)
    (hok : eosAfterBatches S a = true) (h : Move n k S a S') : Ordered S' := by
  cases h with
  | server ha h => exact o.server d rch hok h
  | cancelMissing => exact o.client (by rfl) (fun hp => ⟨hp, rfl⟩) o.whole
  | receive hp hu =>
    obtain ⟨-, e1, e2, -⟩ := Wiring.receive_core (x := S.client)
    exact o.client e2 (fun _ => ⟨hp, Current.transit_receive hu⟩) fun h => o.whole (e1 ▸ h)
  | opened hp =>
    refine o.client (by rfl) (fun _ => ⟨?_, rfl⟩) (by intro h; cases h)
    cases h : S.client.phase <;> simp_all [Phase.waiting, Phase.armed]
  | openRetried => exact o.client (by rfl) (by intro hp; cases hp) (by intro h; cases h)
  | batchAcked hp hq hs => exact o.advance hp hq rfl (by rfl) hs
  | batch hp hq hs => exact o.advance hp hq rfl (by rfl) hs
  | @eos _ r x y fs hp hq =>
    refine o.client (by rfl) (by intro hp; cases hp) fun h => ?_
    obtain rfl : r = .complete := by cases r <;> first | rfl | cases h
    have ht : transit S = .eos .complete x y :: (fs ++ S.unread.filter isSession) := by
      simp [transit, hq]
    have hb := o.before (by simp [hp, Phase.armed]) (by simp [ht, Frame.isComplete])
    rw [ht] at hb
    exact List.drop_eq_nil_iff.mp hb.symm
  | @skip _ f fs hp hq hf hterm =>
    refine o.advance hp hq ?_ (by rfl) (by simp [hf])
    cases f <;> simp_all [Frame.isComplete, Frame.terminal]
  | abort => exact ⟨(by intro h; cases h), (by intro h; cases h)⟩
  | requestCancel => exact o.client (by rfl) (fun hp => ⟨hp, rfl⟩) o.whole
  | sendCancel => exact o.client (by rfl) (fun hp => ⟨hp, rfl⟩) o.whole
  | drop => exact o.client (by rfl) (by intro hp; cases hp) (by intro h; cases h)
  | retryFailed => exact o.client (by rfl) (fun hp => ⟨hp, rfl⟩) o.whole
  | retry =>
    refine ⟨fun _ h => ?_, (by intro h; cases h)⟩
    rw [Current.transit_retry w] at h
    cases h
  | _ => exact o.finish (by simp)

end Ordered

section Runs
variable {n k : Nat} {opts : RetainOpts} {plan : List (Batch μ)} {S : System μ}

lemma reach_ordered (rch : ((download n k opts plan).only eosAfterBatches).Reach S) : Ordered S := by
  refine download_only_invariant Ordered ?_ ?_ rch
  · exact ⟨(by intro _ h; cases h), (by intro h; cases h)⟩
  · exact fun S a S' rch hok h o =>
      o.step (reach_delivery rch) (reach_wiring rch) (reach_server rch) hok h

/-- A download that ends with `Complete` has handed on the messages of all batches that were appended,
    in the order of their seqs, each once, when no `Eos{COMPLETE}` overtakes a batch. -/
theorem complete_whole (rch : ((download n k opts plan).only eosAfterBatches).Reach S)
    (hp : S.client.phase = .ended .complete) :
    S.client.delivered = S.server.appended.flatMap (·.payload) ∧
      S.server.appended.map (·.seq) = List.range' 1 S.server.appended.length := by
  have d := reach_delivery rch.of_only
  refine ⟨?_, ?_⟩
  · rw [d.delivered (by simp [hp]), List.take_of_length_le ((reach_ordered rch).whole hp)]
  · exact (reach_streamInv (reach_server rch.of_only)).appended_numbered.map_eq

end Runs

/-- A download of one batch that meets the condition. -/
theorem batch_before_eos_whole :
    ∃ S : System Nat, ((download 64 kMaxResumeAttempts ⟨4, 100⟩ [⟨1, 5, [7, 8]⟩]).only
        eosAfterBatches).Reach S ∧ S.client.phase = .ended .complete ∧
      S.client.delivered = [7, 8] ∧ S.client.delivered = S.server.appended.flatMap (·.payload) := by
  have run : (((download 64 kMaxResumeAttempts ⟨4, 100⟩ [⟨1, 5, [7, 8]⟩]).only eosAfterBatches).replay
      (.start ⟨4, 100⟩ [⟨1, 5, [7, 8]⟩])
      (openRun ++ appendRun ++ sendRun 0 ++ batchRun 0 ++ drainRun 0 ++ eosRun 0)).any
      (fun S : System Nat => decide (S.client.phase = .ended .complete ∧
        S.client.delivered = [7, 8])) = true := by
    decide +kernel
  obtain ⟨S, rch, hS⟩ := replay_only_download run
  obtain ⟨hp, hd⟩ := of_decide_eq_true hS
  exact ⟨S, rch, hp, hd, (complete_whole rch hp).1⟩

/-- The `Eos{COMPLETE}` overtakes the only batch, and the client ends with `Complete` and nothing. -/
theorem eos_overtakes_batch :
    ∃ S : System Nat, (download 64 kMaxResumeAttempts ⟨4, 100⟩ [⟨1, 5, [7, 8]⟩]).Reach S ∧
      S.client.phase = .ended .complete ∧ S.client.delivered = [] ∧
      S.server.appended.flatMap (·.payload) = [7, 8] := by
  have run : ((download 64 kMaxResumeAttempts ⟨4, 100⟩ [⟨1, 5, [7, 8]⟩]).replay
      (.start ⟨4, 100⟩ [⟨1, 5, [7, 8]⟩])
      (openRun ++ appendRun ++ sendRun 0 ++ drainRun 0 ++ eosRun 0)).any
      (fun S : System Nat => decide (S.client.phase = .ended .complete ∧ S.client.delivered = [] ∧
        S.server.appended.flatMap (·.payload) = [7, 8])) = true := by
    decide +kernel
  obtain ⟨S, rch, hS⟩ := replay_download run
  exact ⟨S, rch, of_decide_eq_true hS⟩

end PjCloud.Download
