import PjCloud.Download.Current

/-!
# Delivery

In every download, whatever drops and resumes there are, the client has handed on a first piece of the
stream, each message once and in order (`Delivery.delivered`), and the totals of an `Eos{COMPLETE}` are
those of the whole stream, however often it has been resumed (`complete_totals`).
-/

namespace PjCloud.Download
open PjCloud.Lib PjCloud.Session
variable {μ : Type}

/-- What the client has, and what its current connection will bring. -/
structure Delivery (S : System μ) : Prop where
  cursors : Cursors S
  socket : Socket S
  delivered : S.client.phase ≠ .ended .cancelled →
    S.client.delivered = (S.server.appended.take S.client.lastSeq).flatMap (·.payload)
  current : S.client.phase.armed = true → Current S
  started : S.client.phase = .streaming →
    ∃ b, b < S.server.natts ∧ (S.server.atts b).conn = S.client.conn
  totals : S.client.phase = .ended .complete →
    S.server.producerDone = true ∧ S.client.eosTotals = Session.totals S.server.appended

namespace Delivery
variable {n k : Nat} {S S' : System μ}

/-- An `Eos{COMPLETE}` on the current connection has the totals of the whole stream, and the consumer
    has sent all of it. -/
lemma of_complete (cur : Current S) (rch : (Session.server n).Reach S.server) {x y}
    (h : .eos .complete x y ∈ (S.server.conns S.client.conn).chans.posted) :
    S.server.producerDone = true ∧ (x, y) = Session.totals S.server.appended ∧
      ∃ b, b < S.server.natts ∧ (S.server.atts b).conn = S.client.conn ∧
        S.server.appended.length ≤ (S.server.atts b).position := by
  obtain ⟨b, hb, hc, hcomp, hd, e⟩ := reach_completedOn rch h
  have hend := (cur.replays b hb hc).complete hcomp hd
  have hcount : (S.server.atts b).pc.counting = true := by
    revert hcomp
    cases (S.server.atts b).pc <;> simp [Pc.completing, Pc.counting]
  obtain ⟨-, ht⟩ := cur.tallied b hb hc hcount
  rw [List.take_of_length_le hend] at ht
  refine ⟨(reach_completionInv rch).done b hcomp, e ▸ ht, b, hb, hc, ?_⟩
  exact Nat.le_trans hend (Nat.le_max_right _ _)

lemma server {a s'} (d : Delivery S) (w : Wiring S) (rch : (Session.server n).Reach S.server)
    (ha : S.allows a = true) (h : Step n S.server a s') :
    Delivery { S with server := s', opens := S.opensAfter a, up := S.upAfter a } := by
  constructor
  · exact d.cursors.server (reach_numbering rch) (reach_streamInv rch) ha h
  · exact d.socket.step (.server (k := 0) ha h)
  · intro hp
    obtain ⟨l, hl⟩ := h.appended_grows
    rw [← hl, List.take_append_of_le_length d.cursors.le]
    exact d.delivered hp
  · exact fun hp => (d.current hp).server d.cursors d.socket w rch ha h
  · intro hp
    obtain ⟨b, hb, e⟩ := d.started hp
    exact ⟨b, Nat.lt_of_lt_of_le hb h.natts_le, (h.att_conn hb).trans e⟩
  · intro hp
    obtain ⟨hd, e⟩ := d.totals hp
    refine ⟨h.producerDone_mono hd, ?_⟩
    rw [h.appended_closed ((reach_completionInv rch).closed hd)]
    exact e

lemma client (d : Delivery S) {x : Client μ} {up}
    (e : (x.lastSeq, x.delivered) = (S.client.lastSeq, S.client.delivered))
    (hup : ∀ c t, .ack t ∈ up c → .ack t ∈ S.up c ∨ t ≤ S.client.lastSeq)
    (sock : Socket { S with client := x, up := up })
    (cur : x.phase.armed = true → Current { S with client := x, up := up })
    (started : x.phase = .streaming → ∃ b, b < S.server.natts ∧ (S.server.atts b).conn = x.conn)
    (hend : S.client.phase = .ended .cancelled → x.phase = .ended .cancelled)
    (htot : x.phase = .ended .complete →
      S.server.producerDone = true ∧ x.eosTotals = Session.totals S.server.appended) :
    Delivery { S with client := x, up := up } := by
  simp only [Prod.mk.injEq] at e
  obtain ⟨e1, e2⟩ := e
  constructor
  · exact d.cursors.client (Nat.le_of_eq e1.symm) (e1 ▸ d.cursors.le) (e1 ▸ hup)
  · exact sock
  · intro hp
    rw [e1, e2]
    exact d.delivered fun hc => hp (hend hc)
  · exact cur
  · exact started
  · exact htot

lemma send_le {ms : List Upstream} {r : Nat} (h : ∀ t, .ack t ∈ ms → t ≤ r) (c t : Nat)
    (ht : .ack t ∈ S.send ms c) : .ack t ∈ S.up c ∨ t ≤ r :=
  (Cursors.mem_send ht).imp_right (h t)

/-- The download ends, other than with `Complete`. -/
lemma finish (d : Delivery S) {eos up} (he : eos ≠ .complete)
    (hend : S.client.phase = .ended .cancelled → eos = .cancelled)
    (hup : ∀ c t, .ack t ∈ up c → .ack t ∈ S.up c ∨ t ≤ S.client.lastSeq) :
    Delivery { S with client := S.client.finish eos, up := up } := by
  refine d.client (by rfl) hup (d.socket.client (by rfl) (List.nil_subset _)) ?_ ?_ ?_ ?_
  · exact (by intro hp; cases hp)
  · exact (by intro hp; cases hp)
  · exact fun hp => congrArg Phase.ended (hend hp)
  · intro hp
    cases hp
    exact absurd rfl he

lemma next (d : Delivery S) {env fs} (hp : S.client.phase = .streaming)
    (hq : S.client.inbox = .batch env :: fs) : S.server.appended[S.client.lastSeq]? = some env := by
  obtain ⟨b, hb, hc⟩ := d.started hp
  have flow := (d.current (by simp [hp, Phase.armed])).flow b hb hc
  rw [show transit S = .batch env :: (fs ++ S.unread.filter isSession) by simp [transit, hq]] at flow
  exact flow.head.2

lemma deliver (d : Delivery S) (w : Wiring S) {env fs} (hp : S.client.phase = .streaming)
    (hq : S.client.inbox = .batch env :: fs) (hs : env.seq = S.client.lastSeq + 1) {x : Client μ} {up}
    (hx : (x.phase, x.conn, x.taken, x.response, x.inbox) =
      (S.client.phase, S.client.conn, S.client.taken, S.client.response, fs))
    (hd : (x.lastSeq, x.delivered) = (env.seq, S.client.delivered ++ env.payload))
    (hup : ∀ c t, .ack t ∈ up c → .ack t ∈ S.up c ∨ t ≤ env.seq) :
    Delivery { S with client := x, up := up } := by
  simp only [Prod.mk.injEq] at hx hd
  obtain ⟨e1, e2, e3, e4, e5⟩ := hx
  obtain ⟨e6, e7⟩ := hd
  have cur := d.current (by simp [hp, Phase.armed])
  obtain ⟨b, hb, hc⟩ := d.started hp
  have hget := d.next hp hq
  have hle : env.seq ≤ S.server.appended.length := hs ▸ (List.getElem?_eq_some_iff.mp hget).1
  constructor
  · exact d.cursors.client (by omega) (e6 ▸ hle) (e6 ▸ hup)
  · exact d.socket.client (by simp [e2, e3, e4]) (by simp [e5, hq])
  · intro _
    rw [e6, e7, hs, List.take_add_one, hget, d.delivered (by simp [hp])]
    simp
  · exact fun _ => cur.deliver w ⟨b, hb, hc⟩ hq (by simp [e2, e3, e5, e6, hs])
  · exact fun _ => ⟨b, hb, hc.trans e2.symm⟩
  · intro hp'
    rw [e1, hp] at hp'
    cases hp'

lemma receive (d : Delivery S) {f fs} (h : S.unread = f :: fs) :
    Delivery { S with client := S.client.receive f } := by
  obtain ⟨e0, e1, e2, e3, -, e4⟩ := Wiring.receive_core (x := S.client) (f := f)
  refine d.client (by rw [e2, e3]) (fun _ _ ht => .inl ht) (d.socket.receive h) ?_ ?_ ?_ ?_
  · intro hp
    refine (d.current (e1 ▸ hp)).client (by rw [e0, e2]) fun q y flow => ?_
    rw [Current.transit_receive h]
    exact flow
  · rw [e0, e1]
    exact d.started
  · exact fun hp => e1.trans hp
  · rw [e1, e4]
    exact d.totals

/-- The client changes nothing but its flags. -/
lemma flags (d : Delivery S) {x : Client μ} {up}
    (e : (x.phase, x.conn, x.taken, x.response, x.inbox, x.lastSeq, x.delivered, x.eosTotals) =
      (S.client.phase, S.client.conn, S.client.taken, S.client.response, S.client.inbox,
        S.client.lastSeq, S.client.delivered, S.client.eosTotals))
    (hup : ∀ c t, .ack t ∈ up c → .ack t ∈ S.up c ∨ t ≤ S.client.lastSeq) :
    Delivery { S with client := x, up := up } := by
  simp only [Prod.mk.injEq] at e
  obtain ⟨e1, e2, e3, e4, e5, e6, e7, e8⟩ := e
  have ht : transit { S with client := x, up := up } = transit S := by
    simp [transit, System.unread, e2, e3, e5]
  refine d.client (by rw [e6, e7]) hup (d.socket.client (by rw [e2, e3, e4]) (e5 ▸ List.Subset.refl _))
    ?_ ?_ (fun hp => e1.trans hp) ?_
  · exact fun hp => (d.current (e1 ▸ hp)).client (by rw [e2, e6]) fun q y flow => ht ▸ flow
  · rw [e1, e2]
    exact d.started
  · rw [e1, e8]
    exact d.totals

lemma opened (d : Delivery S) (rch : (Session.server n).Reach S.server)
    (hp : S.client.phase.waiting = true) (hr : S.client.response = some .openSession) :
    Delivery { S with client := S.client.opened } := by
  have harm : S.client.phase.armed = true := by
    cases h : S.client.phase <;> simp_all [Phase.waiting, Phase.armed]
  have hend : S.client.phase ≠ .ended .cancelled := by
    intro h
    simp [h, Phase.waiting] at hp
  refine d.client (by rfl) (fun _ _ ht => .inl ht)
    (d.socket.client (by rfl) (List.Subset.refl _)) ?_ ?_ (fun h => absurd h hend) ?_
  · exact fun _ => (d.current harm).client (by rfl) fun _ _ flow => flow
  · intro _
    exact reach_replied rch (List.mem_append_right _ (d.socket.response _ hr))
  · exact (by intro h; cases h)

lemma step {a : Act} (d : Delivery S) (w : Wiring S) (rch : (Session.server n).Reach S.server)
    (h : Move n k S a S') : Delivery S' := by
  have kept : ∀ c t, .ack t ∈ S.up c → .ack t ∈ S.up c ∨ t ≤ S.client.lastSeq :=
    fun _ _ ht => .inl ht
  have cancels : ∀ c t, .ack t ∈ S.send [.cancel] c → .ack t ∈ S.up c ∨ t ≤ S.client.lastSeq :=
    send_le (by simp)
  cases h with
  | server ha h => exact d.server w rch ha h
  | @cancelMissing c ms hu =>
    refine d.flags (by rfl) fun e t ht => .inl ?_
    rw [Function.update_apply] at ht
    split at ht
    case isTrue e =>
      rw [e, hu]
      exact List.mem_cons_of_mem _ ht
    case isFalse => exact ht
  | receive _ hu => exact d.receive hu
  | opened hp hr => exact d.opened rch hp hr
  | openRefused hp =>
    exact d.finish (by simp) (fun h => by simp [h, Phase.waiting] at hp) kept
  | openRetried hp =>
    refine d.client (by rfl) kept (d.socket.client (by rfl) (List.nil_subset _)) ?_ ?_ ?_ ?_
    · exact (by intro h; cases h)
    · exact (by intro h; cases h)
    · exact fun h => by simp [hp] at h
    · exact (by intro h; cases h)
  | outOfOrder hp => exact d.finish (by simp) (fun h => by simp [hp] at h) cancels
  | batchAcked hp hq hs => exact d.deliver w hp hq hs (by rfl) (by rfl) (send_le (by simp))
  | batch hp hq hs =>
    exact d.deliver w hp hq hs (by rfl) (by rfl) fun _ _ ht => .inl ht
  | @eos _ r x y fs hp hq =>
    refine d.client (by rfl) (send_le (by simp))
      (d.socket.client (by rfl) (List.nil_subset _)) ?_ ?_ ?_ ?_
    · exact (by intro h; cases h)
    · exact (by intro h; cases h)
    · exact fun h => by simp [hp] at h
    · intro h
      obtain rfl : r = .complete := by
        cases r <;> first | rfl | cases h
      have hmem : .eos .complete x y ∈ (S.server.conns S.client.conn).chans.posted :=
        List.mem_append_right _ (d.socket.inbox (by simp [hq]))
      obtain ⟨hd, e, -⟩ := of_complete (d.current (by simp [hp, Phase.armed])) rch hmem
      exact ⟨hd, e⟩
  | error hp => exact d.finish (by simp) (fun h => by simp [hp] at h) kept
  | @skip _ f fs hp hq hf _ =>
    refine d.client (by rfl) kept (d.socket.client (by rfl) (by simp [hq])) ?_ d.started
      (fun h => h) d.totals
    refine fun _ => (d.current (by simp [hp, Phase.armed])).client (by rfl) fun q y flow => ?_
    rw [show transit S = f :: (fs ++ S.unread.filter isSession) by simp [transit, hq]] at flow
    exact flow.skip hf
  | abort hp hq hs =>
    have hle := (List.getElem?_eq_some_iff.mp (d.next hp hq)).1
    rw [Nat.lt_iff_add_one_le, ← hs] at hle
    constructor
    · exact d.cursors.client (by simp [Client.abort, Client.finish, hs]) hle (send_le (by simp))
    · exact d.socket.client (by rfl) (List.nil_subset _)
    · exact fun h => absurd rfl h
    · exact (by intro h; cases h)
    · exact (by intro h; cases h)
    · exact (by intro h; cases h)
  | requestCancel => exact d.flags (by rfl) kept
  | sendCancel => exact d.flags (by rfl) cancels
  | stop => exact d.finish (by simp) (fun _ => rfl) kept
  | stopCancel => exact d.finish (by simp) (fun _ => rfl) cancels
  | drop hp =>
    refine d.client (by rfl) kept (d.socket.client (by rfl) (List.Subset.refl _)) ?_ ?_ ?_ ?_
    · exact (by intro h; cases h)
    · exact (by intro h; cases h)
    · exact fun h => by simp [hp] at h
    · exact (by intro h; cases h)
  | retryFailed => exact d.flags (by rfl) kept
  | retry hp =>
    constructor
    · exact d.cursors.retry
    · exact d.socket.step (.retry (n := 0) (k := S.client.attemptsUsed + 1) hp (Nat.lt_succ_self _))
    · exact fun _ => d.delivered (by simp [hp])
    · exact fun _ => .retry w d.cursors
    · exact (by intro h; cases h)
    · exact (by intro h; cases h)
  | exhausted hp => exact d.finish (by simp) (fun h => by simp [hp] at h) kept

end Delivery

section Runs
variable {n k : Nat} {opts : RetainOpts} {plan : List (Batch μ)} {S : System μ}

lemma reach_delivery (rch : (download n k opts plan).Reach S) : Delivery S := by
  refine download_invariant Delivery ?_ ?_ rch
  · constructor
    · exact ⟨Nat.le_refl _, Nat.le_refl _, (by intro _ h; cases h), (by intro _ _ h; cases h),
        (fun _ _ h => by simp [System.start] at h), (by intro _ h; cases h)⟩
    · exact ⟨Nat.le_refl _, List.nil_subset _, (by intro _ h; cases h)⟩
    · exact fun _ => rfl
    · intro _
      constructor
      · intro r hr
        obtain rfl : r = none := by simpa [System.start] using hr
        rfl
      · exact fun _ => Flow.nil (Nat.le_refl _) rfl
      · exact (by intro _ h; cases h)
      · exact (by intro _ h; cases h)
      · exact (by intro _ h; cases h)
    · exact (by intro h; cases h)
    · exact (by intro h; cases h)
  · exact fun S a S' rch h d => d.step (reach_wiring rch) (reach_server rch) h

/-- However often a download has been resumed, an `Eos{COMPLETE}` on the client's connection, and the
    one it has ended with, has the totals of all batches that were appended. -/
theorem complete_totals (rch : (download n k opts plan).Reach S) :
    (S.client.phase.armed = true → ∀ x y,
      .eos .complete x y ∈ (S.server.conns S.client.conn).priorityCh ∨
          .eos .complete x y ∈ (S.server.conns S.client.conn).wire →
        x = (S.server.appended.map (·.messages)).sum ∧ y = (S.server.appended.map (·.bytes)).sum) ∧
    (S.client.phase = .ended .complete →
      S.client.eosTotals =
        ((S.server.appended.map (·.messages)).sum, (S.server.appended.map (·.bytes)).sum)) := by
  have d := reach_delivery rch
  refine ⟨fun hp x y hf => ?_, fun hp => (d.totals hp).2⟩
  have e := (Delivery.of_complete (d.current hp) (reach_server rch) (List.mem_append.mpr hf)).2.1
  exact Prod.mk.inj e

/-- Whatever is dropped and resumed, the messages handed on are the first ones of the plan, in order and once each. -/
theorem delivered_in_order (rch : (download n k opts plan).Reach S) (on : S.client.phase ≠ .ended .cancelled) :
    S.client.delivered <+: plan.flatMap (·.msgs) := by
  have made := download_invariant (fun S => S.server.recorded.flatMap (·.payload) ++ S.server.todo.flatMap (·.msgs) =
      plan.flatMap (·.msgs)) rfl (by
    intro S a S' _ h made
    cases h with
    | server _ h =>
      cases h
      case record todo _ =>
        rw [todo] at made
        simpa [Batch.envelope] using made
      all_goals exact made
    | _ => exact made) rch
  obtain ⟨rest, eq⟩ := (List.take_prefix S.client.lastSeq _).trans (reach_streamInv (reach_server rch)).appended
  rw [(reach_delivery rch).delivered on, ← made, ← eq, List.flatMap_append, List.append_assoc]
  exact List.prefix_append _ _

end Runs

/-- The download is opened on connection `0`, and the producer starts. -/
def openRun : List Act :=
  [.server (.openFresh 0 0), .server (.opening 0 .reply), .server (.opening 0 .bind),
   .server (.opening 0 .takeover), .server (.opening 0 .track), .server (.producer .spawn),
   .server (.conn 0 .writePriority), .client .receive, .client .opened]

def appendRun : List Act :=
  [.server (.producer .record), .server (.producer .append)]

/-- The consumer `a` sends a batch. -/
def sendRun (a : Nat) : List Act :=
  [.server (.consumer a .fetch), .server (.consumer a .send)]

/-- The write loop of connection `c` writes a batch, and the client processes it. -/
def batchRun (c : Nat) : List Act :=
  [.server (.conn c .poll), .server (.conn c .writeBulk), .client .receive, .client (.frame false)]

/-- The plan ends, and the consumer `a` drains. -/
def drainRun (a : Nat) : List Act :=
  [.server (.producer (.finish .exhausted)), .server (.producer .close),
   .server (.consumer a .producerDone), .server (.consumer a .eos)]

/-- The write loop of connection `c` writes the `Eos`, and the client ends. -/
def eosRun (c : Nat) : List Act :=
  [.server (.conn c .writePriority), .client .receive, .client (.frame false)]

/-- The client drops connection `0` and resumes on connection `1` after batch `1`. -/
def resumeRun : List Act :=
  [.client .drop, .client (.retry true), .server (.openResume 1 1), .server (.opening 1 .reattach),
   .server (.opening 1 .prune), .server (.opening 1 .reply), .server (.opening 1 .bind),
   .server (.opening 1 .takeover), .server (.opening 1 .track), .server (.conn 1 .writePriority),
   .client .receive, .client .opened]

/-- A batch was in flight when the first connection dropped; it is counted once. -/
theorem resumed_totals :
    ∃ S : System Unit, (download 64 kMaxResumeAttempts ⟨4, 100⟩
        [⟨1, 5, [(), ()]⟩, ⟨1, 7, [()]⟩]).Reach S ∧
      S.client.conn = 1 ∧ S.client.phase = .ended .complete ∧ S.client.eosTotals = (3, 12) ∧
      S.client.eosTotals =
        ((S.server.appended.map (·.messages)).sum, (S.server.appended.map (·.bytes)).sum) := by
  have run : ((download 64 kMaxResumeAttempts ⟨4, 100⟩ [⟨1, 5, [(), ()]⟩, ⟨1, 7, [()]⟩]).replay
      (.start ⟨4, 100⟩ [⟨1, 5, [(), ()]⟩, ⟨1, 7, [()]⟩])
      (openRun ++ appendRun ++ appendRun ++ sendRun 0 ++ sendRun 0 ++ batchRun 0 ++ resumeRun ++
        sendRun 1 ++ batchRun 1 ++ drainRun 1 ++ eosRun 1)).any
      (fun S : System Unit => decide (S.client.conn = 1 ∧ S.client.phase = .ended .complete ∧
        S.client.eosTotals = (3, 12))) = true := by
    decide +kernel
  obtain ⟨S, rch, hS⟩ := replay_download run
  obtain ⟨hc, hp, ht⟩ := of_decide_eq_true hS
  exact ⟨S, rch, hc, hp, ht, (complete_totals rch).2 hp⟩

theorem resumed_in_order : ∃ S : System Nat, (download 64 3 ⟨4, 9⟩ [⟨1, 5, [7, 8]⟩]).Reach S ∧
    S.client.conn = 1 ∧ S.client.delivered <+: [7, 8] := by
  have run : ((download 64 3 ⟨4, 9⟩ [⟨1, 5, [7, 8]⟩]).replay (.start ⟨4, 9⟩ [⟨1, 5, [7, 8]⟩])
      (openRun ++ appendRun ++ sendRun 0 ++ batchRun 0 ++ resumeRun)).any
      (fun S : System Nat => decide (S.client.conn = 1 ∧ S.client.phase = .streaming)) = true := by decide +kernel
  obtain ⟨S, rch, hS⟩ := replay_download run
  obtain ⟨hc, hp⟩ := of_decide_eq_true hS
  exact ⟨S, rch, hc, delivered_in_order rch (by simp [hp])⟩

end PjCloud.Download
