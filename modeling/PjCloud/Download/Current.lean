import PjCloud.Download.Flow

/-!
# The current connection

The client's acks and cursors are behind what it has processed, so the buffer keeps everything it still
needs (`Cursors`). What it has read is part of what has been written to its current connection
(`Socket`). On that connection the consumer, if there is one, replays gaplessly, counts right, and has
the next batches of the stream in flight (`Current`). Consumers of connections that the client has left
may be anywhere.
-/

namespace PjCloud.Download
open PjCloud.Lib PjCloud.Session
variable {μ : Type}

/-- Acks and cursors are not ahead of the client, and nothing it still needs is pruned. -/
structure Cursors (S : System μ) : Prop where
  le : S.client.lastSeq ≤ S.server.appended.length
  low : S.server.low ≤ S.client.lastSeq
  ackCh : ∀ t ∈ S.server.ackCh, t ≤ S.client.lastSeq
  up : ∀ c t, .ack t ∈ S.up c → t ≤ S.client.lastSeq
  opens : ∀ c m, (c, some m) ∈ S.opens → m ≤ S.client.lastSeq
  atts : ∀ b, b < S.server.natts → (S.server.atts b).startAfterSeq ≤ S.client.lastSeq

namespace Cursors
variable {n : Nat} {S : System μ} {a : Action} {s' : State μ}

lemma upAfter_subset {c} : S.upAfter a c ⊆ S.up c := by
  have tail : ∀ d, Function.update S.up d (S.up d).tail c ⊆ S.up c := by
    intro d
    rw [Function.update_apply]
    split
    case isTrue e => exact e ▸ (List.tail_sublist _).subset
    case isFalse => exact List.Subset.refl _
  cases a with
  | conn d act =>
    cases act with
    | ack t found => exact tail d
    | cancelLookup => exact tail d
    | _ => exact List.Subset.refl _
  | _ => exact List.Subset.refl _

lemma server (cur : Cursors S) (num : Numbering S.server) (inv : StreamInv S.server)
    (ha : S.allows a = true) (h : Step n S.server a s') :
    Cursors { S with server := s', opens := S.opensAfter a, up := S.upAfter a } := by
  constructor
  · exact Nat.le_trans cur.le h.appended_grows.length_le
  · show s'.low ≤ S.client.lastSeq
    have := cur.low
    obtain ⟨e, -⟩ | ⟨b, -, hp, e⟩ | ⟨b, t, ts, -, hq, e⟩ := inv.low_cases h
    · omega
    · have := cur.atts b (num.lt (by simp [hp]))
      omega
    · have := cur.ackCh t (by simp [hq])
      omega
  · intro t ht
    obtain ht | ⟨c, rfl⟩ := h.ackCh_cases ht
    · exact cur.ackCh t ht
    · have hu : (S.up c).head? = some (.ack t) := by simpa [System.allows] using ha
      exact cur.up c t (List.mem_of_mem_head? hu)
  · exact fun c t ht => cur.up c t (upAfter_subset ht)
  · exact fun c m hm => cur.opens c m (Wiring.opensAfter_subset hm)
  · intro b hb
    show (s'.atts b).startAfterSeq ≤ S.client.lastSeq
    by_cases hb' : b < S.server.natts
    · rw [show (s'.atts b).startAfterSeq = _ from congrArg Prod.snd (h.att_origin hb')]
      exact cur.atts b hb'
    · obtain e | ⟨e, ⟨c, j, rfl, e'⟩ | ⟨c, m, rfl, -, e'⟩⟩ := h.natts_cases
      · exact absurd (show b < S.server.natts from e ▸ hb) hb'
      · obtain rfl : b = S.server.natts := by simp only at hb; omega
        rw [e']
        exact Nat.zero_le _
      · obtain rfl : b = S.server.natts := by simp only at hb; omega
        rw [e']
        exact cur.opens c m (by simpa [System.allows] using ha)

lemma client (cur : Cursors S) {x : Client μ} {up} (hle : S.client.lastSeq ≤ x.lastSeq)
    (hx : x.lastSeq ≤ S.server.appended.length)
    (hup : ∀ c t, .ack t ∈ up c → .ack t ∈ S.up c ∨ t ≤ x.lastSeq) :
    Cursors { S with client := x, up := up } where
  le := hx
  low := Nat.le_trans cur.low hle
  ackCh t ht := Nat.le_trans (cur.ackCh t ht) hle
  up c t ht := by
    obtain ht | ht := hup c t ht
    · exact Nat.le_trans (cur.up c t ht) hle
    · exact ht
  opens c m hm := Nat.le_trans (cur.opens c m hm) hle
  atts b hb := Nat.le_trans (cur.atts b hb) hle

lemma retry (cur : Cursors S) :
    Cursors { S with
      client := S.client.reconnect S.nconns
      nconns := S.nconns + 1
      opens := S.opens ++ [(S.nconns, some S.client.lastSeq)] } where
  le := cur.le
  low := cur.low
  ackCh := cur.ackCh
  up := cur.up
  opens c m hm := by
    obtain hm | hm := List.mem_append.mp hm
    · exact cur.opens c m hm
    · cases List.mem_singleton.mp hm
      exact Nat.le_refl _
  atts := cur.atts

lemma mem_send {ms : List Upstream} {c t} (h : .ack t ∈ S.send ms c) :
    .ack t ∈ S.up c ∨ .ack t ∈ ms := by
  rw [System.send, Function.update_apply] at h
  split at h
  case isTrue e => exact (List.mem_append.mp h).imp_left (e ▸ ·)
  case isFalse => exact .inl h

end Cursors

/-- What the client has got is part of what has been written to its current connection. -/
structure Socket (S : System μ) : Prop where
  taken : S.client.taken ≤ (S.server.conns S.client.conn).wire.length
  inbox : S.client.inbox ⊆ (S.server.conns S.client.conn).wire
  response : ∀ f, S.client.response = some f → f ∈ (S.server.conns S.client.conn).wire

namespace Socket
variable {n k : Nat} {S S' : System μ}

lemma unread_mem {f fs} (h : S.unread = f :: fs) :
    S.client.taken < (S.server.conns S.client.conn).wire.length ∧
      f ∈ (S.server.conns S.client.conn).wire := by
  have hlt : S.client.taken < (S.server.conns S.client.conn).wire.length := by
    by_contra hn
    rw [System.unread, List.drop_of_length_le (Nat.le_of_not_lt hn)] at h
    cases h
  exact ⟨hlt, List.mem_of_mem_drop (show f ∈ S.unread by simp [h])⟩

lemma client (sock : Socket S) {x : Client μ} {up}
    (e : (x.conn, x.taken, x.response) = (S.client.conn, S.client.taken, S.client.response))
    (hi : x.inbox ⊆ S.client.inbox) : Socket { S with client := x, up := up } := by
  simp only [Prod.mk.injEq] at e
  obtain ⟨e1, e2, e3⟩ := e
  constructor
  · show x.taken ≤ (S.server.conns x.conn).wire.length
    rw [e1, e2]
    exact sock.taken
  · show x.inbox ⊆ (S.server.conns x.conn).wire
    rw [e1]
    exact List.Subset.trans hi sock.inbox
  · show ∀ f, x.response = some f → f ∈ (S.server.conns x.conn).wire
    rw [e1, e3]
    exact sock.response

lemma receive (sock : Socket S) {f fs} (h : S.unread = f :: fs) :
    Socket { S with client := S.client.receive f } := by
  obtain ⟨hlt, hmem⟩ := unread_mem h
  have one : ∀ g, g ∈ S.client.inbox ++ [f] → g ∈ (S.server.conns S.client.conn).wire := by
    intro g hg
    obtain hg | hg := List.mem_append.mp hg
    · exact sock.inbox hg
    · exact List.mem_singleton.mp hg ▸ hmem
  simp only [Client.receive]
  split
  · exact ⟨hlt, one, sock.response⟩
  · split
    · refine ⟨hlt, sock.inbox, ?_⟩
      rintro g ⟨⟩
      exact hmem
    · exact ⟨hlt, sock.inbox, sock.response⟩

lemma step {a : Act} (sock : Socket S) (h : Move n k S a S') : Socket S' := by
  cases h with
  | server _ h =>
    have grows := h.wire_grows S.client.conn
    exact ⟨Nat.le_trans sock.taken grows.length_le, List.Subset.trans sock.inbox grows.subset,
      fun f hf => grows.subset (sock.response f hf)⟩
  | receive _ hu => exact sock.receive hu
  | retry => exact ⟨Nat.zero_le _, List.nil_subset _, (by intro f hf; cases hf)⟩
  | openRetried => exact sock.client (by rfl) (List.nil_subset _)
  | batchAcked _ hq => exact sock.client (by rfl) (by simp [Client.deliver, hq])
  | batch _ hq => exact sock.client (by rfl) (by simp [Client.deliver, hq])
  | skip _ hq => exact sock.client (by rfl) (by simp [hq])
  | cancelMissing => exact sock.client (by rfl) (List.Subset.refl _)
  | opened => exact sock.client (by rfl) (List.Subset.refl _)
  | requestCancel => exact sock.client (by rfl) (List.Subset.refl _)
  | sendCancel => exact sock.client (by rfl) (List.Subset.refl _)
  | drop => exact sock.client (by rfl) (List.Subset.refl _)
  | retryFailed => exact sock.client (by rfl) (List.Subset.refl _)
  | _ => exact sock.client (by rfl) (List.nil_subset _)

end Socket

def transit (S : System μ) : List (Frame μ) :=
  S.client.inbox ++ S.unread.filter isSession

/-- The state of the client's current connection. -/
structure Current (S : System μ) : Prop where
  request : ∀ r, (S.client.conn, r) ∈ S.opens → r.getD 0 = S.client.lastSeq
  idle : (∀ b, b < S.server.natts → (S.server.atts b).conn ≠ S.client.conn) →
    Flow S.server.appended S.client.lastSeq S.client.lastSeq (transit S)
      (S.server.conns S.client.conn).chans
  replays : ∀ b, b < S.server.natts → (S.server.atts b).conn = S.client.conn →
    Replays S.server (S.server.atts b)
  tallied : ∀ b, b < S.server.natts → (S.server.atts b).conn = S.client.conn →
    Tallied S.server (S.server.atts b)
  flow : ∀ b, b < S.server.natts → (S.server.atts b).conn = S.client.conn →
    Flow S.server.appended S.client.lastSeq (S.server.atts b).position (transit S)
      (S.server.conns S.client.conn).chans

namespace Current
variable {n k : Nat} {S : System μ} {a : Action} {s' : State μ}

lemma transit_server (sock : Socket S) {w opens up}
    (hw : (s'.conns S.client.conn).wire = (S.server.conns S.client.conn).wire ++ w) :
    transit { S with server := s', opens := opens, up := up } =
      transit S ++ w.filter isSession := by
  simp only [transit, System.unread, hw, List.drop_append_of_le_length sock.taken, List.filter_append,
    List.append_assoc]

lemma sender_lt {s : State μ} (num : Numbering s) {b} (h : Step n s (.consumer b .send) s') :
    b < s.natts := by
  cases h with
  | sendFail hp => exact num.lt (by obtain e | e := hp <;> simp [e])
  | send hp => exact num.lt (by obtain e | e := hp <;> simp [e])

lemma old (cur : Current S) (curs : Cursors S) (sock : Socket S) (w : Wiring S)
    (rch : (Session.server n).Reach S.server) (ha : S.allows a = true) (h : Step n S.server a s') {b}
    (hb : b < S.server.natts) (hc : (S.server.atts b).conn = S.client.conn) :
    Replays s' (s'.atts b) ∧ Tallied s' (s'.atts b) ∧
      Flow s'.appended S.client.lastSeq (s'.atts b).position
        (transit { S with server := s', opens := S.opensAfter a, up := S.upAfter a })
        (s'.conns S.client.conn).chans := by
  have num := reach_numbering rch
  have inv := reach_streamInv rch
  have rep := cur.replays b hb hc
  have flow := cur.flow b hb hc
  rw [← hc] at flow
  obtain ⟨ws, hw, flow⟩ := flow.server rep inv (reach_chanInv rch _) h hb
    (fun d hd e => w.single d b (sender_lt num (hd ▸ h)) hb e)
  rw [hc] at hw flow
  rw [transit_server sock hw]
  refine ⟨?_, ?_, flow⟩
  · refine rep.step inv (reach_completionInv rch) num h hb fun _ => ?_
    exact Nat.le_trans (curs.server num inv ha h).low flow.le
  · exact (cur.tallied b hb hc).step rep inv (Nat.le_trans (curs.atts b hb) curs.le) h hb

lemma new_cursor (cur : Current S) (ha : S.allows a = true) (h : Step n S.server a s')
    (hn : s'.natts ≠ S.server.natts) (hc : (s'.atts S.server.natts).conn = S.client.conn) :
    ∃ pc : Pc, pc.spawned = false ∧
      s'.atts S.server.natts =
        { conn := S.client.conn, startAfterSeq := S.client.lastSeq, pc := pc } := by
  obtain e | ⟨-, ⟨c, j, rfl, e⟩ | ⟨c, m, rfl, -, e⟩⟩ := h.natts_cases
  · exact absurd e hn
  · obtain rfl : c = S.client.conn := by rw [← hc, e]
    have hR : 0 = S.client.lastSeq := cur.request none (by simpa [System.allows] using ha)
    exact ⟨.registered, rfl, by rw [e, ← hR]⟩
  · obtain rfl : c = S.client.conn := by rw [← hc, e]
    have hR : m = S.client.lastSeq := cur.request (some m) (by simpa [System.allows] using ha)
    exact ⟨.looked, rfl, by rw [e, ← hR]⟩

lemma new (cur : Current S) (curs : Cursors S) (sock : Socket S) (w : Wiring S)
    (rch : (Session.server n).Reach S.server) (ha : S.allows a = true) (h : Step n S.server a s')
    (hn : s'.natts ≠ S.server.natts) (hc : (s'.atts S.server.natts).conn = S.client.conn) :
    Replays s' (s'.atts S.server.natts) ∧ Tallied s' (s'.atts S.server.natts) ∧
      Flow s'.appended S.client.lastSeq (s'.atts S.server.natts).position
        (transit { S with server := s', opens := S.opensAfter a, up := S.upAfter a })
        (s'.conns S.client.conn).chans := by
  obtain ⟨r, hr, -⟩ := w.new_att ha h hn
  rw [hc] at hr
  have flow := cur.idle fun b hb => w.apart _ hr b hb
  have hlow := (curs.server (reach_numbering rch) (reach_streamInv rch) ha h).low
  obtain ⟨ws, hw, flow⟩ := flow.chan (reach_chanInv rch _) h (by
    intro b hb hcb
    subst hb
    exact absurd hcb (w.apart _ hr b (sender_lt (reach_numbering rch) h)))
  rw [transit_server sock hw]
  obtain ⟨pc, hp, e⟩ := cur.new_cursor ha h hn hc
  rw [e]
  refine ⟨.new hp hlow, ?_, ?_⟩
  · intro hcount
    cases pc <;> simp [Pc.counting] at hcount <;> simp [Pc.spawned] at hp
  · simpa [Attachment.position] using flow.mono h.appended_grows

lemma server (cur : Current S) (curs : Cursors S) (sock : Socket S) (w : Wiring S)
    (rch : (Session.server n).Reach S.server) (ha : S.allows a = true) (h : Step n S.server a s') :
    Current { S with server := s', opens := S.opensAfter a, up := S.upAfter a } := by
  have both : ∀ b, b < s'.natts → (s'.atts b).conn = S.client.conn →
      Replays s' (s'.atts b) ∧ Tallied s' (s'.atts b) ∧
        Flow s'.appended S.client.lastSeq (s'.atts b).position
          (transit { S with server := s', opens := S.opensAfter a, up := S.upAfter a })
          (s'.conns S.client.conn).chans := by
    intro b hb hc
    by_cases hb' : b < S.server.natts
    · exact cur.old curs sock w rch ha h hb' ((h.att_conn hb').symm.trans hc)
    · have hn : s'.natts ≠ S.server.natts := by omega
      obtain rfl : b = S.server.natts := by
        obtain e | ⟨e, -⟩ := h.natts_cases <;> omega
      exact cur.new curs sock w rch ha h hn hc
  constructor
  · exact fun r hr => cur.request r (Wiring.opensAfter_subset hr)
  · intro none
    have none' : ∀ b, b < S.server.natts → (S.server.atts b).conn ≠ S.client.conn := by
      intro b hb e
      exact none b (Nat.lt_of_lt_of_le hb h.natts_le) ((h.att_conn hb).trans e)
    obtain ⟨ws, hw, flow⟩ := (cur.idle none').chan (reach_chanInv rch _) h (by
      intro b hb hcb
      subst hb
      exact absurd hcb (none' b (sender_lt (reach_numbering rch) h)))
    rw [transit_server sock hw]
    exact flow.mono h.appended_grows
  · exact fun b hb hc => (both b hb hc).1
  · exact fun b hb hc => (both b hb hc).2.1
  · exact fun b hb hc => (both b hb hc).2.2

lemma client (cur : Current S) {x : Client μ} {up}
    (e : (x.conn, x.lastSeq) = (S.client.conn, S.client.lastSeq))
    (hflow : ∀ q y, Flow S.server.appended S.client.lastSeq q (transit S) y →
      Flow S.server.appended S.client.lastSeq q (transit { S with client := x, up := up }) y) :
    Current { S with client := x, up := up } := by
  simp only [Prod.mk.injEq] at e
  obtain ⟨e1, e2⟩ := e
  constructor
  · simpa only [e1, e2] using cur.request
  · simp only [e1, e2]
    exact fun none => hflow _ _ (cur.idle none)
  · simpa only [e1] using cur.replays
  · simpa only [e1] using cur.tallied
  · simp only [e1, e2]
    exact fun b hb hc => hflow _ _ (cur.flow b hb hc)

/-- A frame that arrives stays in transit, unless it answers a request. -/
lemma transit_receive {f fs} (h : S.unread = f :: fs) :
    transit { S with client := S.client.receive f } = transit S := by
  have hdrop : (S.server.conns S.client.conn).wire.drop (S.client.taken + 1) = fs := by
    rw [← List.drop_drop, show List.drop _ _ = f :: fs from h]
    rfl
  rw [transit, transit, h]
  simp only [Client.receive]
  split
  case isTrue hf => simp [System.unread, hdrop, hf]
  case isFalse hf =>
    split <;> simp [System.unread, hdrop, hf]

lemma deliver (cur : Current S) (w : Wiring S)
    (started : ∃ b, b < S.server.natts ∧ (S.server.atts b).conn = S.client.conn) {env fs}
    (hq : S.client.inbox = .batch env :: fs) {x : Client μ} {up}
    (e : (x.conn, x.taken, x.inbox, x.lastSeq) =
      (S.client.conn, S.client.taken, fs, S.client.lastSeq + 1)) :
    Current { S with client := x, up := up } := by
  simp only [Prod.mk.injEq] at e
  obtain ⟨e1, e2, e3, e4⟩ := e
  obtain ⟨b, hb, hc⟩ := started
  have ht : transit S = .batch env :: transit { S with client := x, up := up } := by
    simp [transit, System.unread, hq, e1, e2, e3]
  constructor
  · intro r hr
    rw [e1] at hr
    exact absurd hc (w.apart _ hr b hb)
  · intro none
    exact absurd (hc.trans e1.symm) (none b hb)
  · simpa only [e1] using cur.replays
  · simpa only [e1] using cur.tallied
  · intro d hd hcd
    have hcd' : (S.server.atts d).conn = S.client.conn := hcd.trans e1
    have flow := cur.flow d hd hcd'
    rw [ht] at flow
    simpa only [e1, e4] using flow.tail

lemma transit_retry (w : Wiring S) {nconns opens} :
    transit { S with client := S.client.reconnect S.nconns, nconns := nconns, opens := opens } = [] := by
  have hwire : (S.server.conns S.nconns).wire = [] :=
    (List.append_eq_nil_iff.mp (w.quiet S.nconns (Nat.le_refl _)).1).2
  simp [transit, System.unread, Client.reconnect, hwire]

lemma retry (w : Wiring S) (curs : Cursors S) :
    Current { S with
      client := S.client.reconnect S.nconns
      nconns := S.nconns + 1
      opens := S.opens ++ [(S.nconns, some S.client.lastSeq)] } := by
  have absent : ∀ b, b < S.server.natts → (S.server.atts b).conn ≠ S.nconns :=
    fun b hb => Nat.ne_of_lt (w.atts b hb)
  constructor
  · intro r hr
    obtain hr | hr := List.mem_append.mp hr
    · exact absurd (w.opens _ hr) (Nat.lt_irrefl _)
    · cases List.mem_singleton.mp hr
      rfl
  · intro _
    rw [transit_retry w]
    exact Flow.nil curs.le (w.quiet S.nconns (Nat.le_refl _)).2
  · exact fun b hb hc => absurd hc (absent b hb)
  · exact fun b hb hc => absurd hc (absent b hb)
  · exact fun b hb hc => absurd hc (absent b hb)

end Current
end PjCloud.Download
