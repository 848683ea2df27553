import PjCloud.Session.Counters
import PjCloud.Download.Inversion

/-!
# Connections of a download

The client opens its connections one after the other and sends one open request on each. So a
connection has at most one attachment, and none while its request is pending; what the client has read
is a first piece of what has been written to its current connection.
-/

namespace PjCloud.Download
open PjCloud.Lib PjCloud.Session
variable {μ : Type}

/-- One open request and one attachment for each connection. -/
structure Wiring (S : System μ) : Prop where
  current : S.client.conn < S.nconns
  opener : S.server.opener < S.nconns
  opens : ∀ p ∈ S.opens, p.1 < S.nconns
  nodup : (S.opens.map Prod.fst).Nodup
  atts : ∀ a, a < S.server.natts → (S.server.atts a).conn < S.nconns
  apart : ∀ p ∈ S.opens, ∀ a, a < S.server.natts → (S.server.atts a).conn ≠ p.1
  single : ∀ a b, a < S.server.natts → b < S.server.natts →
    (S.server.atts a).conn = (S.server.atts b).conn → a = b
  quiet : ∀ c, S.nconns ≤ c → (S.server.conns c).chans.posted = [] ∧ (S.server.conns c).bulkCh = []

namespace Wiring
variable {n k : Nat} {S S' : System μ} {a : Action} {s' : State μ}

lemma opensAfter_subset : S.opensAfter a ⊆ S.opens := by
  intro p hp
  cases a with
  | openFresh c k => exact List.mem_of_mem_erase hp
  | openResume c m => exact List.mem_of_mem_erase hp
  | _ => exact hp

lemma nodup_after (w : Wiring S) : ((S.opensAfter a).map Prod.fst).Nodup := by
  cases a with
  | openFresh c k => exact w.nodup.sublist (List.erase_sublist.map _)
  | openResume c m => exact w.nodup.sublist (List.erase_sublist.map _)
  | _ => exact w.nodup

lemma new_att (w : Wiring S) (ha : S.allows a = true) (h : Step n S.server a s')
    (hn : s'.natts ≠ S.server.natts) :
    ∃ r, ((s'.atts S.server.natts).conn, r) ∈ S.opens ∧
      ∀ p ∈ S.opensAfter a, (s'.atts S.server.natts).conn ≠ p.1 := by
  have fresh : ∀ q ∈ S.opens, ∀ p ∈ S.opens.erase q, q.1 ≠ p.1 := by
    intro q hq p hp e
    have := w.nodup
    rw [(List.perm_cons_erase hq).map Prod.fst |>.nodup_iff, List.map_cons, List.nodup_cons] at this
    exact this.1 (List.mem_map.mpr ⟨p, hp, e.symm⟩)
  obtain e | ⟨-, ⟨c, j, rfl, e⟩ | ⟨c, m, rfl, -, e⟩⟩ := h.natts_cases
  · exact absurd e hn
  · have hc : (c, none) ∈ S.opens := by simpa [System.allows] using ha
    rw [e]
    exact ⟨none, hc, fresh _ hc⟩
  · have hc : (c, some m) ∈ S.opens := by simpa [System.allows] using ha
    rw [e]
    exact ⟨some m, hc, fresh _ hc⟩

lemma posted_lt (w : Wiring S) (num : Numbering S.server) (ha : S.allows a = true) {c f}
    (h : Posted S.server c a f) : c < S.nconns := by
  cases h with
  | refuseFresh => exact w.opens (c, none) (by simpa [System.allows] using ha)
  | refuseResume => exact w.opens (c, some _) (by simpa [System.allows] using ha)
  | refuse e hp => exact e ▸ w.atts _ (num.lt (by simp [hp]))
  | reply e hp => exact e ▸ w.atts _ (num.lt (by obtain hp | hp := hp <;> simp [hp]))
  | progress e hp => exact e ▸ w.atts _ (num.lt (by simp [hp]))
  | terminal hq =>
    cases hq with
    | cancelled => simpa [System.allows] using ha
    | complete hp => exact w.atts _ (num.lt (by simp [hp]))
    | error => exact w.opener
    | eosError => exact w.opener

lemma quiet_step (w : Wiring S) (num : Numbering S.server) (ha : S.allows a = true)
    (h : Step n S.server a s') {c} (hc : S.nconns ≤ c) :
    (s'.conns c).chans.posted = [] ∧ (s'.conns c).bulkCh = [] := by
  obtain ⟨hp, hb⟩ := w.quiet c hc
  obtain e | m := h.chan_cases c
  · rw [e]
    exact ⟨hp, (congrArg Chans.bulkCh e).trans hb⟩
  have hprio : (S.server.conns c).priorityCh = [] := (List.append_eq_nil_iff.mp hp).1
  generalize (s'.conns c).chans = x at m
  cases m with
  | post hf => exact absurd (w.posted_lt num ha hf) (Nat.not_lt.mpr hc)
  | @push b _ e hr =>
    have := w.atts b (num.lt (by obtain hr | hr := hr <;> simp [hr]))
    omega
  | writePriority _ hq => simp [hprio] at hq
  | writeBulk _ hq => simp [hb] at hq
  | losePriority hq => simp [hprio] at hq
  | loseBulk hq => simp [hb] at hq

lemma opener_lt (w : Wiring S) (ha : S.allows a = true) (h : Step n S.server a s') :
    s'.opener < S.nconns := by
  cases h
  case openFresh c _ _ _ => exact w.opens (c, none) (by simpa [System.allows] using ha)
  all_goals exact w.opener

lemma server (w : Wiring S) (num : Numbering S.server) (ha : S.allows a = true)
    (h : Step n S.server a s') :
    Wiring { S with server := s', opens := S.opensAfter a, up := S.upAfter a } := by
  -- an attachment is an old one, or the new one
  have split : ∀ b, b < s'.natts → b < S.server.natts ∨
      b = S.server.natts ∧ s'.natts ≠ S.server.natts := by
    intro b hb
    obtain e | ⟨e, -⟩ := h.natts_cases <;> omega
  constructor
  · exact w.current
  · exact w.opener_lt ha h
  · exact fun p hp => w.opens p (opensAfter_subset hp)
  · exact w.nodup_after
  · intro b hb
    obtain hb | ⟨rfl, hn⟩ := split b hb
    · exact h.att_conn hb ▸ w.atts b hb
    · obtain ⟨r, hr, -⟩ := w.new_att ha h hn
      exact w.opens _ hr
  · intro p hp b hb
    obtain hb | ⟨rfl, hn⟩ := split b hb
    · exact h.att_conn hb ▸ w.apart p (opensAfter_subset hp) b hb
    · obtain ⟨r, -, hne⟩ := w.new_att ha h hn
      exact hne p hp
  · intro b d hb hd e
    obtain hb | ⟨rfl, hn⟩ := split b hb <;> obtain hd | ⟨rfl, hn'⟩ := split d hd
    · exact w.single b d hb hd (by rwa [h.att_conn hb, h.att_conn hd] at e)
    · obtain ⟨r, hr, -⟩ := w.new_att ha h hn'
      exact absurd ((h.att_conn hb).symm.trans e) (w.apart _ hr b hb)
    · obtain ⟨r, hr, -⟩ := w.new_att ha h hn
      exact absurd ((h.att_conn hd).symm.trans e.symm) (w.apart _ hr d hd)
    · rfl
  · exact fun c hc => w.quiet_step num ha h hc

lemma client (w : Wiring S) {x : Client μ} (hx : x.conn = S.client.conn) {up} :
    Wiring { S with client := x, up := up } :=
  ⟨hx ▸ w.current, w.opener, w.opens, w.nodup, w.atts, w.apart, w.single, w.quiet⟩

lemma retry (w : Wiring S) :
    Wiring { S with
      client := S.client.reconnect S.nconns
      nconns := S.nconns + 1
      opens := S.opens ++ [(S.nconns, some S.client.lastSeq)] } := by
  constructor
  · exact Nat.lt_succ_self _
  · exact Nat.lt_succ_of_lt w.opener
  · intro p hp
    obtain hp | hp := List.mem_append.mp hp
    · exact Nat.lt_succ_of_lt (w.opens p hp)
    · cases List.mem_singleton.mp hp
      exact Nat.lt_succ_self _
  · simp only [List.map_append, List.map_cons, List.map_nil]
    refine List.nodup_append.mpr ⟨w.nodup, by simp, ?_⟩
    intro c hc c' hc'
    cases List.mem_singleton.mp hc'
    obtain ⟨p, hp, rfl⟩ := List.mem_map.mp hc
    exact Nat.ne_of_lt (w.opens p hp)
  · exact fun b hb => Nat.lt_succ_of_lt (w.atts b hb)
  · intro p hp b hb
    obtain hp | hp := List.mem_append.mp hp
    · exact w.apart p hp b hb
    · cases List.mem_singleton.mp hp
      exact Nat.ne_of_lt (w.atts b hb)
  · exact w.single
  · exact fun c hc => w.quiet c (Nat.le_of_succ_le hc)

lemma receive_core {x : Client μ} {f} :
    (x.receive f).conn = x.conn ∧ (x.receive f).phase = x.phase ∧
      (x.receive f).lastSeq = x.lastSeq ∧ (x.receive f).delivered = x.delivered ∧
      (x.receive f).batchesSinceAck = x.batchesSinceAck ∧
      (x.receive f).eosTotals = x.eosTotals := by
  rw [Client.receive]
  split
  · exact ⟨rfl, rfl, rfl, rfl, rfl, rfl⟩
  · split <;> exact ⟨rfl, rfl, rfl, rfl, rfl, rfl⟩

lemma step {a : Act} (w : Wiring S) (num : Numbering S.server) (h : Move n k S a S') : Wiring S' := by
  cases h with
  | server ha h => exact w.server num ha h
  | retry => exact w.retry
  | receive => exact w.client receive_core.1
  | _ => exact w.client (by rfl)

end Wiring

lemma reach_wiring {n k : Nat} {opts : RetainOpts} {plan : List (Batch μ)} {S : System μ}
    (rch : (download n k opts plan).Reach S) : Wiring S := by
  refine download_invariant Wiring ?_ ?_ rch
  · constructor
    · exact Nat.one_pos
    · exact Nat.one_pos
    · intro p hp
      cases List.mem_singleton.mp hp
      exact Nat.one_pos
    · simp [System.start]
    · exact (by intro b hb; cases hb)
    · exact (by intro p hp b hb; cases hb)
    · exact (by intro b d hb; cases hb)
    · exact fun c hc => ⟨rfl, rfl⟩
  · exact fun S a S' rch h w => w.step (reach_numbering (reach_server rch)) h

end PjCloud.Download
