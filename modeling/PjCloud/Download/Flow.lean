import PjCloud.Download.Wiring

/-!
# Batches in flight

Between the last batch a client has processed and the last one its consumer has sent lie the batches in
flight: in the client's inbox, on the socket, and in the bulk channel. `Flow` says that they are that
stretch of the stream, in order. A failed write loses the batches of the bulk channel, and then nothing
more is written.
-/

namespace PjCloud.Download
open PjCloud.Lib PjCloud.Session
variable {μ : Type}

def batches (fs : List (Frame μ)) : List (BatchEnvelope μ) :=
  fs.filterMap Frame.batch?

@[simp] lemma batches_nil : batches ([] : List (Frame μ)) = [] := rfl

@[simp] lemma batches_append {fs gs : List (Frame μ)} :
    batches (fs ++ gs) = batches fs ++ batches gs :=
  List.filterMap_append

@[simp] lemma batches_batch {env} {fs : List (Frame μ)} :
    batches (.batch env :: fs) = env :: batches fs := rfl

lemma batches_cons_of_none {f} {fs : List (Frame μ)} (h : f.batch? = none) :
    batches (f :: fs) = batches fs :=
  List.filterMap_cons_none h

@[simp] lemma batches_filter {fs : List (Frame μ)} : batches (fs.filter isSession) = batches fs := by
  rw [batches, List.filterMap_filter]
  congr 1
  funext f
  cases f <;> rfl

/-- The batches above `r` up to `q` are in flight: in `ts`, or still in the channels. -/
structure Flow (l : List (BatchEnvelope μ)) (r q : Nat) (ts : List (Frame μ)) (x : Chans μ) : Prop where
  le : r ≤ q
  bound : q ≤ l.length
  rest : ∃ rest, batches ts ++ rest = (l.take q).drop r ∧ (x.writing = true → rest = batches x.bulkCh)

namespace Flow
variable {l l' : List (BatchEnvelope μ)} {r q n : Nat} {ts : List (Frame μ)} {x : Chans μ}

lemma nil (h : r ≤ l.length) (hx : x.bulkCh = []) : Flow l r r [] x where
  le := Nat.le_refl r
  bound := h
  rest := ⟨[], by simp, fun _ => by rw [hx]; rfl⟩

lemma mono (flow : Flow l r q ts x) (h : l <+: l') : Flow l' r q ts x := by
  obtain ⟨e, rfl⟩ := h
  refine ⟨flow.le, ?_, ?_⟩
  · have := flow.bound
    simp only [List.length_append]
    omega
  · rw [List.take_append_of_le_length flow.bound]
    exact flow.rest

lemma head {env} (flow : Flow l r q (.batch env :: ts) x) : r < q ∧ l[r]? = some env := by
  obtain ⟨rest, e, -⟩ := flow.rest
  have hget : ((l.take q).drop r)[0]? = some env := by rw [← e]; rfl
  rw [List.getElem?_drop, Nat.add_zero] at hget
  have hlt : r < q := by
    have := (List.getElem?_eq_some_iff.mp hget).1
    simp only [List.length_take] at this
    omega
  exact ⟨hlt, by rwa [List.getElem?_take_of_lt hlt] at hget⟩

lemma tail {env} (flow : Flow l r q (.batch env :: ts) x) : Flow l (r + 1) q ts x := by
  obtain ⟨rest, e, hw⟩ := flow.rest
  refine ⟨flow.head.1, flow.bound, rest, ?_, hw⟩
  rw [← List.drop_drop, ← e]
  rfl

lemma skip {f} (flow : Flow l r q (f :: ts) x) (hf : f.batch? = none) : Flow l r q ts x := by
  obtain ⟨rest, e, hw⟩ := flow.rest
  rw [batches_cons_of_none hf] at e
  exact ⟨flow.le, flow.bound, rest, e, hw⟩

lemma push {env} (flow : Flow l r q ts x) (h : l[q]? = some env) :
    Flow l r (q + 1) ts { x with bulkCh := x.bulkCh ++ [.batch env] } := by
  obtain ⟨rest, e, hw⟩ := flow.rest
  have hlt := (List.getElem?_eq_some_iff.mp h).1
  refine ⟨Nat.le_succ_of_le flow.le, hlt, rest ++ [env], ?_, ?_⟩
  · have hlen : r ≤ (l.take q).length := by
      have := flow.le
      simp only [List.length_take]
      omega
    rw [List.take_add_one, h, Option.toList_some, List.drop_append_of_le_length hlen, ← e,
      List.append_assoc]
  · intro hx
    rw [hw hx, batches_append]
    rfl

variable {s s' : State μ} {a : Action} {c : Nat}

/-- What a step that sends no batch on `c` writes. -/
lemma chan (flow : Flow l r q ts (s.conns c).chans) (inv : ChanInv (s.conns c).chans)
    (h : Step n s a s')
    (hpush : ∀ b, a = .consumer b .send → (s.atts b).conn = c → (s.conns c).done = true) :
    ∃ w, (s'.conns c).wire = (s.conns c).wire ++ w ∧
      Flow l r q (ts ++ w.filter isSession) (s'.conns c).chans := by
  obtain ⟨rest, e, hw⟩ := flow.rest
  obtain same | m := h.chan_cases c
  · refine ⟨[], ?_, ?_⟩
    · rw [List.append_nil]
      exact congrArg Chans.wire same
    · rw [same]
      simpa using flow
  change ∃ w, (s'.conns c).chans.wire = _ ∧ _
  generalize (s'.conns c).chans = x at m
  cases m with
  | post => exact ⟨[], by simp [Conn.chans], flow.le, flow.bound, rest, by simpa using e, hw⟩
  | push hc _ _ hd => simp [hpush _ rfl hc] at hd
  | @writePriority f fs _ hq =>
    have hf : f.batch? = none := inv.priority f (by simp [Conn.chans, hq])
    refine ⟨[f], rfl, flow.le, flow.bound, rest, ?_, hw⟩
    rw [batches_append, batches_filter, batches_cons_of_none hf, batches_nil, List.append_nil, e]
  | @writeBulk f fs hwr hq =>
    have hf := inv.bulk f (by simp [Conn.chans, hq])
    cases f with
    | batch env =>
      refine ⟨[.batch env], rfl, flow.le, flow.bound, batches fs, ?_, fun _ => rfl⟩
      have hr : rest = env :: batches fs := by
        rw [hw hwr]
        simp [Conn.chans, hq]
      rw [← e, hr, batches_append, batches_filter, List.append_assoc]
      rfl
    | _ => cases hf
  | losePriority =>
    exact ⟨[], by simp [Conn.chans], flow.le, flow.bound, rest, by simpa using e, (by intro h; cases h)⟩
  | loseBulk =>
    exact ⟨[], by simp [Conn.chans], flow.le, flow.bound, rest, by simpa using e, (by intro h; cases h)⟩

lemma server {b : Nat} (flow : Flow s.appended r (s.atts b).position ts (s.conns (s.atts b).conn).chans)
    (rep : Replays s (s.atts b)) (inv : StreamInv s) (chan : ChanInv (s.conns (s.atts b).conn).chans)
    (h : Step n s a s') (hb : b < s.natts)
    (single : ∀ d, a = .consumer d .send → (s.atts d).conn = (s.atts b).conn → d = b) :
    ∃ w, (s'.conns (s.atts b).conn).wire = (s.conns (s.atts b).conn).wire ++ w ∧
      Flow s'.appended r (s'.atts b).position (ts ++ w.filter isSession)
        (s'.conns (s.atts b).conn).chans := by
  obtain ⟨e, hd⟩ | ⟨env, rfl, he, hd, hget, e⟩ := rep.position_cases inv h hb
  · rw [e]
    have unsent : ∀ d, a = .consumer d .send → (s.atts d).conn = (s.atts b).conn →
        (s.conns (s.atts b).conn).done = true := by
      intro d ha hc
      obtain rfl := single d ha hc
      exact hd ha
    obtain ⟨w, hw, flow⟩ := flow.chan chan h unsent
    exact ⟨w, hw, flow.mono h.appended_grows⟩
  · rw [e]
    cases h with
    | sendFail _ _ hd' => simp [hd] at hd'
    | send _ he' =>
      cases he.symm.trans he'
      refine ⟨[], by simp [Conn.pushBulk], ?_⟩
      simpa [Conn.pushBulk, Conn.chans] using flow.push hget

end Flow
end PjCloud.Download
