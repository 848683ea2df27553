import PjCloud.Session.Inversion
import PjCloud.Download.System

/-!
# Inversion of download steps

`Move n k S a S'` lists what an action can do to the server, the client and the messages between them,
one constructor for each branch of the client; the server's own branches are those of `Session.Step`.
Every state of a download has a state of the server machine in it (`reach_server`), so that what holds
in every run of the server holds in every download.
-/

namespace PjCloud.Download
open PjCloud.Lib PjCloud.Session
variable {μ : Type}

/-- Everything an action can do. -/
inductive Move (n k : Nat) (S : System μ) : Act → System μ → Prop where
  | server {a s'} : S.allows a = true → Step n S.server a s' →
    Move n k S (.server a) { S with server := s', opens := S.opensAfter a, up := S.upAfter a }
  | cancelMissing {c ms} : S.up c = .cancel :: ms →
    Move n k S (.cancelMissing c) { S with up := Function.update S.up c ms }
  | receive {f fs} : S.client.phase.armed = true → S.unread = f :: fs →
    Move n k S (.client .receive) { S with client := S.client.receive f }
  | opened : S.client.phase.waiting = true → S.client.response = some .openSession →
    Move n k S (.client .opened) { S with client := S.client.opened }
  | openRefused : S.client.phase.waiting = true →
    Move n k S (.client .openFailed) { S with client := S.client.finish .error }
  | openRetried : S.client.phase = .resuming →
    Move n k S (.client .openFailed)
      { S with client := { S.client with phase := .backoff, inbox := [] } }
  | outOfOrder {t env fs} : S.client.phase = .streaming → S.client.inbox = .batch env :: fs →
    env.seq ≠ S.client.lastSeq + 1 →
    Move n k S (.client (.frame t))
      { S with client := S.client.finish .error, up := S.send [.cancel] }
  | batchAcked {t env fs} : S.client.phase = .streaming → S.client.inbox = .batch env :: fs →
    env.seq = S.client.lastSeq + 1 →
    (kAckEveryBatches ≤ S.client.batchesSinceAck + 1 ∨ t = true) →
    Move n k S (.client (.frame t))
      { S with
        client := { { S.client with inbox := fs }.deliver env with batchesSinceAck := 0 }
        up := S.send [.ack env.seq] }
  | batch {t env fs} : S.client.phase = .streaming → S.client.inbox = .batch env :: fs →
    env.seq = S.client.lastSeq + 1 → S.client.batchesSinceAck + 1 < kAckEveryBatches →
    Move n k S (.client (.frame t)) { S with client := { S.client with inbox := fs }.deliver env }
  | eos {t r x y fs} : S.client.phase = .streaming → S.client.inbox = .eos r x y :: fs →
    Move n k S (.client (.frame t))
      { S with
        client := { S.client with eosTotals := (x, y) }.finish (sessionEos r)
        up := S.send [.ack S.client.lastSeq] }
  | error {t code message fs} : S.client.phase = .streaming →
    S.client.inbox = .error code message :: fs →
    Move n k S (.client (.frame t)) { S with client := S.client.finish .error }
  | skip {t f fs} : S.client.phase = .streaming → S.client.inbox = f :: fs →
    f.batch? = none → f.terminal = false →
    Move n k S (.client (.frame t)) { S with client := { S.client with inbox := fs } }
  | abort {i env fs} : S.client.phase = .streaming → S.client.inbox = .batch env :: fs →
    env.seq = S.client.lastSeq + 1 →
    Move n k S (.client (.abort i)) { S with client := S.client.abort env i, up := S.send [.cancel] }
  | requestCancel :
    Move n k S (.client .requestCancel) { S with client := { S.client with cancelRequested := true } }
  | sendCancel : S.client.phase = .streaming →
    Move n k S (.client .sendCancel)
      { S with client := { S.client with cancelSent := true }, up := S.send [.cancel] }
  | stop {act} : (act = .cancelled ∨ act = .deadline) →
    Move n k S (.client act) { S with client := S.client.finish .cancelled }
  | stopCancel {act} : (act = .cancelled ∨ act = .deadline) →
    Move n k S (.client act) { S with client := S.client.finish .cancelled, up := S.send [.cancel] }
  | drop : S.client.phase = .streaming →
    Move n k S (.client .drop) { S with client := { S.client with phase := .backoff } }
  | retryFailed : S.client.phase = .backoff →
    Move n k S (.client (.retry false))
      { S with client := { S.client with attemptsUsed := S.client.attemptsUsed + 1 } }
  | retry : S.client.phase = .backoff → S.client.attemptsUsed < k →
    Move n k S (.client (.retry true))
      { S with
        client := S.client.reconnect S.nconns
        nconns := S.nconns + 1
        opens := S.opens ++ [(S.nconns, some S.client.lastSeq)] }
  | exhausted : S.client.phase = .backoff →
    Move n k S (.client .exhausted) { S with client := S.client.finish .unset }

namespace Move
variable {n k : Nat} {S : System μ}

lemma of_frame {t f fs} (hp : S.client.phase = .streaming) (hq : S.client.inbox = f :: fs) :
    Move n k S (.client (.frame t))
      { S with
        client := ({ S.client with inbox := fs }.frame t f).1
        up := S.send ({ S.client with inbox := fs }.frame t f).2 } := by
  have quiet : S.send [] = S.up := by simp [System.send]
  cases f with
  | batch env =>
    simp only [Client.frame]
    split
    case isTrue hs => exact .outOfOrder hp hq hs
    case isFalse hs =>
      have hs := Decidable.not_not.mp hs
      split
      case isTrue ha => exact .batchAcked hp hq hs (by simpa using ha)
      case isFalse ha =>
        simp only [Bool.or_eq_true, decide_eq_true_eq, not_or, Nat.not_le] at ha
        simpa only [quiet] using Move.batch (t := t) hp hq hs ha.1
  | eos r x y => exact .eos hp hq
  | error code message => simpa only [Client.frame, Client.finish, quiet] using Move.error hp hq
  | _ => simpa only [Client.frame, quiet] using Move.skip (t := t) hp hq rfl rfl

lemma of_clientGuard {act} (h : S.clientGuard k act = true) :
    Move n k S (.client act) (S.clientExec act) := by
  cases act with
  | receive =>
    simp only [System.clientGuard, Bool.and_eq_true] at h
    cases hu : S.unread with
    | nil => simp [hu] at h
    | cons f fs => simpa [System.clientExec, hu] using Move.receive h.1 hu
  | opened =>
    simp only [System.clientGuard, Bool.and_eq_true] at h
    obtain ⟨hp, hr⟩ := h
    split at hr
    case h_1 e => exact .opened hp e
    case h_2 => cases hr
  | openFailed =>
    simp only [System.clientGuard, Bool.and_eq_true] at h
    simp only [System.clientExec, Client.openFailed]
    split
    case isTrue hp => exact .openRetried hp.1
    case isFalse => exact .openRefused h.1
  | frame t =>
    simp only [System.clientGuard, Bool.and_eq_true, decide_eq_true_eq] at h
    cases hq : S.client.inbox with
    | nil => simp [hq] at h
    | cons f fs => simpa [System.clientExec, hq] using of_frame (t := t) h.1 hq
  | abort i =>
    simp only [System.clientGuard, Bool.and_eq_true, decide_eq_true_eq] at h
    obtain ⟨hp, h⟩ := h
    split at h
    case h_1 env fs hq =>
      simp only [Bool.and_eq_true, decide_eq_true_eq] at h
      simpa [System.clientExec, hq] using Move.abort (i := i) hp hq h.1
    case h_2 => cases h
  | requestCancel => exact .requestCancel
  | sendCancel =>
    simp only [System.clientGuard, Bool.and_eq_true, decide_eq_true_eq] at h
    exact .sendCancel h.1.1
  | cancelled =>
    simp only [System.clientExec]
    split
    · exact .stopCancel (.inl rfl)
    · exact .stop (.inl rfl)
  | deadline =>
    simp only [System.clientExec]
    split
    · exact .stopCancel (.inr rfl)
    · exact .stop (.inr rfl)
  | drop =>
    simp only [System.clientGuard, Bool.and_eq_true, decide_eq_true_eq] at h
    exact .drop h.1.1
  | retry connected =>
    simp only [System.clientGuard, Bool.and_eq_true, decide_eq_true_eq] at h
    cases connected with
    | false => exact .retryFailed h.1.1
    | true => exact .retry h.1.1 h.1.2
  | exhausted =>
    simp only [System.clientGuard, Bool.and_eq_true, decide_eq_true_eq] at h
    exact .exhausted h.1

lemma of_guard {a} (h : System.guard n k S a = true) : Move n k S a (System.exec n S a) := by
  cases a with
  | server a =>
    simp only [System.guard, Bool.and_eq_true] at h
    exact .server h.1 (.of_guard h.2)
  | cancelMissing c =>
    simp only [System.guard, Bool.and_eq_true, decide_eq_true_eq] at h
    cases hu : S.up c with
    | nil => simp [hu] at h
    | cons m ms =>
      obtain rfl : m = .cancel := by simpa [hu] using h.1.1
      simpa [System.exec, hu] using Move.cancelMissing hu
  | client act => exact of_clientGuard h

end Move

section Runs
variable {n k : Nat} {opts : RetainOpts} {plan : List (Batch μ)}

lemma download_invariant (Inv : System μ → Prop) (hinit : Inv (.start opts plan))
    (hstep : ∀ S a S', (download n k opts plan).Reach S → Move n k S a S' → Inv S → Inv S')
    {S} (rch : (download n k opts plan).Reach S) : Inv S := by
  refine rch.invariant ?_ ?_
  · rintro S rfl
    exact hinit
  · intro S a rch inv hg
    exact hstep S a _ rch (.of_guard hg) inv

/-- The invariant rule of the downloads whose steps all meet `ok`. -/
lemma download_only_invariant {ok : System μ → Act → Bool} (Inv : System μ → Prop)
    (hinit : Inv (.start opts plan))
    (hstep : ∀ S a S', (download n k opts plan).Reach S → ok S a = true → Move n k S a S' →
      Inv S → Inv S')
    {S} (rch : ((download n k opts plan).only ok).Reach S) : Inv S := by
  refine rch.invariant ?_ ?_
  · rintro S rfl
    exact hinit
  · intro S a rch inv hg
    obtain ⟨hg, hok⟩ := Machine.only_guard.mp hg
    exact hstep S a _ rch.of_only hok (.of_guard hg) inv

lemma reach_server {S : System μ} (rch : (download n k opts plan).Reach S) :
    (server n).Reach S.server := by
  induction rch with
  | init hi =>
    cases hi
    exact .init ⟨opts, plan, rfl⟩
  | @step S a _ hg ih =>
    cases a with
    | server a =>
      simp only [download, System.guard, Bool.and_eq_true] at hg
      exact .step ih hg.2
    | cancelMissing c => exact ih
    | client act =>
      have h : Move n k S (.client act) ((download n k opts plan).exec S (.client act)) :=
        .of_clientGuard hg
      generalize (download n k opts plan).exec S (.client act) = S' at h
      cases h <;> exact ih

lemma replay_download {as} {p : System μ → Bool}
    (e : ((download n k opts plan).replay (.start opts plan) as).any p = true) :
    ∃ S, (download n k opts plan).Reach S ∧ p S = true :=
  Machine.Reach.replay_any (.init rfl) e

/-- A property tested at the end of a replayed download whose steps all meet `ok`. -/
lemma replay_only_download {ok : System μ → Act → Bool} {as} {p : System μ → Bool}
    (e : (((download n k opts plan).only ok).replay (.start opts plan) as).any p = true) :
    ∃ S, ((download n k opts plan).only ok).Reach S ∧ p S = true :=
  Machine.Reach.replay_any (.init rfl) e

end Runs
end PjCloud.Download
