import PjCloud.Pull.Publication

/-!
# How a pull ends

The end of `FetchWorker::pull` and of `pullTopicsAsync`: the terminal of a pull, and what is known of it when it has
come to its end. Up to there every message that was delivered went through the driver.
-/

namespace PjCloud.Pull
open Lib

namespace Fetch

/-- `PullResult::terminal`. A cancel comes before the ceilings, and they come before every other cause. -/
def terminal (s : Fetch) : Terminal :=
  match s.left with
  | some terminal => terminal
  | none =>
    if s.snapshot = some true ∨ (s.eos = .cancelled ∧ s.bytesOver = false ∧ s.durationOver = false) then .cancelled
    else if s.bytesOver then .failed
    else if s.durationOver then .failed
    else if s.eos = .complete then .complete
    else .failed

/-- `PullResult::any_decodable` -/
def anyDecodable (s : Fetch) : Bool :=
  s.driver.hasDecodable && (decide (0 < s.driver.decodedRows) || decide (s.received = 0))

end Fetch

def Pc.inHand : Pc → List Message
  | .decoding m => [m]
  | pc => pc.pending

def Pc.handling : Pc → Nat
  | .ticking => 1
  | pc => pc.inHand.length

def Pc.unended : Pc → Bool
  | .ended => false
  | pc => pc.unsampled

def Pc.undated : Pc → Bool
  | .begun | .opened | .ready | .shutting .ready | .joining .ready => true
  | _ => false

def Pc.unannounced : Pc → Bool
  | .created => true
  | pc => pc.undated

def Pc.unjudged : Pc → Bool
  | .snapped => true
  | pc => pc.unsampled

/-- What is known of a pull that did not return early. -/
structure Fetch.Onward (r : Request) (s : Fetch) : Prop where
  accounts : s.eos ≠ .cancelled → ∃ seen, s.driver.Accounts seen ∧ seen ++ s.pc.inHand = s.delivered
  received : s.eos ≠ .cancelled → s.received + s.pc.handling = s.delivered.length
  dated : s.pc.undated = false → s.dataset.isSome = true
  announced : s.pc.unannounced = false → s.announced = if r.announces then s.dataset else none
  sampled : s.pc.unsampled = false → s.snapshot.isSome = true
  bytes : s.pc.unjudged = false → r.bytesExceeded s.wire = true → s.bytesOver = true
  duration : s.pc.unjudged = false → r.durationReached s.elapsed = true → s.durationOver = true

structure Course (r : Request) (s : Fetch) : Prop where
  unended : s.pc.unended = true → s.eos = .unset
  unbound : s.pc.unannounced = true → s.driver = {} ∧ s.delivered = []
  quiet : s.pc.unannounced = true → s.announced = none
  bare : s.pc = .announced → s.driver = {} ∧ s.delivered = []
  cut : s.left ≠ some .complete
  onward : s.left = none → s.Onward r
  renamed : s.pc = .renamed → s.published ≠ none
  finalized : s.teeOutcome = .finalized → s.published ≠ none

section
variable {r : Request} {s s' : Fetch} {e : Event}

lemma unended_act (course : Course r s) (act : Act r s e s') : s'.pc.unended = true → s'.eos = .unset := by
  have before := course.unended
  cases act with
  | @shutNone after | @shut _ after | @join _ after => cases after <;> simp_all [Pc.unended, Pc.unsampled, After.pc]
  | _ => simp_all [Pc.unended, Pc.unsampled]

lemma unbound_act (course : Course r s) (act : Act r s e s') :
    s'.pc.unannounced = true → s'.driver = {} ∧ s'.delivered = [] := by
  have before := course.unbound
  cases act with
  | @shutNone after | @shut _ after | @join _ after => cases after <;> simp_all [Pc.unannounced, Pc.undated, After.pc]
  | _ => simp_all [Pc.unannounced, Pc.undated]

lemma quiet_act (course : Course r s) (act : Act r s e s') : s'.pc.unannounced = true → s'.announced = none := by
  have before := course.quiet
  cases act with
  | @shutNone after | @shut _ after | @join _ after => cases after <;> simp_all [Pc.unannounced, Pc.undated, After.pc]
  | _ => simp_all [Pc.unannounced, Pc.undated]

lemma bare_act (course : Course r s) (act : Act r s e s') : s'.pc = .announced → s'.driver = {} ∧ s'.delivered = [] := by
  have before := course.bare
  cases act with
  | announce pc => exact fun _ => course.unbound (pc ▸ rfl)
  | @shutNone after | @join _ after => cases after <;> simp_all [After.pc]
  | _ => simp_all

lemma cut_act (course : Course r s) (act : Act r s e s') : s'.left ≠ some .complete := by
  have before := course.cut
  cases act <;> simp_all

lemma published_of_renamed_act (course : Course r s) (act : Act r s e s') : s'.pc = .renamed → s'.published ≠ none := by
  have before := course.renamed
  cases act with
  | @shutNone after | @join _ after => cases after <;> simp_all [After.pc]
  | _ => simp_all

lemma published_of_finalized_act (course : Course r s) (act : Act r s e s') :
    s'.teeOutcome = .finalized → s'.published ≠ none := by
  have before := course.finalized
  cases act with
  | handOff pc => exact fun _ => course.renamed pc
  | _ => simp_all

lemma accounts_act (course : Course r s) (act : Act r s e s') (left : s'.left = none) :
    s'.eos ≠ .cancelled → ∃ seen, s'.driver.Accounts seen ∧ seen ++ s'.pc.inHand = s'.delivered := by
  have before (old : s.left = none) := (course.onward old).accounts
  intro whole
  cases act with
  | bind pc =>
    obtain ⟨-, none⟩ := course.bare pc
    exact ⟨[], Driver.accounts_bindSession _ _, none.symm⟩
  | @deliver m pc =>
    obtain ⟨seen, accounts, same⟩ := before left whole
    rw [pc] at same
    refine ⟨seen, accounts, ?_⟩
    change seen ++ [m] = s.delivered ++ [m]
    rw [← same, show Pc.streaming.inHand = [] from rfl, List.append_nil]
  | @decode m binding pushed pc =>
    obtain ⟨seen, accounts, same⟩ := before left whole
    rw [pc] at same
    refine ⟨seen ++ [m], accounts.decode m binding pushed, ?_⟩
    change (seen ++ [m]) ++ [] = s.delivered
    rw [List.append_nil]
    exact same
  | finish pc =>
    obtain ⟨seen, accounts, same⟩ := before left (by rw [course.unended (pc ▸ rfl)]; nofun)
    rw [pc] at same
    exact ⟨seen, accounts, same⟩
  | @shutNone after | @shut _ after | @join _ after => cases after <;> simp_all [Pc.inHand, Pc.pending, After.pc]
  | _ => simp_all [Pc.inHand, Pc.pending]

lemma received_act (course : Course r s) (act : Act r s e s') (left : s'.left = none) :
    s'.eos ≠ .cancelled → s'.received + s'.pc.handling = s'.delivered.length := by
  have before (old : s.left = none) := (course.onward old).received
  intro whole
  cases act with
  | finish pc =>
    have same := before left (by rw [course.unended (pc ▸ rfl)]; nofun)
    rw [pc] at same
    exact same
  | @shutNone after | @shut _ after | @join _ after =>
    cases after <;> simp_all [Pc.handling, Pc.inHand, Pc.pending, After.pc]
  | _ => simp_all [Pc.handling, Pc.inHand, Pc.pending]

lemma dated_act (course : Course r s) (act : Act r s e s') (left : s'.left = none) :
    s'.pc.undated = false → s'.dataset.isSome = true := by
  have before (old : s.left = none) := (course.onward old).dated
  cases act with
  | @shutNone after | @shut _ after | @join _ after => cases after <;> simp_all [Pc.undated, After.pc]
  | _ => simp_all [Pc.undated]

lemma announced_act (course : Course r s) (act : Act r s e s') (left : s'.left = none) :
    s'.pc.unannounced = false → s'.announced = if r.announces then s'.dataset else none := by
  have before (old : s.left = none) := (course.onward old).announced
  cases act with
  | @shutNone after | @shut _ after | @join _ after => cases after <;> simp_all [Pc.unannounced, Pc.undated, After.pc]
  | _ => simp_all [Pc.unannounced, Pc.undated]

lemma sampled_act (course : Course r s) (act : Act r s e s') (left : s'.left = none) :
    s'.pc.unsampled = false → s'.snapshot.isSome = true := by
  have before (old : s.left = none) := (course.onward old).sampled
  cases act with
  | @shutNone after | @shut _ after | @join _ after => cases after <;> simp_all [Pc.unsampled, After.pc]
  | _ => simp_all [Pc.unsampled]

lemma bytes_act (course : Course r s) (act : Act r s e s') (left : s'.left = none) :
    s'.pc.unjudged = false → r.bytesExceeded s'.wire = true → s'.bytesOver = true := by
  have before (old : s.left = none) := (course.onward old).bytes
  cases act with
  | @shutNone after | @shut _ after | @join _ after => cases after <;> simp_all [Pc.unjudged, Pc.unsampled, After.pc]
  | _ => simp_all [Pc.unjudged, Pc.unsampled]

lemma duration_act (course : Course r s) (act : Act r s e s') (left : s'.left = none) :
    s'.pc.unjudged = false → r.durationReached s'.elapsed = true → s'.durationOver = true := by
  have before (old : s.left = none) := (course.onward old).duration
  cases act with
  | @shutNone after | @shut _ after | @join _ after => cases after <;> simp_all [Pc.unjudged, Pc.unsampled, After.pc]
  | _ => simp_all [Pc.unjudged, Pc.unsampled]

lemma course_act (course : Course r s) (act : Act r s e s') : Course r s' where
  unended := unended_act course act
  unbound := unbound_act course act
  quiet := quiet_act course act
  bare := bare_act course act
  cut := cut_act course act
  onward left :=
    { accounts := accounts_act course act left
      received := received_act course act left
      dated := dated_act course act left
      announced := announced_act course act left
      sampled := sampled_act course act left
      bytes := bytes_act course act left
      duration := duration_act course act left }
  renamed := published_of_renamed_act course act
  finalized := published_of_finalized_act course act

lemma course_start (start : starts s) : Course r s := by
  obtain ⟨cancelFlag, rfl | rfl | rfl⟩ := start
  all_goals
    refine ⟨fun _ => rfl, fun _ => ⟨rfl, rfl⟩, fun _ => rfl, nofun, nofun, fun _ => ?_, nofun, nofun⟩
    exact ⟨fun _ => ⟨[], ⟨List.nodup_nil, nofun, nofun⟩, rfl⟩, fun _ => rfl, nofun, nofun, nofun, nofun, nofun⟩

lemma course_of_reach (reach : (pulls r).Reach s) : Course r s := by
  refine reach.invariant_next ?_ ?_
  · exact fun _ start => course_start start
  · exact fun _ _ _ _ course step => course_act course (act_of_next step)

end

/-! ## A complete pull -/

lemma Fetch.of_terminal {s : Fetch} (cut : s.left ≠ some .complete) (terminal : s.terminal = .complete) :
    s.left = none ∧ s.eos = .complete ∧ s.snapshot ≠ some true ∧ s.bytesOver = false ∧ s.durationOver = false := by
  unfold Fetch.terminal at terminal
  split at terminal
  · rename_i left
    exact absurd (terminal ▸ left) cut
  · rename_i left
    split at terminal
    · cases terminal
    · rename_i going
      split at terminal
      · cases terminal
      · rename_i bytes
        split at terminal
        · cases terminal
        · rename_i duration
          split at terminal
          · rename_i eos
            exact ⟨left, eos, fun snapshot => going (.inl snapshot), Bool.not_eq_true _ ▸ bytes,
              Bool.not_eq_true _ ▸ duration⟩
          · cases terminal

end PjCloud.Pull
