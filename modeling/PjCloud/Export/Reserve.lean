import Mathlib.Logic.Function.Basic
import PjCloud.Lib.Ascii
import PjCloud.Lib.Machine

/-!
# Exports into one directory

`prepareMcapOutputPaths` of `mcap_save_path.cpp` and what `pullTopicsAsync` of `fetch_worker.cpp` does with the paths:
copy into the reserved partial, rename it, discard it or keep it. Any number of workers export with one stem and in one
second, so they go through the same candidates; each step is one call into the file system.

The partial of a worker is its own from the reservation on. The final name is looked at in front of the reservation
only, so a worker that reserves after another has published the candidate will replace that file. And where the writer
cannot be opened the partial is removed twice, the second time whoever has reserved it by then.
-/

namespace PjCloud.Export
open Lib Ascii

/-! ## Names -/

def baseName (key : List Char) : List Char := (key.reverse.takeWhile (· ≠ '/')).reverse

/-- The name up to its last dot, if that is not the first character. -/
def dropExtension (stem : List Char) : List Char :=
  match stem.reverse.dropWhile (· ≠ '.') with
  | _ :: front => if front = [] then stem else front.reverse
  | [] => stem

def portableChar (c : Char) : Char := if c.isAlphanum ∨ c = '-' ∨ c = '_' ∨ c = '.' then c else '_'

def isEdge (c : Char) : Bool := c = '.' ∨ c = '_'

def kMaxStemLength : Nat := 96

def portableStem (sequenceName : List Char) : List Char :=
  let stem := (dropExtension (baseName sequenceName)).map portableChar
  let stem := ((stem.dropWhile isEdge).reverse.dropWhile isEdge).reverse
  if stem = [] then "cloud_download".toList else stem.take kMaxStemLength

/-- The part of the name that all candidates have. -/
def outputStem (sequenceNames : List (List Char)) (utcStamp : List Char) : List Char :=
  portableStem (sequenceNames.headD []) ++
    (if 1 < sequenceNames.length then "_plus_".toList ++ Nat.toDigits 10 (sequenceNames.length - 1) else []) ++
    "_download_".toList ++ (if utcStamp = [] then "unknown_time".toList else utcStamp)

def candidate (stem : List Char) (attempt : Nat) : List Char :=
  stem ++ if attempt = 1 then [] else '_' :: Nat.toDigits 10 attempt

def finalName (stem : List Char) (attempt : Nat) : List Char := candidate stem attempt ++ ".mcap".toList

def partialName (stem : List Char) (attempt : Nat) : List Char := candidate stem attempt ++ ".mcap.partial".toList

def kMaxAttempts : Nat := 10000

section
variable {stem : List Char} {k k' : Nat}

lemma candidate_injective (same : candidate stem k = candidate stem k') : k = k' := by
  have suffixes := List.append_cancel_left same
  split at suffixes <;> split at suffixes
  · omega
  · cases suffixes
  · cases suffixes
  · exact toDigits_injective (List.cons.inj suffixes).2

lemma finalName_injective (same : finalName stem k = finalName stem k') : k = k' :=
  candidate_injective (List.append_cancel_right same)

lemma partialName_injective (same : partialName stem k = partialName stem k') : k = k' :=
  candidate_injective (List.append_cancel_right same)

lemma partialName_ne_finalName : partialName stem k ≠ finalName stem k' := by
  intro same
  have last := congrArg List.getLast? same
  rw [partialName, finalName, List.getLast?_append, List.getLast?_append] at last
  cases last

end

/-! ## Workers -/

/-- Who made a file; `none` is someone before this. -/
abbrev Author := Option Nat

/-- Where an export is. `late` says whether the final name was taken when the partial was reserved. In `dropped` the
writer has removed the partial itself. -/
inductive Pc where
  | idle
  | checking (attempt : Nat)
  | reserving (attempt : Nat)
  | holding (attempt : Nat) (late : Bool)
  | dropped (attempt : Nat)
  deriving DecidableEq, Repr

structure Folder where
  files : List Char → Option Author
  workers : Nat → Pc

inductive Event where
  | start
  | check (error : Bool)
  | reserve (error : Bool)
  | copy
  | openFails
  | rename (ok : Bool)
  | discard
  | retain
  | die
  deriving DecidableEq, Repr

structure Action where
  worker : Nat
  event : Event
  deriving DecidableEq, Repr

namespace Folder

def goto (s : Folder) (i : Nat) (pc : Pc) : Folder := { s with workers := Function.update s.workers i pc }

def put (s : Folder) (name : List Char) (file : Option Author) : Folder :=
  { s with files := Function.update s.files name file }

def advance (s : Folder) (i : Nat) (attempt : Nat) : Folder :=
  s.goto i (if attempt < kMaxAttempts then .checking (attempt + 1) else .idle)

end Folder

/-- A step of a worker. -/
def next (stem : List Char) (s : Folder) (a : Action) : Option Folder :=
  let i := a.worker
  match a.event, s.workers i with
  | .start, .idle => some (s.goto i (.checking 1))
  | .check error, .checking k =>
    if error then some (s.goto i .idle)
    else if (s.files (finalName stem k)).isSome then some (s.advance i k)
    else some (s.goto i (.reserving k))
  | .reserve error, .reserving k =>
    if (s.files (partialName stem k)).isSome then some (s.advance i k)
    else if error then some (s.goto i .idle)
    else some ((s.put (partialName stem k) (some (some i))).goto i
      (.holding k (s.files (finalName stem k)).isSome))
  | .copy, .holding k _ => some (s.put (partialName stem k) (some (some i)))
  | .openFails, .holding k _ => some ((s.put (partialName stem k) none).goto i (.dropped k))
  | .rename ok, .holding k _ =>
    match ok, s.files (partialName stem k) with
    | true, some author => some (((s.put (finalName stem k) (some author)).put (partialName stem k) none).goto i .idle)
    | true, none => none
    | false, _ => some s
  | .discard, .holding k _ => some ((s.put (partialName stem k) none).goto i .idle)
  | .discard, .dropped k => some ((s.put (partialName stem k) none).goto i .idle)
  | .retain, .holding _ _ => some (s.goto i .idle)
  | .die, _ => some (s.goto i .idle)
  | _, _ => none

/-- Workers that start in a directory with any files. -/
def exports (stem : List Char) : Machine Folder Action where
  init s := (∀ i, s.workers i = .idle) ∧ ∀ name author, s.files name = some author → author = none
  guard s a := (next stem s a).isSome
  exec s a := (next stem s a).getD s

/-- What a step does. -/
inductive Act (stem : List Char) (s : Folder) (i : Nat) : Event → Folder → Prop
  | start : s.workers i = .idle → Act stem s i .start (s.goto i (.checking 1))
  | stop {event} : Act stem s i event (s.goto i .idle)
  | taken {k event} : (s.workers i = .checking k ∨ s.workers i = .reserving k) → Act stem s i event (s.advance i k)
  | free {k} : s.workers i = .checking k → s.files (finalName stem k) = none →
      Act stem s i (.check false) (s.goto i (.reserving k))
  | reserved {k} : s.workers i = .reserving k → s.files (partialName stem k) = none →
      Act stem s i (.reserve false) ((s.put (partialName stem k) (some (some i))).goto i
        (.holding k (s.files (finalName stem k)).isSome))
  | copied {k late} : s.workers i = .holding k late →
      Act stem s i .copy (s.put (partialName stem k) (some (some i)))
  | openFailed {k late} : s.workers i = .holding k late →
      Act stem s i .openFails ((s.put (partialName stem k) none).goto i (.dropped k))
  | renamed {k late author} : s.workers i = .holding k late → s.files (partialName stem k) = some author →
      Act stem s i (.rename true)
        (((s.put (finalName stem k) (some author)).put (partialName stem k) none).goto i .idle)
  | notRenamed : Act stem s i (.rename false) s
  | discarded {k late} : s.workers i = .holding k late →
      Act stem s i .discard ((s.put (partialName stem k) none).goto i .idle)
  | discardedAgain {k} : s.workers i = .dropped k →
      Act stem s i .discard ((s.put (partialName stem k) none).goto i .idle)

variable {stem : List Char} {s s' : Folder} {i : Nat} {event : Event}

lemma act_of_next (step : next stem s ⟨i, event⟩ = some s') : Act stem s i event s' := by
  unfold next at step
  dsimp only at step
  split at step
  · rename_i pc
    cases step
    exact .start pc
  · rename_i error k pc
    cases error with
    | true =>
      cases step
      exact .stop
    | false =>
      rw [if_neg (by decide)] at step
      split at step <;> cases step
      · exact .taken (.inl pc)
      · rename_i free
        exact .free pc (by simpa using free)
  · rename_i error k pc
    split at step
    · cases step
      exact .taken (.inr pc)
    · rename_i free
      cases error with
      | true =>
        cases step
        exact .stop
      | false =>
        cases step
        exact .reserved pc (by simpa using free)
  · rename_i pc
    cases step
    exact .copied pc
  · rename_i pc
    cases step
    exact .openFailed pc
  · rename_i ok k late pc
    split at step
    · rename_i there
      cases step
      exact .renamed pc there
    · cases step
    · cases step
      exact .notRenamed
  · rename_i pc
    cases step
    exact .discarded pc
  · rename_i pc
    cases step
    exact .discardedAgain pc
  · cases step
    exact .stop
  · cases step
    exact .stop
  · cases step

/-! ## Reservations -/

/-- A rename that replaces a file. -/
def replaces (stem : List Char) (s : Folder) (a : Action) : Bool :=
  match a.event, s.workers a.worker with
  | .rename true, .holding k _ => (s.files (finalName stem k)).isSome
  | _, _ => false

/-- A write, a rename or a removal of a partial that another made. -/
def touchesOther (stem : List Char) (s : Folder) (a : Action) : Bool :=
  match a.event, s.workers a.worker with
  | .copy, .holding k _ | .openFails, .holding k _ | .rename _, .holding k _ | .discard, .holding k _
  | .discard, .dropped k =>
    match s.files (partialName stem k) with
    | some author => author ≠ some a.worker
    | none => false
  | _, _ => false

/-- A partial that the writer has removed is not removed again from under another worker. -/
def ownDiscard (stem : List Char) (s : Folder) (a : Action) : Bool :=
  match a.event, s.workers a.worker with
  | .discard, .dropped k => (s.files (partialName stem k)).isNone
  | _, _ => true

/-- A worker that reserves a partial does so while the final name is still free. -/
def prompt (stem : List Char) (s : Folder) (a : Action) : Bool :=
  ownDiscard stem s a && match a.event, s.workers a.worker with
    | .reserve _, .reserving k =>
      (s.files (finalName stem k)).isNone || (s.files (partialName stem k)).isSome
    | _, _ => true

/-- The partials of the workers are their own, and the final name is as it was at the reservation. -/
structure Held (stem : List Char) (s : Folder) (i k : Nat) (late : Bool) : Prop where
  own : s.files (partialName stem k) = some (some i)
  final : (s.files (finalName stem k)).isSome = late

def Owned (stem : List Char) (s : Folder) : Prop :=
  ∀ i k late, s.workers i = .holding k late → Held stem s i k late

lemma owned_goto (owned : Owned stem s) {pc : Pc} (out : ∀ k late, pc ≠ .holding k late) : Owned stem (s.goto i pc) := by
  intro j k late holds
  by_cases own : j = i
  · subst own
    have here : (s.goto j pc).workers j = pc := Function.update_self ..
    rw [here] at holds
    exact absurd holds (out k late)
  · have there : (s.goto i pc).workers j = s.workers j := Function.update_of_ne own ..
    rw [there] at holds
    have held := owned j k late holds
    exact ⟨held.own, held.final⟩

lemma owned_partial (owned : Owned stem s) {k : Nat} {file : Option Author} {pc : Pc}
    (free : ∀ j, j ≠ i → s.files (partialName stem k) ≠ some (some j))
    (after : ∀ k' late, pc = .holding k' late →
      k' = k ∧ file = some (some i) ∧ (s.files (finalName stem k)).isSome = late) :
    Owned stem ((s.put (partialName stem k) file).goto i pc) := by
  intro j k' late holds
  have finals : ∀ m, ((s.put (partialName stem k) file).goto i pc).files (finalName stem m) =
      s.files (finalName stem m) := fun m => Function.update_of_ne partialName_ne_finalName.symm ..
  by_cases own : j = i
  · subst own
    have here : ((s.put (partialName stem k) file).goto j pc).workers j = pc := Function.update_self ..
    rw [here] at holds
    obtain ⟨rfl, mine, final⟩ := after k' late holds
    refine ⟨?_, ?_⟩
    · rw [← mine]
      exact Function.update_self ..
    · rw [finals]
      exact final
  · have there : ((s.put (partialName stem k) file).goto i pc).workers j = s.workers j := Function.update_of_ne own ..
    rw [there] at holds
    have held := owned j k' late holds
    have other : partialName stem k' ≠ partialName stem k := by
      intro same
      have mine := held.own
      rw [same] at mine
      exact free j own mine
    refine ⟨?_, ?_⟩
    · rw [← held.own]
      exact Function.update_of_ne other ..
    · rw [finals]
      exact held.final

lemma owned_rename (owned : Owned stem s) {k : Nat} {late : Bool} {author : Author} (holds : s.workers i = .holding k late) :
    Owned stem (((s.put (finalName stem k) (some author)).put (partialName stem k) none).goto i .idle) := by
  have mine := (owned i k late holds).own
  intro j k' late' holds'
  by_cases own : j = i
  · subst own
    have here : (((s.put (finalName stem k) (some author)).put (partialName stem k) none).goto j .idle).workers j =
        .idle := Function.update_self ..
    rw [here] at holds'
    cases holds'
  · have there : (((s.put (finalName stem k) (some author)).put (partialName stem k) none).goto i .idle).workers j =
        s.workers j := Function.update_of_ne own ..
    rw [there] at holds'
    have held := owned j k' late' holds'
    have other : k' ≠ k := by
      rintro rfl
      rw [held.own] at mine
      exact own (Option.some.inj (Option.some.inj mine))
    refine ⟨?_, ?_⟩
    · rw [← held.own]
      refine (Function.update_of_ne (fun same => other (partialName_injective same)) ..).trans ?_
      exact Function.update_of_ne partialName_ne_finalName ..
    · rw [← held.final]
      refine congrArg Option.isSome ((Function.update_of_ne partialName_ne_finalName.symm ..).trans ?_)
      exact Function.update_of_ne (fun same => other (finalName_injective same)) ..

lemma owned_act (act : Act stem s i event s') (own : ownDiscard stem s ⟨i, event⟩ = true) (owned : Owned stem s) :
    Owned stem s' := by
  have mine : ∀ {k late}, s.workers i = .holding k late →
      ∀ j, j ≠ i → s.files (partialName stem k) ≠ some (some j) := by
    intro k late holds j other theirs
    rw [(owned i k late holds).own] at theirs
    exact other (Option.some.inj (Option.some.inj theirs)).symm
  cases act with
  | start _ => exact owned_goto owned (by rintro k late ⟨⟩)
  | stop => exact owned_goto owned (by rintro k late ⟨⟩)
  | taken _ =>
    unfold Folder.advance
    refine owned_goto owned ?_
    intro k late
    split <;> rintro ⟨⟩
  | free _ _ => exact owned_goto owned (by rintro k late ⟨⟩)
  | @reserved k _ free =>
    refine owned_partial owned ?_ ?_
    · intro j _ theirs
      rw [free] at theirs
      cases theirs
    · rintro k' late ⟨⟩
      exact ⟨rfl, rfl, rfl⟩
  | @copied k late holds =>
    have held := owned i k late holds
    have same : s.put (partialName stem k) (some (some i)) = s := by
      unfold Folder.put
      rw [Function.update_eq_self_iff.mpr held.own.symm]
    rw [same]
    exact owned
  | openFailed holds => exact owned_partial owned (mine holds) (by rintro k late ⟨⟩)
  | renamed holds _ => exact owned_rename owned holds
  | notRenamed => exact owned
  | discarded holds => exact owned_partial owned (mine holds) (by rintro k late ⟨⟩)
  | @discardedAgain k holds =>
    refine owned_partial owned ?_ (by rintro k late ⟨⟩)
    intro j _ theirs
    simp only [ownDiscard, holds, theirs] at own
    cases own

lemma exec_of_next {ok : Folder → Action → Bool} {a : Action} (step : next stem s a = some s') :
    ((exports stem).only ok).exec s a = s' := by
  change (next stem s a).getD s = s'
  rw [step]
  rfl

lemma owned_of_reach (reach : ((exports stem).only (ownDiscard stem)).Reach s) : Owned stem s := by
  refine reach.invariant ?_ ?_
  · rintro s ⟨idle, -⟩ i k late holds
    rw [idle] at holds
    cases holds
  · intro s a _ owned enabled
    obtain ⟨guard, own⟩ := Machine.only_guard.mp enabled
    obtain ⟨s', step⟩ := Option.isSome_iff_exists.mp guard
    rw [exec_of_next step]
    exact owned_act (act_of_next step) own owned

/-- No reservation was late. -/
def Timely (s : Folder) : Prop := ∀ i k late, s.workers i = .holding k late → late = false

lemma timely_goto (timely : Timely s) {pc : Pc} (early : ∀ k late, pc = .holding k late → late = false)
    {files : List Char → Option Author} : Timely (Folder.goto { s with files } i pc) := by
  intro j k late holds
  by_cases own : j = i
  · subst own
    have here : (Folder.goto { s with files } j pc).workers j = pc := Function.update_self ..
    rw [here] at holds
    exact early k late holds
  · have there : (Folder.goto { s with files } i pc).workers j = s.workers j := Function.update_of_ne own ..
    rw [there] at holds
    exact timely j k late holds

lemma timely_act (act : Act stem s i event s') (own : prompt stem s ⟨i, event⟩ = true) (timely : Timely s) :
    Timely s' := by
  cases act with
  | copied _ => exact timely
  | notRenamed => exact timely
  | taken _ =>
    refine timely_goto timely ?_
    intro k late
    split <;> rintro ⟨⟩
  | @reserved k pc free =>
    refine timely_goto timely ?_
    rintro k' late ⟨⟩
    simp only [prompt, pc, free, Option.isSome_none, Bool.or_false, Bool.and_eq_true] at own
    rw [Option.isNone_iff_eq_none.mp own.2]
    rfl
  | _ => exact timely_goto timely (by rintro k late ⟨⟩)

lemma timely_of_reach (reach : ((exports stem).only (prompt stem)).Reach s) : Timely s := by
  refine reach.invariant ?_ ?_
  · rintro s ⟨idle, -⟩ i k late holds
    rw [idle] at holds
    cases holds
  · intro s a _ timely enabled
    obtain ⟨guard, own⟩ := Machine.only_guard.mp enabled
    obtain ⟨s', step⟩ := Option.isSome_iff_exists.mp guard
    rw [exec_of_next step]
    exact timely_act (act_of_next step) own timely

lemma reach_ownDiscard (reach : ((exports stem).only (prompt stem)).Reach s) :
    ((exports stem).only (ownDiscard stem)).Reach s :=
  reach.only_mono fun _ _ own => (Bool.and_eq_true_iff.mp own).1

lemma touches_own (owned : Owned stem s) {a : Action} (own : ownDiscard stem s a = true) :
    touchesOther stem s a = false := by
  have mine : ∀ {k late}, s.workers a.worker = .holding k late →
      s.files (partialName stem k) = some (some a.worker) := fun holds => (owned _ _ _ holds).own
  unfold touchesOther
  split
  · rename_i holds
    rw [mine holds]
    simp
  · rename_i holds
    rw [mine holds]
    simp
  · rename_i holds
    rw [mine holds]
    simp
  · rename_i holds
    rw [mine holds]
    simp
  · rename_i event holds
    simp only [ownDiscard, event, holds] at own
    rw [Option.isNone_iff_eq_none.mp own]
  · rfl

/-- A rename replaces a file if and only if its reservation was late. -/
lemma replaces_iff (owned : Owned stem s) (a : Action) : replaces stem s a = true ↔
    a.event = .rename true ∧ ∃ k, s.workers a.worker = .holding k true := by
  unfold replaces
  split
  · rename_i k late event holds
    rw [(owned _ _ _ holds).final]
    constructor
    · rintro rfl
      exact ⟨event, k, holds⟩
    · rintro ⟨-, k', holds'⟩
      rw [holds] at holds'
      cases holds'
      rfl
  · rename_i other
    refine ⟨by rintro ⟨⟩, ?_⟩
    rintro ⟨event, k, holds⟩
    exact (other k true event holds).elim

/-- Partials are touched by their worker only, in every run in which a partial that was removed is not removed again
from under another worker. Then a rename replaces a file if and only if its reservation was late. In a run in which
none is late, no file is replaced. -/
theorem exports_do_not_collide (stem : List Char) :
    (∀ s a, ((exports stem).only (ownDiscard stem)).Reach s →
      ((exports stem).only (ownDiscard stem)).guard s a = true →
      touchesOther stem s a = false ∧ (replaces stem s a = true ↔
        a.event = .rename true ∧ ∃ k, s.workers a.worker = .holding k true)) ∧
    (∀ s a, ((exports stem).only (prompt stem)).Reach s → ((exports stem).only (prompt stem)).guard s a = true →
      touchesOther stem s a = false ∧ replaces stem s a = false) := by
  refine ⟨?_, ?_⟩
  · intro s a reach enabled
    have owned := owned_of_reach reach
    exact ⟨touches_own owned (Machine.only_guard.mp enabled).2, replaces_iff owned a⟩
  · intro s a reach enabled
    have owned := owned_of_reach (reach_ownDiscard reach)
    refine ⟨touches_own owned (Bool.and_eq_true_iff.mp (Machine.only_guard.mp enabled).2).1, ?_⟩
    rw [← Bool.not_eq_true, replaces_iff owned]
    rintro ⟨-, k, holds⟩
    cases timely_of_reach reach _ _ _ holds

/-! ## Runs -/

def emptyFolder : Folder := { files := fun _ => none, workers := fun _ => .idle }

def stemA : List Char := outputStem ["run/a.mcap".toList] "20260101T000000Z".toList

def inTurn : List Action :=
  [⟨0, .start⟩, ⟨0, .check false⟩, ⟨0, .reserve false⟩, ⟨1, .start⟩, ⟨1, .check false⟩, ⟨1, .reserve false⟩,
    ⟨1, .check false⟩, ⟨1, .reserve false⟩, ⟨0, .copy⟩, ⟨0, .rename true⟩]

theorem exports_in_turn :
    ∃ s, ((exports stemA).only (prompt stemA)).Reach s ∧ s.files (finalName stemA 1) = some (some 0) ∧
      replaces stemA s ⟨1, .rename true⟩ = false := by
  have first : ((exports stemA).only (prompt stemA)).Reach emptyFolder := .init ⟨fun _ => rfl, by rintro name author ⟨⟩⟩
  have run : (((exports stemA).only (prompt stemA)).replay emptyFolder inTurn).any (fun s =>
      decide (s.files (finalName stemA 1) = some (some 0)) &&
        ((exports stemA).only (prompt stemA)).guard s ⟨1, .rename true⟩) = true := by decide +kernel
  obtain ⟨s, reach, here⟩ := first.replay_any run
  obtain ⟨file, enabled⟩ := Bool.and_eq_true_iff.mp here
  exact ⟨s, reach, of_decide_eq_true file, ((exports_do_not_collide stemA).2 s _ reach enabled).2⟩

/-- Worker 1 looks at the final name, worker 0 publishes, and worker 1 reserves the partial that is gone: its rename will
replace the file. And a partial is removed twice, while worker 1 has reserved it in between. -/
theorem exports_collide :
    (((exports stemA).replay emptyFolder [⟨0, .start⟩, ⟨0, .check false⟩, ⟨0, .reserve false⟩, ⟨0, .copy⟩,
      ⟨1, .start⟩, ⟨1, .check false⟩, ⟨0, .rename true⟩, ⟨1, .reserve false⟩, ⟨1, .copy⟩]).any fun s =>
        s.files (finalName stemA 1) = some (some 0) ∧ replaces stemA s ⟨1, .rename true⟩ = true) = true ∧
    (((exports stemA).replay emptyFolder [⟨0, .start⟩, ⟨0, .check false⟩, ⟨0, .reserve false⟩, ⟨0, .openFails⟩,
      ⟨1, .start⟩, ⟨1, .check false⟩, ⟨1, .reserve false⟩]).any fun s =>
        s.files (partialName stemA 1) = some (some 1) ∧ touchesOther stemA s ⟨0, .discard⟩ = true) = true := by
  decide +kernel

end PjCloud.Export
