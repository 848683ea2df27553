import PjCloud.Pull.Run

/-!
# What is published

A file is renamed into the cache only at the end of a whole download, and it has every message that was delivered for a
topic of the session. Messages are lost between the handler and the file in three ways: the writer fails, which is seen
before the rename; the tee is told to abort, which is after the flag of the cancel was set; and the handler stops in
front of the queue, which leaves its reason in the flag or in one of the ceilings. An abort after the flag was sampled
can still keep messages from being written, and then the counts do not agree.
-/

namespace PjCloud.Pull
open Lib

def Pc.pending : Pc → List Message
  | .checking m | .offering m | .refused m | .shutting (.decode m) | .joining (.decode m) => [m]
  | _ => []

/-- In front of `openWriter`. -/
def Pc.unopened : Pc → Bool
  | .begun | .opened => true
  | _ => false

def Pc.unsampled : Pc → Bool
  | .snapped | .draining | .drained _ | .finalizing | .renamed | .shutting .leave | .joining .leave | .done => false
  | _ => true

/-- From `openWriter` to the rename. -/
def Pc.writes : Pc → Bool
  | .begun | .opened | .shutting _ | .joining _ | .done => false
  | _ => true

/-- The writer has ended, and well. -/
def Pc.stopped : Pc → Bool
  | .drained ok => ok
  | .finalizing => true
  | _ => false

def Pc.judged : Pc → Bool
  | .draining | .drained _ | .finalizing => true
  | _ => false

def Pc.late : Pc → Bool
  | .renamed | .shutting .leave | .joining .leave | .done => true
  | _ => false

def Fetch.clean (s : Fetch) : Bool :=
  s.left.isNone && !s.snapshot.getD s.cancelFlag && !s.bytesOver && !s.durationOver

/-- What a file in the cache is, for a pull that was neither cancelled nor over a ceiling. -/
structure Fetch.Earned (r : Request) (s : Fetch) (file : List Message) : Prop where
  eos : s.eos = .complete
  snapshot : s.snapshot = some false
  bytes : s.bytesOver = false ∧ r.bytesExceeded s.wire = false
  duration : s.durationOver = false ∧ r.durationReached s.elapsed = false
  whole : file = onlyKnown s.info.known s.delivered

structure Sound (r : Request) (s : Fetch) : Prop where
  aborted : ∀ t, s.tee = some t → t.abort = true → s.cancelFlag = true
  orderly : ∀ t, s.tee = some t → t.Orderly
  unopened : ∀ t, s.tee = some t → s.pc.unopened = true → ∃ abort, t = { abort }
  known : ∀ t, s.tee = some t → s.pc.writes = true → t.known = s.info.known
  file : ∀ t f, s.tee = some t → s.partialFile = some f → t.failed = false → f = onlyKnown t.known t.written
  finalized : ∀ t, s.tee = some t → t.finalized = true → s.partialFile = none
  renamed : s.pc = .renamed → s.partialFile = none
  gone : s.tee = none → s.partialFile = none
  ended : s.pc = .done → s.tee = none
  stopped : ∀ t, s.tee = some t → s.pc.stopped = true → t.writer = .exited ∧ t.failed = false
  unsampled : s.pc.unsampled = true → s.snapshot = none
  judged : s.pc.judged = true → (r.bytesExceeded s.wire = true → s.bytesOver = true) ∧
    (r.durationReached s.elapsed = true → s.durationOver = true)
  complete : s.pc = .finalizing → s.complete = true
  returned : s.pc.late = false → s.left = none
  kept : ∀ t, s.tee = some t → t.failed = false → s.clean = true → t.accepted ++ s.pc.pending = s.delivered
  late : s.published ≠ none → s.pc.late = true
  earned : ∀ file, s.published = some file → s.Earned r file

section
variable {r : Request} {s s' : Fetch} {e : Event}

/-! ## The tee -/

lemma aborted_act (sound : Sound r s) (act : Act r s e s') :
    ∀ t, s'.tee = some t → t.abort = true → s'.cancelFlag = true := by
  have before := sound.aborted
  cases act <;> simp_all

lemma orderly_act (sound : Sound r s) (act : Act r s e s') : ∀ t, s'.tee = some t → t.Orderly := by
  intro t tee
  have before := sound.orderly
  cases act with
  | openWriter pc old =>
    obtain ⟨abort, rfl⟩ := sound.unopened _ old (pc ▸ rfl)
    exact Option.some.inj tee ▸ (before _ old).openWriter _ rfl rfl
  | enqueue _ old => exact Option.some.inj tee ▸ (before _ old).push _
  | judge _ old => exact Option.some.inj tee ▸ ⟨(before _ old).split, (before _ old).counted⟩
  | handOff _ old => exact Option.some.inj tee ▸ ⟨(before _ old).split, (before _ old).counted⟩
  | shut _ old => exact Option.some.inj tee ▸ (before _ old).shut
  | join => cases tee
  | take old waiting queue => exact Option.some.inj tee ▸ (before _ old).take waiting queue
  | quit old waiting => exact Option.some.inj tee ▸ (before _ old).quit waiting
  | wrote old writing => exact Option.some.inj tee ▸ (before _ old).wrote writing
  | failWrite old => exact Option.some.inj tee ▸ (before _ old).failWrite
  | abort old => exact Option.some.inj tee ▸ ⟨(before _ old).split, (before _ old).counted⟩
  | _ => exact before t tee

lemma unopened_act (sound : Sound r s) (act : Act r s e s') :
    ∀ t, s'.tee = some t → s'.pc.unopened = true → ∃ abort, t = { abort } := by
  intro t tee early
  have before := sound.unopened
  cases act with
  | take old waiting =>
    obtain ⟨abort, rfl⟩ := before _ old early
    cases waiting
  | quit old waiting =>
    obtain ⟨abort, rfl⟩ := before _ old early
    cases waiting
  | wrote old writing =>
    obtain ⟨abort, rfl⟩ := before _ old early
    cases writing
  | failWrite old writing =>
    obtain ⟨abort, rfl⟩ := before _ old early
    cases writing
  | abort old =>
    obtain ⟨abort, rfl⟩ := before _ old early
    exact ⟨true, (Option.some.inj tee).symm⟩
  | _ => simp_all [Pc.unopened]

lemma known_act (sound : Sound r s) (act : Act r s e s') :
    ∀ t, s'.tee = some t → s'.pc.writes = true → t.known = s'.info.known := by
  have before := sound.known
  cases act <;> simp_all [Pc.writes]

lemma stopped_act (sound : Sound r s) (act : Act r s e s') :
    ∀ t, s'.tee = some t → s'.pc.stopped = true → t.writer = .exited ∧ t.failed = false := by
  have before := sound.stopped
  cases act <;> simp_all [Pc.stopped]

/-! ## The partial -/

lemma file_act (sound : Sound r s) (act : Act r s e s') :
    ∀ t f, s'.tee = some t → s'.partialFile = some f → t.failed = false → f = onlyKnown t.known t.written := by
  intro t f tee there good
  cases act with
  | openWriter pc old =>
    cases tee
    cases there
    obtain ⟨abort, rfl⟩ := sound.unopened _ old (pc ▸ rfl)
    rfl
  | enqueue _ old | judge _ old | handOff _ old =>
    cases tee
    have same := sound.file _ f old there good
    exact same
  | take old | quit old | abort old =>
    cases tee
    have same := sound.file _ f old there good
    exact same
  | shut _ old =>
    cases tee
    have same := sound.file _ f old there (Bool.or_eq_false_iff.mp good).1
    exact same
  | wrote old writing =>
    cases tee
    obtain ⟨g, same, rfl⟩ := Option.map_eq_some_iff.mp there
    rw [sound.file _ g old same good, ← Tee.onlyKnown_append]
    rfl
  | failWrite =>
    cases tee
    cases good
  | join => cases tee
  | openFails | publish | reject => cases there
  | _ => exact sound.file t f tee there good

lemma finalized_act (sound : Sound r s) (act : Act r s e s') :
    ∀ t, s'.tee = some t → t.finalized = true → s'.partialFile = none := by
  have before := sound.finalized
  cases act with
  | openWriter pc old =>
    obtain ⟨abort, rfl⟩ := sound.unopened _ old (pc ▸ rfl)
    rintro t ⟨⟩ ⟨⟩
  | handOff pc => exact fun _ _ _ => sound.renamed pc
  | _ => simp_all

lemma renamed_act (sound : Sound r s) (act : Act r s e s') : s'.pc = .renamed → s'.partialFile = none := by
  have before := sound.renamed
  cases act with
  | @shutNone after => cases after <;> simp_all [After.pc]
  | @join _ after => cases after <;> simp_all [After.pc]
  | _ => simp_all

lemma gone_act (sound : Sound r s) (act : Act r s e s') : s'.tee = none → s'.partialFile = none := by
  have before := sound.gone
  cases act with
  | @join t _ _ old =>
    intro _
    change (if t.finalized then s.partialFile else none) = none
    split
    · rename_i final
      exact sound.finalized t old final
    · rfl
  | _ => simp_all

/-! ## The pull -/

lemma ended_act (sound : Sound r s) (act : Act r s e s') : s'.pc = .done → s'.tee = none := by
  have before := sound.ended
  cases act <;> simp_all

lemma unsampled_act (sound : Sound r s) (act : Act r s e s') : s'.pc.unsampled = true → s'.snapshot = none := by
  have before := sound.unsampled
  cases act with
  | @shutNone after | @shut _ after | @join _ after => cases after <;> simp_all [Pc.unsampled, After.pc]
  | _ => simp_all [Pc.unsampled]

lemma judged_act (sound : Sound r s) (act : Act r s e s') :
    s'.pc.judged = true → (r.bytesExceeded s'.wire = true → s'.bytesOver = true) ∧
      (r.durationReached s'.elapsed = true → s'.durationOver = true) := by
  have before := sound.judged
  cases act with
  | @shutNone after | @join _ after => cases after <;> simp_all [Pc.judged, After.pc]
  | _ => simp_all [Pc.judged]

lemma complete_act (sound : Sound r s) (act : Act r s e s') : s'.pc = .finalizing → s'.complete = true := by
  have before := sound.complete
  unfold Fetch.complete at before ⊢
  cases act with
  | settleComplete _ complete => exact fun _ => complete
  | @shutNone after | @join _ after => cases after <;> simp_all [After.pc]
  | _ => simp_all

lemma returned_act (sound : Sound r s) (act : Act r s e s') : s'.pc.late = false → s'.left = none := by
  have before := sound.returned
  cases act with
  | @shutNone after | @shut _ after | @join _ after => cases after <;> simp_all [Pc.late, After.pc]
  | _ => simp_all [Pc.late]

lemma late_act (sound : Sound r s) (act : Act r s e s') : s'.published ≠ none → s'.pc.late = true := by
  have before := sound.late
  cases act with
  | @shutNone after | @shut _ after | @join _ after => cases after <;> simp_all [Pc.late, After.pc]
  | _ => simp_all [Pc.late]

lemma kept_act (sound : Sound r s) (act : Act r s e s') :
    ∀ t, s'.tee = some t → t.failed = false → s'.clean = true → t.accepted ++ s'.pc.pending = s'.delivered := by
  have before := sound.kept
  cases act with
  | @checkCancelled m _ _ pc cancelled =>
    intro t _ _ clean
    have unsampled := sound.unsampled (pc ▸ rfl)
    simp_all [Fetch.clean]
  | @keepTee m t pc old abort =>
    intro _ _ _ clean
    have unsampled := sound.unsampled (pc ▸ rfl)
    have cancelled := sound.aborted t old abort
    simp_all [Fetch.clean]
  | snapshot pc =>
    have unsampled := sound.unsampled (pc ▸ rfl)
    simp_all [Pc.pending, Fetch.clean]
  | @shut t after pc old =>
    rintro _ ⟨⟩ good clean
    have same := before t old (Bool.or_eq_false_iff.mp good).1 clean
    rw [pc] at same
    cases after <;> exact same
  | cancel =>
    intro t old good clean
    refine before t old good ?_
    cases sampled : s.snapshot <;> simp_all [Fetch.clean]
  | _ => simp_all [Pc.pending, Fetch.clean]

lemma Sound.unpublished (sound : Sound r s) (early : s.pc.late = false) : s.published = none := by
  by_contra there
  rw [sound.late there] at early
  cases early

lemma earned_rename {t : Tee} {file : List Message} (sound : Sound r s) (pc : s.pc = .finalizing)
    (tee : s.tee = some t) (there : s.partialFile = some file) (counts : statistics file = t.expected) :
    (s.rename file).Earned r file := by
  have good := (sound.stopped t tee (pc ▸ rfl)).2
  have known := sound.known t tee (pc ▸ rfl)
  have complete := sound.complete pc
  have judged := sound.judged (pc ▸ rfl)
  have left := sound.returned (pc ▸ rfl)
  have written := sound.file t file tee there good
  simp only [Fetch.complete, Bool.and_eq_true, decide_eq_true_iff, Bool.not_eq_true'] at complete
  obtain ⟨⟨⟨eos, snapshot⟩, bytes⟩, duration⟩ := complete
  have clean : s.clean = true := by simp [Fetch.clean, left, snapshot, bytes, duration]
  have kept := sound.kept t tee good clean
  rw [pc] at kept
  change t.accepted ++ [] = s.delivered at kept
  rw [List.append_nil] at kept
  rw [written] at counts
  refine ⟨eos, snapshot, ⟨bytes, ?_⟩, ⟨duration, ?_⟩, ?_⟩
  · rw [← Bool.not_eq_true]
    exact fun above => absurd ((judged.1 above).symm.trans bytes) nofun
  · rw [← Bool.not_eq_true]
    exact fun above => absurd ((judged.2 above).symm.trans duration) nofun
  · change file = onlyKnown s.info.known s.delivered
    rw [written, (sound.orderly t tee).whole good counts, known, kept]

lemma earned_act (sound : Sound r s) (act : Act r s e s') :
    ∀ file, s'.published = some file → s'.Earned r file := by
  intro file there
  cases act with
  | publish pc tee partialFile counts =>
    cases there
    exact earned_rename sound pc tee partialFile counts
  | openSession pc | overEstimate pc | deliver pc | checkCancelled pc | checkBytes pc | checkDuration pc | stop pc
  | finish pc | snapshot pc | judgeNone pc | judge pc =>
    exact absurd ((sound.unpublished (pc ▸ rfl)).symm.trans there) nofun
  | _ =>
    obtain ⟨eos, snapshot, bytes, duration, whole⟩ := sound.earned file there
    exact ⟨eos, snapshot, bytes, duration, whole⟩

lemma sound_act (sound : Sound r s) (act : Act r s e s') : Sound r s' where
  aborted := aborted_act sound act
  orderly := orderly_act sound act
  unopened := unopened_act sound act
  known := known_act sound act
  file := file_act sound act
  finalized := finalized_act sound act
  renamed := renamed_act sound act
  gone := gone_act sound act
  ended := ended_act sound act
  stopped := stopped_act sound act
  unsampled := unsampled_act sound act
  judged := judged_act sound act
  complete := complete_act sound act
  returned := returned_act sound act
  kept := kept_act sound act
  late := late_act sound act
  earned := earned_act sound act

lemma sound_start (start : starts s) : Sound r s := by
  obtain ⟨cancelFlag, rfl | rfl | rfl⟩ := start
  · constructor <;> simp [Pc.stopped, Pc.judged, Pc.late]
  · constructor <;> simp [Pc.stopped, Pc.judged, Pc.late]
  · constructor <;> simp [Pc.stopped, Pc.judged, Pc.late, Pc.writes, Pc.pending, Tee.orderly_fresh]

lemma sound_of_reach (reach : (pulls r).Reach s) : Sound r s := by
  refine reach.invariant_next ?_ ?_
  · exact fun _ start => sound_start start
  · exact fun _ _ _ _ sound step => sound_act sound (act_of_next step)

end

/-! ## A run -/

def oneTopic : SessionInfo := ⟨100, [⟨1, "imu", 1⟩], [⟨1, "Imu"⟩]⟩

def reading (topicId : Nat) : Message := ⟨topicId, 0, 0, [topicId.toUInt8]⟩

def handle (m : Message) : List Event :=
  [.deliver m, .check 50 10, .offer, .decode (.ok ()) true, .tick true]

def publishing : List Event :=
  [.finish .complete, .snapshot, .judge 90 20, .quit, .drain true, .settle, .publish true, .handOff true, .shut, .join]

def smallPull : List Event :=
  [.openSession oneTopic, .openWriter true, .create 7, .announce, .bind (.ok ())] ++
    handle (reading 1) ++ [.take, .wrote true] ++ handle (reading 2) ++ [.take, .wrote true] ++ publishing

end PjCloud.Pull
