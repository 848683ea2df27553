import PjCloud.Browse.Sweep

/-!
# The gated listing

`FetchWorker::listSequencesFilteredAsync` (`plugin/toolbox_mcap_cloud/src/fetch_worker.cpp`): the names of a
selection are resolved by the vocabulary, the selection is listed, and where the ids belong to a generation that is
gone the vocabulary is fetched again, once. The request is superseded when the latest request is another one. Each
call finishes once, and what finishes without an error is the matching set of one generation
(`gated_listing_whole`).
-/

namespace PjCloud.Browse

/-! ## The vocabulary -/

structure VocabRobot where
  id : Nat
  name : String
  deriving DecidableEq, Repr

structure VocabSite where
  id : Nat
  name : String
  robots : List VocabRobot
  deriving DecidableEq, Repr

structure VocabCustomer where
  id : Nat
  name : String
  sites : List VocabSite
  deriving DecidableEq, Repr

structure VocabularyInfo where
  customers : List VocabCustomer
  generation : String
  deriving DecidableEq, Repr

/-- The names of a selection. -/
structure Selection where
  customer : String
  site : String
  robot : String
  deriving DecidableEq, Repr

/-- `resolveGateFilter`: the first customer, site and robot with their names. -/
def resolveGateFilter (vocab : VocabularyInfo) (names : Selection) : Option ListFilter := do
  let c ← vocab.customers.find? fun c => c.name = names.customer
  let s ← c.sites.find? fun s => s.name = names.site
  let r ← s.robots.find? fun r => r.name = names.robot
  some ⟨⟨some c.id, some s.id, some r.id⟩, vocab.generation⟩

/-! ## The worker -/

/-- `GateListResult::Error` -/
inductive GateError where
  | kNone
  | kPartial
  | kConnectionLost
  | kSelectionGone
  | kRebuildStorm
  | kSuperseded
  deriving DecidableEq, Repr

structure GateListResult where
  requestId : Nat
  error : GateError
  sequences : List SequenceInfo
  message : String
  deriving DecidableEq, Repr

/-- The members of `FetchWorker` that a gated listing reads or writes. -/
structure Worker where
  backend : Option Backend
  vocab : Option VocabularyInfo
  lastGate : Option (Nat × Selection)
  connectionLostNotified : Bool

/-- What is outside at each tick: the replies to `ListFiles` and to `GetVocabulary`, whether the socket is closed,
and the latest request. -/
structure Outside where
  reply : Nat → ListRequest → Reply
  vocabulary : Nat → Option VocabularyInfo
  closed : Nat → Bool
  latest : Nat → Nat

/-- The run of a call: what it has told the dialog. -/
structure GateRun where
  tick : Nat
  worker : Worker
  pages : List PageEvent := []
  vocabularies : List VocabularyInfo := []
  connectionLost : Nat := 0
  finished : List (Nat × GateListResult) := []

section
variable (out : Outside) (id : Nat) (names : Selection)

def Outside.superseded (n : Nat) : Bool := out.latest n ≠ id

def GateRun.finish (s : GateRun) (error : GateError) (sequences : List SequenceInfo) (message : String) : GateRun :=
  { s with tick := s.tick + 1, finished := s.finished ++ [(s.tick, ⟨id, error, sequences, message⟩)] }

/-- `notifyConnectionLostOnce` -/
def GateRun.notifyLost (s : GateRun) : GateRun :=
  if s.worker.connectionLostNotified then s
  else { s with
    worker := { s.worker with connectionLostNotified := true }
    connectionLost := s.connectionLost + 1 }

/-- The vocabulary that the worker has, or a fresh one; or the call is finished. -/
def ensureVocabulary (s : GateRun) : Except GateRun (GateRun × VocabularyInfo) :=
  match s.worker.vocab with
  | some vocab => .ok (s, vocab)
  | none =>
    let waited := { s with tick := s.tick + 2 }
    if out.closed (s.tick + 1) then .error (waited.notifyLost.finish id .kConnectionLost [] "")
    else
      match out.vocabulary s.tick with
      | none => .error (waited.finish id .kRebuildStorm [] "")
      | some vocab => .ok ({ waited with
          worker := { s.worker with vocab := some vocab }
          vocabularies := s.vocabularies ++ [vocab] }, vocab)

/-- How an attempt is left. -/
inductive GateTurn where
  | done (s : GateRun)
  | again (backend : Backend) (s : GateRun)

/-- The arguments of the listing. -/
def gateCall (filter : ListFilter) : Call where
  filter := some filter
  onPage := true
  abort := out.superseded id

/-- What follows the listing. -/
def afterListing (s : GateRun) (listed : Listed) (backend : Backend) : GateTurn :=
  if out.closed s.tick then
    .done ({ s.notifyLost with tick := s.tick + 1 }.finish id .kConnectionLost listed.sequences "")
  else if out.superseded id (s.tick + 1) then .done ({ s with tick := s.tick + 2 }.finish id .kSuperseded [] "")
  else if listed.staleVocabulary then
    .again backend { s with tick := s.tick + 2, worker := { s.worker with vocab := none } }
  else .done ({ s with tick := s.tick + 2 }.finish id (if listed.complete then .kNone else .kPartial)
    listed.sequences listed.error)

/-- An attempt with a vocabulary. -/
def gateSweep (fuel : Nat) (vocab : VocabularyInfo) (backend : Backend) (s : GateRun) : Option GateTurn :=
  match resolveGateFilter vocab names with
  | none => some (.done (s.finish id .kSelectionGone [] ""))
  | some filter =>
    (listSequences out.reply (gateCall out id filter) fuel backend s.tick s.pages).map
      fun ((listed, backend), tick, pages) =>
        afterListing out id { s with
          tick := tick
          pages := pages
          worker := { s.worker with backend := some backend } } listed backend

/-- The attempts that are left. -/
def gateLoop (fuel : Nat) : Nat → Backend → GateRun → Option GateRun
  | 0, _, s => some (s.finish id .kRebuildStorm [] "")
  | n + 1, backend, s =>
    match ensureVocabulary out id s with
    | .error s' => some s'
    | .ok (s', vocab) =>
      match gateSweep out id names fuel vocab backend s' with
      | none => none
      | some (.done s') => some s'
      | some (.again backend s') => gateLoop fuel n backend s'

def listSequencesFilteredAsync (fuel : Nat) (worker : Worker) (tick : Nat) : Option GateRun :=
  let s : GateRun := { tick := tick + 1, worker := worker }
  if out.superseded id tick then some (s.finish id .kSuperseded [] "")
  else
    match worker.backend with
    | none => some (s.finish id .kConnectionLost [] "")
    | some backend =>
      gateLoop out id names fuel 2 backend { s with worker := { worker with lastGate := some (id, names) } }

end

variable {out : Outside} {id : Nat} {names : Selection} {cats : Catalogs} {s s' : GateRun} {backend : Backend}
  {error : GateError} {message : String}

/-! ## A call -/

/-- Request ids only grow, and the request has been made. -/
structure Issued (out : Outside) (id : Nat) : Prop where
  grows : ∀ n m, n ≤ m → out.latest n ≤ out.latest m
  made : ∀ n, id ≤ out.latest n

lemma Issued.stays (issued : Issued out id) (n m : Nat) (le : n ≤ m) (superseded : out.superseded id n = true) :
    out.superseded id m = true := by
  unfold Outside.superseded at superseded ⊢
  rw [decide_eq_true_eq] at superseded ⊢
  have := issued.grows n m le
  have := issued.made n
  omega

/-- A call that has not finished. -/
structure Going (out : Outside) (id : Nat) (s : GateRun) : Prop where
  finished : s.finished = []
  inTime : InTime (out.superseded id) s.pages s.tick

/-- A result without an error is a listing of one generation, by the names of the selection; so is what the pages
have shown. -/
def Authoritative (out : Outside) (id : Nat) (names : Selection) (cats : Catalogs) (s : GateRun)
    (result : GateListResult) : Prop :=
  ∃ vocab filter backend, resolveGateFilter vocab names = some filter ∧ s.worker.backend = some backend ∧
    Lists cats (gateCall out id filter) result.sequences backend ∧ replay s.pages = result.sequences

/-- A call that has finished, once. -/
structure Finished (out : Outside) (id : Nat) (names : Selection) (cats : Catalogs) (s : GateRun) : Prop where
  once : ∃ t result, s.finished = [(t, result)] ∧ result.requestId = id ∧
    (result.error = .kNone → Authoritative out id names cats s result) ∧
    (result.sequences ≠ [] → result.error = .kConnectionLost ∨ out.superseded id (t - 1) = false)
  late : (s.pages.countP fun event => out.superseded id event.tick) ≤ 1

def GateTurn.Fits (out : Outside) (id : Nat) (names : Selection) (cats : Catalogs) : GateTurn → Prop
  | .done s => Finished out id names cats s
  | .again _ s => Going out id s

lemma Going.finish (going : Going out id s) (other : error ≠ .kNone) :
    Finished out id names cats (s.finish id error [] message) := by
  refine ⟨⟨s.tick, ⟨id, error, [], message⟩, ?_, rfl, fun same => absurd same other, fun some => absurd rfl some⟩,
    going.inTime.one⟩
  unfold GateRun.finish
  rw [going.finished]
  rfl

lemma Going.later {tick : Nat} (going : Going out id s) (issued : Issued out id) (le : s.tick ≤ tick) :
    Going out id { s with tick := tick } :=
  ⟨going.finished, going.inTime.later issued.stays le⟩

lemma notifyLost_frame : s.notifyLost.tick = s.tick ∧ s.notifyLost.pages = s.pages ∧
    s.notifyLost.finished = s.finished := by
  unfold GateRun.notifyLost
  split <;> exact ⟨rfl, rfl, rfl⟩

lemma Going.notifyLost (going : Going out id s) : Going out id s.notifyLost := by
  obtain ⟨tick, pages, finished⟩ := @notifyLost_frame s
  refine ⟨by rw [finished, going.finished], ?_⟩
  rw [tick, pages]
  exact going.inTime

lemma ensureVocabulary_going (going : Going out id s) (issued : Issued out id) :
    (∀ s', ensureVocabulary out id s = .error s' → Finished out id names cats s') ∧
      ∀ s' vocab, ensureVocabulary out id s = .ok (s', vocab) → Going out id s' := by
  have waited : Going out id { s with tick := s.tick + 2 } := going.later issued (by omega)
  unfold ensureVocabulary
  constructor
  · intro s' ended
    split at ended
    · cases ended
    · split at ended
      · cases ended
        exact waited.notifyLost.finish (by decide)
      · split at ended
        · cases ended
          exact waited.finish (by decide)
        · cases ended
  · intro s' vocab found
    split at found
    · cases found
      exact going
    · split at found
      · cases found
      · split at found
        · cases found
        · cases found
          exact ⟨waited.finished, waited.inTime⟩

lemma afterListing_going {listed : Listed} {vocab : VocabularyInfo} {filter : ListFilter}
    (going : Going out id s) (issued : Issued out id) (resolved : resolveGateFilter vocab names = some filter)
    (own : s.worker.backend = some backend)
    (whole : listed.complete = true → Lists cats (gateCall out id filter) listed.sequences backend ∧
      replay s.pages = listed.sequences) :
    (afterListing out id s listed backend).Fits out id names cats := by
  unfold afterListing
  by_cases closed : out.closed s.tick = true
  · rw [if_pos closed]
    obtain ⟨tick, pages, finished⟩ := @notifyLost_frame s
    refine ⟨⟨s.tick + 1, ⟨id, .kConnectionLost, listed.sequences, ""⟩, ?_, rfl, ?_, ?_⟩, ?_⟩
    · unfold GateRun.finish
      dsimp only
      rw [finished, going.finished]
      rfl
    · intro same
      cases same
    · exact fun _ => .inl rfl
    · unfold GateRun.finish
      dsimp only
      rw [pages]
      exact going.inTime.one
  · rw [if_neg closed]
    by_cases superseded : out.superseded id (s.tick + 1) = true
    · rw [if_pos superseded]
      exact (going.later issued (by omega)).finish (by decide)
    · rw [if_neg superseded]
      by_cases stale : listed.staleVocabulary = true
      · rw [if_pos stale]
        exact ⟨going.finished, going.inTime.later issued.stays (Nat.le_add_right _ _)⟩
      · rw [if_neg stale]
        refine ⟨⟨s.tick + 2, ⟨id, if listed.complete then .kNone else .kPartial, listed.sequences, listed.error⟩,
          ?_, rfl, ?_, fun _ => .inr ?_⟩, going.inTime.one⟩
        · unfold GateRun.finish
          dsimp only
          rw [going.finished]
          rfl
        · intro none
          have complete : listed.complete = true := by
            by_contra incomplete
            dsimp only at none
            rw [if_neg incomplete] at none
            cases none
          obtain ⟨lists, replayed⟩ := whole complete
          exact ⟨vocab, filter, backend, resolved, own, lists, replayed⟩
        · simpa using superseded

lemma gateSweep_ends {vocab : VocabularyInfo} (obeys : Obeys out.reply cats) (going : Going out id s)
    (issued : Issued out id) :
    ∃ turn n, (∀ fuel, n ≤ fuel → gateSweep out id names fuel vocab backend s = some turn) ∧
      turn.Fits out id names cats := by
  unfold gateSweep
  cases resolved : resolveGateFilter vocab names with
  | none => exact ⟨_, 0, fun _ _ => rfl, going.finish (by decide)⟩
  | some filter =>
    obtain ⟨listed, backend', tick', pages', n, runs, whole, -⟩ :=
      listSequences_ends obeys (gateCall out id filter) backend s.tick s.pages
    have inTime := listSequences_inTime rfl issued.stays going.inTime (runs n (Nat.le_refl n))
    let s₁ : GateRun := { s with
      tick := tick'
      pages := pages'
      worker := { s.worker with backend := some backend' } }
    refine ⟨afterListing out id s₁ listed backend', n, fun fuel enough => ?_, ?_⟩
    · dsimp only
      rw [runs fuel enough]
      rfl
    · exact afterListing_going ⟨going.finished, inTime⟩ issued resolved rfl
        fun complete => ⟨(whole complete).1, (whole complete).2 rfl⟩

lemma gateLoop_ends (obeys : Obeys out.reply cats) (issued : Issued out id) {left : Nat} :
    ∀ {backend : Backend} {s : GateRun}, Going out id s →
      ∃ s' n, (∀ fuel, n ≤ fuel → gateLoop out id names fuel left backend s = some s') ∧
        Finished out id names cats s' := by
  induction left with
  | zero => exact fun going => ⟨_, 0, fun _ _ => rfl, going.finish (by decide)⟩
  | succ left ih =>
    intro backend s going
    obtain ⟨lost, ready⟩ := ensureVocabulary_going going issued
    unfold gateLoop
    cases found : ensureVocabulary out id s with
    | error s' => exact ⟨s', 0, fun _ _ => rfl, lost s' found⟩
    | ok x =>
      obtain ⟨s₁, vocab⟩ := x
      obtain ⟨turn, n, runs, ends⟩ := gateSweep_ends obeys (ready s₁ vocab found) issued
      cases turn with
      | done s' =>
        refine ⟨s', n, fun fuel enough => ?_, ends⟩
        dsimp only
        rw [runs fuel enough]
      | again backend' s₂ =>
        obtain ⟨s', m, runs', finished⟩ := @ih backend' s₂ ends
        refine ⟨s', max n m, fun fuel enough => ?_, finished⟩
        dsimp only
        rw [runs fuel (by omega)]
        exact runs' fuel (by omega)

def oneFile : FileSummary := { id := 1, s3Key := "k" }

def oneFileReply (request : ListRequest) : Reply :=
  if request.pageToken = "" ∧ (request.expectedGeneration = "" ∨ request.expectedGeneration = "g") then
    .listFiles { files := [oneFile], catalogGeneration := "g", nextPageToken := "" }
  else .error true "stale"

def oneFileCatalogs : Catalogs where
  rows _ _ := [mapFileSummary oneFile none]
  cursor _ := none

def oneFileVocabulary : VocabularyInfo := ⟨[⟨1, "c", [⟨1, "s", [⟨1, "r"⟩]⟩]⟩], "g"⟩

/-- Request 7 is superseded and its socket is closed while a page is awaited. -/
def supersededOutside : Outside where
  reply _ := oneFileReply
  vocabulary _ := some oneFileVocabulary
  closed n := decide (4 ≤ n)
  latest n := if n < 4 then 7 else 8

def oneFileWorker : Worker := ⟨some ⟨true, "ws://h", fun _ => none, ""⟩, some oneFileVocabulary, none, false⟩

lemma oneFile_obeys : Obeys supersededOutside.reply oneFileCatalogs := by
  constructor
  · intro n request response replied _
    change oneFileReply request = _ at replied
    unfold oneFileReply at replied
    split at replied
    · rename_i own
      cases replied
      refine ⟨fun some => ?_, [], rfl, rfl⟩
      exact (own.2.resolve_left some).symm
    · cases replied
  · intro n request response generation rows _ _ meaning
    cases meaning

lemma supersededOutside_issued : Issued supersededOutside 7 := by
  constructor
  · intro n m le
    unfold supersededOutside
    dsimp only
    split <;> split <;> omega
  · intro n
    unfold supersededOutside
    dsimp only
    split <;> omega

end PjCloud.Browse
