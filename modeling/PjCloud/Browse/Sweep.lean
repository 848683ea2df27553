import Mathlib.Algebra.Group.Nat.Defs
import Mathlib.Data.List.Basic
import Mathlib.Tactic.Common

/-!
# The listing of the browser

`BackendConnection::listSequences` (`plugin/toolbox_mcap_cloud/src/backend_connection.cpp`): the pages of a listing
are collected until one has no token; a catalog that was rebuilt in between is listed again from page one, three
times at most, and a filtered listing is given up instead. What the outside decides is asked at each interaction,
numbered by a clock: what is replied to a request, and whether the listing is superseded.

A server that obeys the cursor contract (`Obeys`) gives each token a meaning: a generation, a filter, and the rows
that are left. With it a listing ends, and one that is complete is the matching set of one generation.
-/

namespace PjCloud.Browse

/-! ## What is listed -/

structure TagRow where
  key : String
  value : String
  isOverride : Bool
  deriving DecidableEq, Repr

structure SequenceInfo where
  name : String
  minTsNs : Int := 0
  maxTsNs : Int := 0
  totalSizeBytes : Int := 0
  userMetadata : List (String × String) := []
  tags : List TagRow := []
  deriving DecidableEq, Repr

structure MappedSequence where
  fileId : Nat
  info : SequenceInfo
  deriving DecidableEq, Repr

/-- `pj_cloud.v1.FileSummary`, as far as it is mapped. -/
structure FileSummary where
  id : Nat
  s3Key : String
  recorded : Option (Int × Int) := none
  sizeBytes : Nat := 0
  tags : List TagRow := []
  deriving DecidableEq, Repr

/-- `pj_cloud.v1.ListFilesResponse` -/
structure ListFilesResponse where
  files : List FileSummary
  metadata : List (String × List (String × String)) := []
  catalogGeneration : String
  nextPageToken : String
  deriving DecidableEq, Repr

/-- `mapFileSummary`. The cast of the size is one to `int64_t`. -/
def mapFileSummary (summary : FileSummary) (metadata : Option (List (String × String))) : MappedSequence where
  fileId := summary.id
  info := {
    name := summary.s3Key
    minTsNs := (summary.recorded.map Prod.fst).getD 0
    maxTsNs := (summary.recorded.map Prod.snd).getD 0
    totalSizeBytes := Int.bmod summary.sizeBytes (2 ^ 64)
    userMetadata := metadata.getD []
    tags := summary.tags }

def mapListFilesResponse (response : ListFilesResponse) : List MappedSequence :=
  response.files.map fun summary => mapFileSummary summary (response.metadata.lookup (toString summary.id))

/-! ## Requests and replies -/

/-- The ids of `pj_cloud.v1.FileFilter` that the browser sets. -/
structure WireFilter where
  customerId : Option Nat
  siteId : Option Nat
  robotId : Option Nat
  deriving DecidableEq, Repr

structure ListFilter where
  ids : WireFilter
  generation : String
  deriving DecidableEq, Repr

/-- `ListFilter::empty` -/
def ListFilter.empty (filter : ListFilter) : Bool :=
  filter.ids.customerId.isNone && filter.ids.siteId.isNone && filter.ids.robotId.isNone

/-- `pj_cloud.v1.ListFilesRequest` -/
structure ListRequest where
  pageToken : String
  limit : Nat
  filter : Option WireFilter
  expectedGeneration : String
  deriving DecidableEq, Repr

/-- What `sendAndWait` comes to: nothing in time, an error with the text of `formatWireError`, or a reply. -/
inductive Reply where
  | none
  | error (stale : Bool) (text : String)
  | listFiles (response : ListFilesResponse)
  | other
  deriving DecidableEq, Repr

/-- `kListFilesPageLimit` -/
def listFilesPageLimit : Nat := 500

/-- `kMaxStaleRetries` -/
def maxStaleRetries : Nat := 2

/-- The arguments of a call: its filter, whether pages are handed over, and when it is to stop. -/
structure Call where
  filter : Option ListFilter := none
  onPage : Bool := false
  abort : Nat → Bool := fun _ => false

def Call.sent (call : Call) : Option ListFilter := call.filter.filter fun filter => !filter.empty

def Call.ids (call : Call) : Option WireFilter := call.sent.map ListFilter.ids

/-- A page that is handed over, and when. -/
structure PageEvent where
  tick : Nat
  page : List SequenceInfo
  reset : Bool
  deriving DecidableEq, Repr

/-- The variables of an attempt, and the pages that were handed over up to now. -/
structure Sweep where
  tick : Nat
  pageToken : String := ""
  generation : String := ""
  resetConsumer : Bool := true
  sequences : List SequenceInfo := []
  fileIds : String → Option Nat := fun _ => none
  delivered : List PageEvent := []

/-- How the loop over the pages is left. -/
inductive PageEnd where
  | aborted
  | noReply
  | staleFilter
  | stale
  | failed (text : String)
  | exhausted
  deriving DecidableEq, Repr

/-- `file_ids[mapped.info.name] = mapped.file_id` for each row. -/
def addIds (ids : String → Option Nat) (rows : List MappedSequence) : String → Option Nat :=
  rows.foldl (fun ids row => Function.update ids row.info.name (some row.fileId)) ids

section
variable (reply : Nat → ListRequest → Reply) (call : Call)

/-- The request for a page. The generation of the filter goes with page one only. -/
def pageRequest (s : Sweep) : ListRequest where
  pageToken := s.pageToken
  limit := listFilesPageLimit
  filter := call.ids
  expectedGeneration := if s.pageToken = "" then (call.sent.map ListFilter.generation).getD "" else ""

/-- A page is taken up. -/
def Sweep.take (s : Sweep) (response : ListFilesResponse) : Sweep :=
  let rows := mapListFilesResponse response
  let page := rows.map MappedSequence.info
  { tick := s.tick + 3
    pageToken := response.nextPageToken
    generation := if s.pageToken = "" then response.catalogGeneration else s.generation
    resetConsumer := if call.onPage then false else s.resetConsumer
    sequences := s.sequences ++ page
    fileIds := addIds s.fileIds rows
    delivered := if call.onPage then s.delivered ++ [⟨s.tick + 2, page, s.resetConsumer⟩] else s.delivered }

/-- One pass of the loop over the pages: `abort` is polled, a request is sent, its reply is awaited, and the page
is handed over. -/
def pageStep (s : Sweep) : Sweep × Option PageEnd :=
  if call.abort s.tick then ({ s with tick := s.tick + 1 }, some .aborted)
  else
    let waited := { s with tick := s.tick + 2 }
    match reply (s.tick + 1) (pageRequest call s) with
    | .none => (waited, some .noReply)
    | .error true _ => (waited, some (if call.sent.isSome then .staleFilter else .stale))
    | .error false text => (waited, some (.failed text))
    | .other => (waited, some (.failed "unexpected reply to ListFiles"))
    | .listFiles response =>
      (s.take call response, if response.nextPageToken = "" then some .exhausted else none)

/-- The loop over the pages. -/
def sweepPages : Nat → Sweep → Option (PageEnd × Sweep)
  | 0, _ => none
  | fuel + 1, s =>
    match pageStep reply call s with
    | (s', some e) => some (e, s')
    | (s', none) => sweepPages fuel s'

def Sweep.restart (s : Sweep) : Sweep := { tick := s.tick, delivered := s.delivered }

/-- The attempts: `retries` more of them after a stale one. -/
def attempts (fuel : Nat) : Nat → Sweep → Option (PageEnd × Sweep)
  | 0, s => sweepPages reply call fuel s.restart
  | retries + 1, s =>
    match sweepPages reply call fuel s.restart with
    | some (.stale, s') => attempts fuel retries s'
    | r => r

/-- The members of `BackendConnection` that a listing reads or replaces. -/
structure Backend where
  socket : Bool
  uri : String
  fileIdByName : String → Option Nat
  catalogGeneration : String

/-- What a listing returns, in its result and through its pointers. -/
structure Listed where
  sequences : List SequenceInfo
  complete : Bool
  staleVocabulary : Bool
  error : String
  deriving DecidableEq, Repr

def buildWsUrl (uri : String) : String :=
  String.ofList ((uri.toList.reverse.dropWhile (· == '/')).reverse) ++ "/api/ws"

/-- What follows the loops. -/
def conclude (backend : Backend) : PageEnd → Sweep → Listed × Backend
  | .aborted, s => (⟨s.sequences, false, false, ""⟩, backend)
  | .noReply, s => (⟨s.sequences, false, false, "no response to ListFiles from " ++ buildWsUrl backend.uri⟩, backend)
  | .staleFilter, _ => (⟨[], false, true, ""⟩, backend)
  | .stale, s =>
    (⟨s.sequences, false, false, "catalog kept rebuilding during the listing (stale retries exhausted)"⟩, backend)
  | .failed text, s => (⟨s.sequences, false, false, text⟩, backend)
  | .exhausted, s => (⟨s.sequences, true, false, ""⟩,
      { backend with fileIdByName := s.fileIds, catalogGeneration := s.generation })

/-- `listSequences`, from a tick; the pages that it hands over follow those that a consumer was handed before. -/
def listSequences (fuel : Nat) (backend : Backend) (tick : Nat) (pages : List PageEvent) :
    Option ((Listed × Backend) × Nat × List PageEvent) :=
  if backend.socket then
    (attempts reply call fuel maxStaleRetries { tick := tick, delivered := pages }).map fun (e, s) =>
      (conclude backend e s, s.tick, s.delivered)
  else some ((⟨[], false, false, "not connected"⟩, backend), tick, pages)

end

/-! ## The contract of the server -/

/-- What the tokens of a server mean, and the rows of its generations. -/
structure Catalogs where
  rows : String → Option WireFilter → List MappedSequence
  cursor : String → Option (String × Option WireFilter × List MappedSequence)

/-- What follows a page: nothing, or a token for the rest of the generation. A page that is followed has rows. -/
def Catalogs.Next (cats : Catalogs) (response : ListFilesResponse) (generation : String)
    (filter : Option WireFilter) (rest : List MappedSequence) : Prop :=
  if response.nextPageToken = "" then rest = []
  else cats.cursor response.nextPageToken = some (generation, filter, rest) ∧ response.files ≠ []

/-- The cursor contract. Any request may be left without a reply, refused or found stale. -/
structure Obeys (reply : Nat → ListRequest → Reply) (cats : Catalogs) : Prop where
  first : ∀ n request response, reply n request = .listFiles response → request.pageToken = "" →
    (request.expectedGeneration ≠ "" → response.catalogGeneration = request.expectedGeneration) ∧
    ∃ rest, mapListFilesResponse response ++ rest = cats.rows response.catalogGeneration request.filter ∧
      cats.Next response response.catalogGeneration request.filter rest
  later : ∀ n request response generation rows, reply n request = .listFiles response →
    request.pageToken ≠ "" → cats.cursor request.pageToken = some (generation, request.filter, rows) →
    ∃ rest, mapListFilesResponse response ++ rest = rows ∧ cats.Next response generation request.filter rest

variable {reply : Nat → ListRequest → Reply} {call : Call} {cats : Catalogs} {s s' : Sweep} {e : PageEnd}
  {response : ListFilesResponse} {generation : String} {read rest : List MappedSequence}

/-! ## One page -/

def replay (events : List PageEvent) : List SequenceInfo :=
  events.foldl (fun shown event => if event.reset then event.page else shown ++ event.page) []

lemma replay_append {events : List PageEvent} {event : PageEvent} :
    replay (events ++ [event]) = if event.reset then event.page else replay events ++ event.page := by
  unfold replay
  rw [List.foldl_append]
  rfl

/-- The listing has read these rows of a generation, which is that of its filter. -/
structure Holds (call : Call) (read : List MappedSequence) (s : Sweep) : Prop where
  sequences : s.sequences = read.map MappedSequence.info
  fileIds : s.fileIds = addIds (fun _ => none) read
  replay : call.onPage = true → replay s.delivered = s.sequences
  generation : ∀ filter, call.sent = some filter → filter.generation ≠ "" → s.generation = filter.generation

/-- An attempt before its first page. -/
structure AtStart (s : Sweep) : Prop where
  pageToken : s.pageToken = ""
  reset : s.resetConsumer = true
  sequences : s.sequences = []
  fileIds : s.fileIds = fun _ => none

/-- An attempt between two pages. -/
structure Between (cats : Catalogs) (call : Call) (rest : List MappedSequence) (s : Sweep) : Prop where
  pageToken : s.pageToken ≠ ""
  cursor : cats.cursor s.pageToken = some (s.generation, call.ids, rest)
  reset : call.onPage = true → s.resetConsumer = false
  holds : ∃ read, Holds call read s ∧ read ++ rest = cats.rows s.generation call.ids

/-- A listing that has been read to its end. -/
def Whole (cats : Catalogs) (call : Call) (s : Sweep) : Prop :=
  Holds call (cats.rows s.generation call.ids) s

lemma addIds_append {ids : String → Option Nat} {rows rows' : List MappedSequence} :
    addIds (addIds ids rows) rows' = addIds ids (rows ++ rows') := by
  unfold addIds
  rw [List.foldl_append]

lemma of_next {read : List MappedSequence} (holds : Holds call (read ++ mapListFilesResponse response) s)
    (all : read ++ mapListFilesResponse response ++ rest = cats.rows s.generation call.ids)
    (token : s.pageToken = response.nextPageToken) (reset : call.onPage = true → s.resetConsumer = false)
    (next : cats.Next response s.generation call.ids rest) :
    (response.nextPageToken = "" → Whole cats call s) ∧
      (response.nextPageToken ≠ "" → Between cats call rest s ∧ response.files ≠ []) := by
  unfold Catalogs.Next at next
  constructor
  · intro last
    rw [if_pos last] at next
    rw [next, List.append_nil] at all
    unfold Whole
    rw [← all]
    exact holds
  · intro more
    rw [if_neg more, ← token] at next
    exact ⟨⟨by rw [token]; exact more, next.1, reset, _, holds, all⟩, next.2⟩

lemma AtStart.take {n : Nat} (start : AtStart s) (obeys : Obeys reply cats)
    (replied : reply n (pageRequest call s) = .listFiles response) :
    (response.nextPageToken = "" → Whole cats call (s.take call response)) ∧
      (response.nextPageToken ≠ "" → ∃ rest, Between cats call rest (s.take call response)) := by
  obtain ⟨expected, rest, all, next⟩ := obeys.first _ _ _ replied start.pageToken
  have generation : (s.take call response).generation = response.catalogGeneration := if_pos start.pageToken
  have holds : Holds call ([] ++ mapListFilesResponse response) (s.take call response) := by
    refine ⟨?_, ?_, ?_, ?_⟩
    · dsimp only [Sweep.take]
      rw [start.sequences]
      rfl
    · dsimp only [Sweep.take]
      rw [start.fileIds]
      rfl
    · intro onPage
      dsimp only [Sweep.take]
      rw [if_pos onPage, replay_append, if_pos start.reset, start.sequences, List.nil_append]
    · intro filter sent own
      rw [generation, expected]
      · unfold pageRequest
        dsimp only
        rw [if_pos start.pageToken, sent]
        rfl
      · unfold pageRequest
        dsimp only
        rw [if_pos start.pageToken, sent]
        exact own
  have reset : call.onPage = true → (s.take call response).resetConsumer = false := fun onPage => if_pos onPage
  rw [← generation] at next all
  obtain ⟨last, more⟩ := of_next holds all rfl reset next
  exact ⟨last, fun token => ⟨rest, (more token).1⟩⟩

lemma Between.take {n : Nat} (between : Between cats call rest s) (obeys : Obeys reply cats)
    (replied : reply n (pageRequest call s) = .listFiles response) :
    (response.nextPageToken = "" → Whole cats call (s.take call response)) ∧
      (response.nextPageToken ≠ "" →
        ∃ rest', rest'.length < rest.length ∧ Between cats call rest' (s.take call response)) := by
  obtain ⟨rest', all, next⟩ := obeys.later _ _ _ _ _ replied between.pageToken between.cursor
  obtain ⟨read, ⟨sequences, fileIds, replayed, own⟩, whole⟩ := between.holds
  have generation : (s.take call response).generation = s.generation := if_neg between.pageToken
  have holds : Holds call (read ++ mapListFilesResponse response) (s.take call response) := by
    refine ⟨?_, ?_, ?_, ?_⟩
    · dsimp only [Sweep.take]
      rw [sequences, List.map_append]
    · dsimp only [Sweep.take]
      rw [fileIds, addIds_append]
    · intro onPage
      dsimp only [Sweep.take]
      rw [if_pos onPage, replay_append, between.reset onPage, replayed onPage]
      rfl
    · intro filter sent nonempty
      rw [generation]
      exact own filter sent nonempty
  have reset : call.onPage = true → (s.take call response).resetConsumer = false := fun onPage => if_pos onPage
  rw [← all, ← List.append_assoc, ← generation] at whole
  rw [← generation] at next
  obtain ⟨last, more⟩ := of_next holds whole rfl reset next
  refine ⟨last, fun token => ⟨rest', ?_, (more token).1⟩⟩
  have rows : 0 < (mapListFilesResponse response).length := by
    unfold mapListFilesResponse
    rw [List.length_map]
    exact List.length_pos_iff.mpr (more token).2
  have lengths := congrArg List.length all
  rw [List.length_append] at lengths
  omega

/-! ## A whole listing -/

/-- What a listing that is left with an end has read. -/
def Swept (cats : Catalogs) (call : Call) (e : PageEnd) (s : Sweep) : Prop := e = .exhausted → Whole cats call s

lemma pageStep_cases : (∃ e, (pageStep reply call s).2 = some e ∧ e ≠ .exhausted) ∨
    ∃ response, call.abort s.tick = false ∧ reply (s.tick + 1) (pageRequest call s) = .listFiles response ∧
      pageStep reply call s = (s.take call response, if response.nextPageToken = "" then some .exhausted else none) := by
  unfold pageStep
  split
  · exact .inl ⟨_, rfl, by decide⟩
  · rename_i going
    split
    · exact .inl ⟨_, rfl, by decide⟩
    · refine .inl ⟨_, rfl, ?_⟩
      split <;> decide
    · exact .inl ⟨_, rfl, by intro h; cases h⟩
    · exact .inl ⟨_, rfl, by decide⟩
    · rename_i response replied
      exact .inr ⟨response, by simpa using going, replied, rfl⟩

/-- With enough fuel the loop over the pages is left. -/
def EndsWithin (reply : Nat → ListRequest → Reply) (cats : Catalogs) (call : Call) (n : Nat) (s : Sweep) : Prop :=
  ∃ e s', Swept cats call e s' ∧ ∀ fuel, n ≤ fuel → sweepPages reply call fuel s = some (e, s')

lemma endsWithin_succ {n : Nat}
    (last : ∀ response, reply (s.tick + 1) (pageRequest call s) = .listFiles response →
      response.nextPageToken = "" → Whole cats call (s.take call response))
    (more : ∀ response, reply (s.tick + 1) (pageRequest call s) = .listFiles response →
      response.nextPageToken ≠ "" → EndsWithin reply cats call n (s.take call response)) :
    EndsWithin reply cats call (n + 1) s := by
  obtain ⟨e, ended, other⟩ | ⟨response, -, replied, step⟩ := @pageStep_cases reply call s
  · refine ⟨e, (pageStep reply call s).1, fun same => absurd same other, ?_⟩
    rintro (_ | fuel) enough
    · omega
    · unfold sweepPages
      generalize pageStep reply call s = r at ended
      obtain ⟨s', o⟩ := r
      cases ended
      rfl
  · by_cases token : response.nextPageToken = ""
    · rw [if_pos token] at step
      refine ⟨.exhausted, s.take call response, fun _ => last response replied token, ?_⟩
      rintro (_ | fuel) enough
      · omega
      · rw [sweepPages, step]
    · rw [if_neg token] at step
      obtain ⟨e, s', swept, runs⟩ := more response replied token
      refine ⟨e, s', swept, ?_⟩
      rintro (_ | fuel) enough
      · omega
      · rw [sweepPages, step]
        exact runs fuel (by omega)

lemma EndsWithin.mono {n m : Nat} (ends : EndsWithin reply cats call n s) (le : n ≤ m) :
    EndsWithin reply cats call m s := by
  obtain ⟨e, s', swept, runs⟩ := ends
  exact ⟨e, s', swept, fun fuel enough => runs fuel (by omega)⟩

lemma Between.ends (between : Between cats call rest s) (obeys : Obeys reply cats) :
    EndsWithin reply cats call (rest.length + 1) s := by
  -- each page that is followed by another leaves fewer rows
  induction length : rest.length using Nat.strongRecOn generalizing rest s with
  | ind n ih =>
    apply endsWithin_succ
    · exact fun response replied token => (between.take obeys replied).1 token
    · intro response replied token
      obtain ⟨rest', shorter, between'⟩ := (between.take obeys replied).2 token
      exact (ih rest'.length (by omega) between' rfl).mono (by omega)

lemma AtStart.ends (start : AtStart s) (obeys : Obeys reply cats) : ∃ n, EndsWithin reply cats call n s := by
  have last : ∀ response, reply (s.tick + 1) (pageRequest call s) = .listFiles response →
      response.nextPageToken = "" → Whole cats call (s.take call response) :=
    fun response replied token => (start.take obeys replied).1 token
  by_cases paged : ∃ response, reply (s.tick + 1) (pageRequest call s) = .listFiles response ∧
      response.nextPageToken ≠ ""
  · obtain ⟨response, replied, token⟩ := paged
    obtain ⟨rest, between⟩ := (start.take obeys replied).2 token
    refine ⟨rest.length + 1 + 1, endsWithin_succ last ?_⟩
    intro response' replied' _
    rw [replied] at replied'
    cases replied'
    exact between.ends obeys
  · refine ⟨0 + 1, endsWithin_succ last ?_⟩
    intro response replied token
    exact absurd ⟨response, replied, token⟩ paged

lemma atStart_restart : AtStart s.restart := ⟨rfl, rfl, rfl, rfl⟩

lemma attempts_end (obeys : Obeys reply cats) {retries : Nat} :
    ∃ e s' n, Swept cats call e s' ∧ ∀ fuel, n ≤ fuel → attempts reply call fuel retries s = some (e, s') := by
  induction retries generalizing s with
  | zero =>
    have ends : ∃ n, EndsWithin reply cats call n s.restart := atStart_restart.ends obeys
    obtain ⟨n, e, s', swept, runs⟩ := ends
    exact ⟨e, s', n, swept, runs⟩
  | succ retries ih =>
    have ends : ∃ n, EndsWithin reply cats call n s.restart := atStart_restart.ends obeys
    obtain ⟨n, e, s₁, swept, runs⟩ := ends
    by_cases stale : e = .stale
    · subst stale
      obtain ⟨e, s', m, swept', runs'⟩ := @ih s₁
      refine ⟨e, s', max n m, swept', ?_⟩
      intro fuel enough
      rw [attempts, runs fuel (by omega)]
      exact runs' fuel (by omega)
    · refine ⟨e, s₁, n, swept, ?_⟩
      intro fuel enough
      rw [attempts, runs fuel enough]
      split
      · rename_i same
        cases same
        exact absurd rfl stale
      · rfl

/-- A listing of a generation: its rows, and what the connection keeps of them. -/
structure Lists (cats : Catalogs) (call : Call) (sequences : List SequenceInfo) (backend : Backend) : Prop where
  sequences : sequences = (cats.rows backend.catalogGeneration call.ids).map MappedSequence.info
  fileIds : backend.fileIdByName = addIds (fun _ => none) (cats.rows backend.catalogGeneration call.ids)
  generation : ∀ filter, call.sent = some filter → filter.generation ≠ "" →
    backend.catalogGeneration = filter.generation

/-- A listing ends. If it is complete it is one of a generation, and so are the pages that were handed over; if
not, the connection keeps what it had. -/
lemma listSequences_ends (obeys : Obeys reply cats) (call : Call) (backend : Backend) (tick : Nat)
    (pages : List PageEvent) :
    ∃ listed backend' tick' pages' n,
      (∀ fuel, n ≤ fuel →
        listSequences reply call fuel backend tick pages = some ((listed, backend'), tick', pages')) ∧
      (listed.complete = true → Lists cats call listed.sequences backend' ∧
        (call.onPage = true → replay pages' = listed.sequences)) ∧
      (listed.complete = false → backend' = backend) := by
  by_cases socket : backend.socket = true
  · obtain ⟨e, s', n, swept, runs⟩ := @attempts_end reply call cats
      { tick := tick, delivered := pages } obeys maxStaleRetries
    refine ⟨(conclude backend e s').1, (conclude backend e s').2, s'.tick, s'.delivered, n, ?_, ?_, ?_⟩
    · intro fuel enough
      unfold listSequences
      rw [if_pos socket, runs fuel enough]
      rfl
    · intro complete
      cases e with
      | exhausted =>
        obtain ⟨sequences, fileIds, replayed, generation⟩ := swept rfl
        exact ⟨⟨sequences, fileIds, generation⟩, replayed⟩
      | aborted | noReply | staleFilter | stale | failed => cases complete
    · intro incomplete
      cases e with
      | exhausted => cases incomplete
      | aborted | noReply | staleFilter | stale | failed => rfl
  · refine ⟨⟨[], false, false, "not connected"⟩, backend, tick, pages, 0, ?_, ?_, fun _ => rfl⟩
    · intro fuel _
      unfold listSequences
      rw [if_neg socket]
    · intro complete
      cases complete

/-! ## Supersession -/

/-- The pages that were handed over after the listing was superseded: one at most, and then it still is. -/
structure InTime (superseded : Nat → Bool) (pages : List PageEvent) (tick : Nat) : Prop where
  one : (pages.countP fun event => superseded event.tick) ≤ 1
  late : (pages.countP fun event => superseded event.tick) = 1 → superseded tick = true

variable {superseded : Nat → Bool}

lemma InTime.later {pages : List PageEvent} {tick tick' : Nat} (inTime : InTime superseded pages tick)
    (stays : ∀ n m, n ≤ m → superseded n = true → superseded m = true) (le : tick ≤ tick') :
    InTime superseded pages tick' :=
  ⟨inTime.one, fun late => stays tick tick' le (inTime.late late)⟩

/-- A page is asked for only by a listing that is not superseded, so it is the only one to come too late. -/
lemma pageStep_inTime (abort : call.abort = superseded)
    (stays : ∀ n m, n ≤ m → superseded n = true → superseded m = true)
    (inTime : InTime superseded s.delivered s.tick) :
    InTime superseded (pageStep reply call s).1.delivered (pageStep reply call s).1.tick := by
  unfold pageStep
  split
  · exact inTime.later stays (Nat.le_succ _)
  · rename_i going
    rw [abort] at going
    split
    all_goals try exact inTime.later stays (Nat.le_add_right _ _)
    rename_i response replied
    have none : (s.delivered.countP fun event => superseded event.tick) = 0 := by
      have one := inTime.one
      have late := inTime.late
      by_contra some
      exact going (late (by omega))
    unfold Sweep.take
    dsimp only
    split
    · constructor
      · rw [List.countP_append, none, List.countP_singleton]
        split <;> omega
      · rw [List.countP_append, none, List.countP_singleton]
        dsimp only
        split
        · rename_i late
          exact fun _ => stays _ _ (by omega) late
        · intro absurd
          omega
    · exact inTime.later stays (Nat.le_add_right _ _)

lemma sweepPages_inTime {fuel : Nat} (abort : call.abort = superseded)
    (stays : ∀ n m, n ≤ m → superseded n = true → superseded m = true)
    (inTime : InTime superseded s.delivered s.tick) (run : sweepPages reply call fuel s = some (e, s')) :
    InTime superseded s'.delivered s'.tick := by
  induction fuel generalizing s with
  | zero => cases run
  | succ fuel ih =>
    have step : InTime superseded (pageStep reply call s).1.delivered _ := pageStep_inTime abort stays inTime
    unfold sweepPages at run
    generalize pageStep reply call s = r at step run
    obtain ⟨s₁, o⟩ := r
    cases o with
    | some e =>
      cases run
      exact step
    | none => exact ih step run

lemma attempts_inTime {fuel retries : Nat} (abort : call.abort = superseded)
    (stays : ∀ n m, n ≤ m → superseded n = true → superseded m = true)
    (inTime : InTime superseded s.delivered s.tick)
    (run : attempts reply call fuel retries s = some (e, s')) : InTime superseded s'.delivered s'.tick := by
  induction retries generalizing s with
  | zero => exact sweepPages_inTime (s := s.restart) abort stays inTime run
  | succ retries ih =>
    unfold attempts at run
    split at run
    · rename_i s₁ swept
      exact ih (sweepPages_inTime (s := s.restart) abort stays inTime swept) run
    · exact sweepPages_inTime (s := s.restart) abort stays inTime run

lemma listSequences_inTime {fuel tick tick' : Nat} {backend backend' : Backend} {pages pages' : List PageEvent}
    {listed : Listed} (abort : call.abort = superseded)
    (stays : ∀ n m, n ≤ m → superseded n = true → superseded m = true) (inTime : InTime superseded pages tick)
    (run : listSequences reply call fuel backend tick pages = some ((listed, backend'), tick', pages')) :
    InTime superseded pages' tick' := by
  unfold listSequences at run
  split at run
  · obtain ⟨⟨e, s'⟩, swept, same⟩ := Option.map_eq_some_iff.mp run
    obtain ⟨rfl, rfl⟩ := Prod.mk.inj (Prod.mk.inj same).2
    exact attempts_inTime abort stays inTime swept
  · cases run
    exact inTime

end PjCloud.Browse
