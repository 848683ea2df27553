import PjCloud.Reader.Cursor
import PjCloud.Reader.Filter

/-!
# Listing the files

`ListFiles` (`server/internal/ws/handlers_catalog.go`) on a leased generation, and a client that follows
`next_page_token` from the first page to the last. `Libraries` are base64, the protobuf marshaler and the SQL
driver.
-/

namespace PjCloud.Reader
open Lib Builder

structure FileFilter where
  recordedBetween : Option TimeWindow := none
  topicsAnyOf : List String := []
  tagAll : List TagKV := []
  tagAny : List TagKV := []
  customerId : Option Nat := none
  siteId : Option Nat := none
  robotId : Option Nat := none
  sourceId : Option Nat := none
  deriving DecidableEq, Repr

structure ListFilesRequest where
  filter : Option FileFilter := none
  limit : Nat := 0
  pageToken : String := ""
  expectedCatalogGeneration : List UInt8 := []

structure ListFilesResponse where
  files : List FileSummary
  metadata : List (String × List (String × String))
  nextPageToken : String
  catalogGeneration : List UInt8

/-- The errors of `ListFiles`. -/
inductive ListError where
  | generationRequired
  | badPageToken (reason : String)
  | staleCatalog
  | query (text : String)
  deriving DecidableEq, Repr

/-- `Error()` -/
def ListError.text : ListError → String
  | .generationRequired =>
    "filter carries dimension ids but no expected_catalog_generation " ++
      "(echo GetVocabularyResponse.catalog_generation)"
  | .badPageToken reason => "invalid page_token: " ++ reason
  | .staleCatalog =>
    "catalog generation changed (a rebuild renumbered the ids); re-fetch the vocabulary and restart the listing"
  | .query text => "filter: " ++ text

/-- The codes that `handleListFiles` sends. -/
inductive ErrorCode where
  | invalidRequest
  | staleCatalog
  deriving DecidableEq, Repr

/-- The code, the message and the details of an error as `handleListFiles` sends it. -/
def ListError.send (e : ListError) : ErrorCode × String × String :=
  match e with
  | .staleCatalog => (.staleCatalog, e.text, "")
  | _ => (.invalidRequest, "ListFiles failed", e.text)

/-- The libraries of the server. -/
structure Libraries where
  base64 : Base64
  marshal : FileFilter → Option (List UInt8)
  driver : QueryError

def fnv64a (bytes : List UInt8) : UInt64 :=
  bytes.foldl (fun h b => (h ^^^ b.toUInt64) * 1099511628211) 14695981039346656037

def filterHash (lib : Libraries) (filter : Option FileFilter) : UInt64 :=
  fnv64a ((filter.bind lib.marshal).getD [])

def filterHasDimensionIDs (filter : Option FileFilter) : Bool :=
  filter.any fun f => f.customerId.isSome || f.siteId.isSome || f.robotId.isSome || f.sourceId.isSome

/-- The arguments of the query for a filter. -/
def filterArgs (filter : Option FileFilter) (limit afterID : Nat) : FilterArgs :=
  match filter with
  | none => { limit, afterID }
  | some f =>
    { recordedBetween := f.recordedBetween
      topicsAnyOf := f.topicsAnyOf
      tagAll := f.tagAll
      tagAny := f.tagAny
      limit, afterID
      customerID := f.customerId
      siteID := f.siteId
      robotID := f.robotId
      sourceID := f.sourceId }

def putEntry (entries : List (String × String)) (key value : String) : List (String × String) :=
  entries.filter (fun e => e.1 ≠ key) ++ [(key, value)]

def flatMetadata (s : FileSummary) : List (String × String) :=
  s.tags.foldl (fun entries tag => putEntry entries tag.key tag.value)
    [("s3_key", s.s3Key),
      ("size_bytes", toString s.sizeBytes),
      ("message_count", toString s.messageCount),
      ("topic_count", toString s.topicCount),
      ("chunk_count", toString s.chunkCount),
      ("duration_ns", toString ((s.endTimeNs : Int) - s.startTimeNs)),
      ("start_ns", toString s.startTimeNs),
      ("end_ns", toString s.endTimeNs)]

section
variable (lib : Libraries) (t : Tables) (gen : List UInt8)

/-- The checks of the generation and of the token: the position, or the error. -/
def position (req : ListFilesRequest) : Except ListError Nat :=
  let expected := req.expectedCatalogGeneration
  if filterHasDimensionIDs req.filter = true ∧ expected = [] ∧ req.pageToken = "" then .error .generationRequired
  else if req.pageToken ≠ "" then
    match decodeListCursor lib.base64 req.pageToken with
    | .error e => .error (.badPageToken e)
    | .ok cur =>
      if expected ≠ [] ∧ expected ≠ cur.gen then
        .error (.badPageToken "page_token and expected_catalog_generation disagree")
      else if cur.filterHash ≠ filterHash lib req.filter then
        .error (.badPageToken "page_token was minted for a different filter")
      else if cur.gen ≠ gen then .error .staleCatalog
      else .ok cur.afterID.toNat
  else if expected ≠ [] ∧ expected ≠ gen then .error .staleCatalog
  else .ok 0

def listFiles (req : ListFilesRequest) : Except ListError ListFilesResponse :=
  match position lib gen req with
  | .error e => .error e
  | .ok afterID =>
    match aurynFilterFiles t lib.driver (filterArgs req.filter req.limit afterID) with
    | .error e => .error (.query e)
    | .ok (files, more) => .ok
      { files
        metadata := files.map fun f => (toString f.id, flatMetadata f)
        nextPageToken :=
          match files.getLast? with
          | some last =>
            if more then encodeListCursor lib.base64 ⟨gen, UInt64.ofNat last.id, filterHash lib req.filter⟩ else ""
          | none => ""
        catalogGeneration := gen }

/-- The requests of a client that follows the tokens: the filter, and the limit and the generation that it
expects for each page. -/
structure Walk where
  filter : Option FileFilter
  limits : Nat → Nat
  expected : Nat → List UInt8

def Walk.request (w : Walk) (page : Nat) (tok : String) : ListFilesRequest :=
  ⟨w.filter, w.limits page, tok, w.expected page⟩

/-- The files of the pages from one on, or none if they have not ended with the fuel. -/
def follow (w : Walk) : Nat → Nat → String → Except ListError (Option (List FileSummary))
  | 0, _, _ => .ok none
  | fuel + 1, page, tok =>
    match listFiles lib t gen (w.request page tok) with
    | .error e => .error e
    | .ok resp =>
      if resp.nextPageToken = "" then .ok (some resp.files)
      else
        match follow w fuel (page + 1) resp.nextPageToken with
        | .error e => .error e
        | .ok more => .ok (more.map (resp.files ++ ·))

end

/-! ## The pages -/

def wanted (t : Tables) (filter : Option FileFilter) : List FileRow := matching t (filterArgs filter 0 0)

def mint (lib : Libraries) (gen : List UInt8) (afterID : UInt64) (filter : Option FileFilter) : String :=
  encodeListCursor lib.base64 ⟨gen, afterID, filterHash lib filter⟩

/-- A position that a page can start at. -/
def IsPosition (t : Tables) (after : Nat) : Prop := after = 0 ∨ ∃ row ∈ t.files, row.id = after

/-- The requests of a walk through a generation: each names the generation or none, the first one names it if
the filter has ids of dimensions, and the driver takes their queries. -/
structure Walk.Asks (w : Walk) (lib : Libraries) (t : Tables) (gen : List UInt8) : Prop where
  expected : ∀ page, w.expected page = [] ∨ w.expected page = gen
  dimensions : filterHasDimensionIDs w.filter = true → w.expected 0 = gen
  accepted : ∀ page after, IsPosition t after →
    lib.driver (filterArgs w.filter (w.limits page) after) = none

variable {lib : Libraries} {t : Tables} {gen gen' : List UInt8} {w : Walk} {rest : List FileRow}
  {filter : Option FileFilter} {req : ListFilesRequest} {afterID : UInt64} {after : Nat}

lemma matching_filterArgs {limit after : Nat} : matching t (filterArgs filter limit after) = wanted t filter := by
  cases filter <;> rfl

lemma filterArgs_page {limit after : Nat} :
    (filterArgs filter limit after).afterID = after ∧ (filterArgs filter limit after).limit = limit := by
  cases filter <;> exact ⟨rfl, rfl⟩

lemma clampLimit_pos {limit : Int} : 0 < clampLimit limit := by
  unfold clampLimit
  split
  · decide
  · split
    · decide
    · omega

lemma wanted_sorted (readable : Readable t) : (wanted t filter).Pairwise fun a b => a.id < b.id :=
  (rowsById_sorted readable).filter _

lemma mem_wanted (readable : Readable t) {row : FileRow} :
    row ∈ wanted t filter ↔ row ∈ t.files ∧ Matches t (filterArgs filter 0 0) row := by
  rw [wanted, matching, List.mem_filter, mem_rowsById, clauses_iff readable.tags]

lemma decode_mint (lawful : lib.base64.Lawful) (short : gen.length < 256) :
    decodeListCursor lib.base64 (mint lib gen afterID filter) = .ok ⟨gen, afterID, filterHash lib filter⟩ :=
  (decode_encode_iff lawful).mpr short

lemma mint_ne_empty (lawful : lib.base64.Lawful) : mint lib gen afterID filter ≠ "" :=
  encodeListCursor_ne_empty lawful

lemma position_of_mint (lawful : lib.base64.Lawful) (short : gen'.length < 256)
    (token : req.pageToken = mint lib gen' afterID filter) :
    position lib gen req =
      if req.expectedCatalogGeneration ≠ [] ∧ req.expectedCatalogGeneration ≠ gen' then
        .error (.badPageToken "page_token and expected_catalog_generation disagree")
      else if filterHash lib filter ≠ filterHash lib req.filter then
        .error (.badPageToken "page_token was minted for a different filter")
      else if gen' ≠ gen then .error .staleCatalog
      else .ok afterID.toNat := by
  have some : req.pageToken ≠ "" := by
    rw [token]
    exact mint_ne_empty lawful
  unfold position
  rw [if_neg (by rintro ⟨-, -, empty⟩; exact some empty), if_pos some, token, decode_mint lawful short]

lemma listFiles_of_error {e : ListError} (failed : position lib gen req = .error e) :
    listFiles lib t gen req = .error e := by
  rw [listFiles, failed]

lemma Walk.Asks.first (asks : w.Asks lib t gen) (named : gen ≠ []) :
    position lib gen (w.request 0 "") = .ok 0 := by
  unfold position Walk.request
  dsimp only
  have known : ¬ (filterHasDimensionIDs w.filter = true ∧ w.expected 0 = [] ∧ "" = "") := by
    rintro ⟨dims, none, -⟩
    rw [asks.dimensions dims] at none
    exact named none
  have agrees : ¬ (w.expected 0 ≠ [] ∧ w.expected 0 ≠ gen) := by
    rintro ⟨some, other⟩
    obtain none | same := asks.expected 0
    · exact some none
    · exact other same
  rw [if_neg known, if_neg (not_not_intro rfl), if_neg agrees]

lemma Walk.Asks.later (asks : w.Asks lib t gen) (lawful : lib.base64.Lawful) (short : gen.length < 256)
    {page : Nat} : position lib gen (w.request page (mint lib gen afterID w.filter)) = .ok afterID.toNat := by
  have agrees : ¬ (w.expected page ≠ [] ∧ w.expected page ≠ gen) := by
    rintro ⟨some, other⟩
    obtain none | same := asks.expected page
    · exact some none
    · exact other same
  rw [position_of_mint lawful short rfl, Walk.request]
  dsimp only
  rw [if_neg agrees, if_neg (not_not_intro rfl), if_neg (not_not_intro rfl)]

lemma listFiles_page (readable : Readable t)
    (accepted : lib.driver (filterArgs req.filter req.limit after) = none)
    (starts : position lib gen req = .ok after) (cut : Cut FileRow.id (wanted t req.filter) after rest) :
    ∃ resp, listFiles lib t gen req = .ok resp ∧
      resp.files = (rest.take (clampLimit req.limit)).map (summary t) ∧
      (rest.length ≤ clampLimit req.limit → resp.nextPageToken = "") ∧
      (clampLimit req.limit < rest.length → ∃ last,
        (rest.take (clampLimit req.limit)).getLast? = some last ∧
        resp.nextPageToken = mint lib gen (UInt64.ofNat last.id) req.filter) := by
  have room : 0 < clampLimit (req.limit : Int) := clampLimit_pos
  have cut' : Cut FileRow.id (matching t (filterArgs req.filter req.limit after))
      (filterArgs req.filter req.limit after).afterID rest := by
    rw [matching_filterArgs, filterArgs_page.1]
    exact cut
  have selected := aurynFilterFiles_eq readable accepted cut'
  rw [filterArgs_page.2] at selected
  refine ⟨_, by rw [listFiles, starts]; dsimp only; rw [selected], rfl, ?_, ?_⟩
  · intro all
    dsimp only
    rw [decide_eq_false (by omega)]
    split <;> rfl
  · intro more
    have front : rest.take (clampLimit req.limit) ≠ [] := by
      intro empty
      have := congrArg List.length empty
      rw [List.length_take, List.length_nil] at this
      omega
    refine ⟨_, List.getLast?_eq_some_getLast front, ?_⟩
    dsimp only
    rw [List.getLast?_map, List.getLast?_eq_some_getLast front, decide_eq_true more]
    rfl

lemma follow_rest (lawful : lib.base64.Lawful) (readable : Readable t) (short : gen.length < 256)
    (asks : w.Asks lib t gen) : ∀ {fuel page after : Nat} {tok : String} {rest : List FileRow},
      rest.length < fuel → IsPosition t after → position lib gen (w.request page tok) = .ok after →
      Cut FileRow.id (wanted t w.filter) after rest →
        follow lib t gen w fuel page tok = .ok (some (rest.map (summary t))) := by
  intro fuel
  -- on the fuel: a page takes away at least one file
  induction fuel with
  | zero =>
    intro page after tok rest bound
    exact absurd bound (Nat.not_lt_zero _)
  | succ fuel ih =>
    intro page after tok rest bound known starts cut
    have room : 0 < clampLimit (w.limits page : Int) := clampLimit_pos
    obtain ⟨resp, answered, files, final, more⟩ :=
      listFiles_page readable (asks.accepted page after known) starts cut
    rw [follow, answered]
    dsimp only
    by_cases fits : rest.length ≤ clampLimit (w.limits page : Int)
    · rw [if_pos (final fits), files]
      congr 3
      exact List.take_of_length_le fits
    · obtain ⟨last, isLast, token⟩ := more (Nat.lt_of_not_le fits)
      have inside : last ∈ t.files := by
        obtain ⟨done, whole, -⟩ := cut.split
        have mem : last ∈ wanted t w.filter := by
          rw [whole]
          exact List.mem_append_right _ (List.mem_of_mem_take (List.mem_of_getLast? isLast))
        exact ((mem_wanted readable).mp mem).1
      have id : (UInt64.ofNat last.id).toNat = last.id :=
        UInt64.toNat_ofNat_of_lt' (readable.bounded last inside)
      have next := cut.next (wanted_sorted readable) isLast
      have starts' : position lib gen (w.request (page + 1) (mint lib gen (UInt64.ofNat last.id) w.filter)) =
          .ok (UInt64.ofNat last.id).toNat := asks.later lawful short
      rw [id] at starts'
      have fewer : (rest.drop (clampLimit (w.limits page : Int))).length < fuel := by
        rw [List.length_drop]
        omega
      have token' : resp.nextPageToken = mint lib gen (UInt64.ofNat last.id) w.filter := token
      rw [token', if_neg (mint_ne_empty lawful), ih fewer (.inr ⟨last, inside, rfl⟩) starts' next,
        files]
      simp only [Option.map_some, ← List.map_append]
      congr 3
      exact List.take_append_drop _ _

/-! ## The law of the pages -/

/-- The walk through a generation ends, with the files that the filter asks for, each once and by id. -/
structure Complete (lib : Libraries) (t : Tables) (gen : List UInt8) (w : Walk) : Prop where
  ends : ∀ fuel, t.files.length < fuel →
    follow lib t gen w fuel 0 "" = .ok (some ((wanted t w.filter).map (summary t)))
  ordered : (wanted t w.filter).Pairwise fun a b => a.id < b.id
  exact : ∀ row, row ∈ wanted t w.filter ↔ row ∈ t.files ∧ Matches t (filterArgs w.filter 0 0) row

/-- What becomes of tokens. Filters that are left out and filters without conditions are the same. -/
structure TokensBound (lib : Libraries) (t : Tables) (gen : List UInt8) (used : Set (Option FileFilter)) :
    Prop where
  foreign : ∀ req gen' afterID filter, gen' ≠ gen → gen'.length < 256 →
    req.pageToken = mint lib gen' afterID filter → ∃ e, listFiles lib t gen req = .error e
  stale : ∀ req gen' afterID, gen' ≠ gen → gen'.length < 256 →
    req.pageToken = mint lib gen' afterID req.filter →
    (req.expectedCatalogGeneration = [] ∨ req.expectedCatalogGeneration = gen') →
      ∃ e, listFiles lib t gen req = .error e ∧ e.send.1 = .staleCatalog
  otherFilter : ∀ req gen' afterID filter, filter ∈ used → req.filter ∈ used →
    filter.getD {} ≠ req.filter.getD {} → gen'.length < 256 → req.pageToken = mint lib gen' afterID filter →
      ∃ e, listFiles lib t gen req = .error e ∧ e.send.1 = .invalidRequest
  malformed : ∀ req, req.pageToken ≠ "" →
    (∀ c : ListCursor, c.gen.length < 256 → lib.base64.decodeString req.pageToken ≠ .ok c.bytes) →
      ∃ e, listFiles lib t gen req = .error e ∧ e.send.1 = .invalidRequest
  roundTrip : ∀ c : ListCursor, c.gen.length < 256 →
    decodeListCursor lib.base64 (encodeListCursor lib.base64 c) = .ok c

lemma listFiles_foreign (lawful : lib.base64.Lawful) (other : gen' ≠ gen) (short : gen'.length < 256)
    (token : req.pageToken = mint lib gen' afterID filter) : ∃ e, listFiles lib t gen req = .error e := by
  have checks : position lib gen req = _ := position_of_mint lawful short token
  rw [if_pos other] at checks
  split at checks
  · exact ⟨_, listFiles_of_error checks⟩
  · split at checks
    · exact ⟨_, listFiles_of_error checks⟩
    · exact ⟨_, listFiles_of_error checks⟩

lemma listFiles_stale (lawful : lib.base64.Lawful) (other : gen' ≠ gen) (short : gen'.length < 256)
    (token : req.pageToken = mint lib gen' afterID req.filter)
    (expected : req.expectedCatalogGeneration = [] ∨ req.expectedCatalogGeneration = gen') :
    listFiles lib t gen req = .error .staleCatalog := by
  have agrees : ¬ (req.expectedCatalogGeneration ≠ [] ∧ req.expectedCatalogGeneration ≠ gen') := by
    rintro ⟨present, differs⟩
    obtain none | same := expected
    · exact present none
    · exact differs same
  apply listFiles_of_error
  rw [position_of_mint lawful short token, if_neg agrees, if_neg (not_not_intro rfl), if_pos other]

lemma listFiles_otherFilter (lawful : lib.base64.Lawful) (short : gen'.length < 256)
    (token : req.pageToken = mint lib gen' afterID filter)
    (hashes : filterHash lib filter ≠ filterHash lib req.filter) :
    ∃ e, listFiles lib t gen req = .error e ∧ e.send.1 = .invalidRequest := by
  have checks : position lib gen req = _ := position_of_mint lawful short token
  rw [if_pos hashes] at checks
  split at checks
  · exact ⟨_, listFiles_of_error checks, rfl⟩
  · exact ⟨_, listFiles_of_error checks, rfl⟩

lemma listFiles_malformed (some : req.pageToken ≠ "")
    (malformed : ∀ c : ListCursor, c.gen.length < 256 →
      lib.base64.decodeString req.pageToken ≠ .ok c.bytes) :
    ∃ e, listFiles lib t gen req = .error e ∧ e.send.1 = .invalidRequest := by
  cases decoded : decodeListCursor lib.base64 req.pageToken with
  | ok c =>
    obtain ⟨raw, fits⟩ := decodeListCursor_iff.mp decoded
    exact absurd raw (malformed c fits)
  | error e =>
    have checks : position lib gen req = .error (.badPageToken e) := by
      unfold position
      rw [if_neg (by rintro ⟨-, -, empty⟩; exact some empty), if_pos some, decoded]
    exact ⟨_, listFiles_of_error checks, rfl⟩

def latin1 : Base64 where
  encodeToString bytes := String.ofList (bytes.map fun b => Char.ofNat b.toNat)
  decodeString tok := .ok (tok.toList.map fun c => UInt8.ofNat c.toNat)

lemma latin1_lawful : latin1.Lawful where
  decode_encode bytes := by
    have number : ∀ n : Fin 256, UInt8.ofNat (Char.ofNat n).toNat = UInt8.ofNat n := by decide +kernel
    have byte (b : UInt8) : UInt8.ofNat (Char.ofNat b.toNat).toNat = b := by
      rw [number ⟨b.toNat, b.toNat_lt⟩, UInt8.ofNat_toNat]
    simp only [latin1, String.toList_ofList, List.map_map]
    congr 1
    exact List.map_id'' byte bytes
  decode_empty := rfl

/-- Libraries with this encoding, and a driver that refuses ids above those of SQLite. -/
def smallLibraries : Libraries where
  base64 := latin1
  marshal _ := some []
  driver args := if args.afterID < 2 ^ 63 then none else some "uint64 values with high bit set are not supported"

/-- A row of the catalog. -/
def smallRow (id : Nat) (filename : String) : FileRow where
  id := id
  composite := ⟨1, 1, 1, 1, "2026-01-01", filename⟩
  etag := "e"
  sizeBytes := 10
  lastModifiedNs := 0
  catalogedAtNs := 0
  startTimeNs := 5
  endTimeNs := 9
  chunkCount := 1
  topicSetId := 1
  topicCounts := [3]
  hasError := false

/-- Three files. The tag of the second one is masked. -/
def smallCatalog : Tables where
  dict
    | .customer => [(1, "acme")]
    | .site => [(1, (1, "hq"))]
    | .robot => [(1, (1, "r1"))]
    | .source => [(1, "cam")]
    | .topic => [(1, "/tf")]
    | .schema => [(1, ("tf", "ros2msg"))]
    | .topicSet => [(1, "f")]
  members := [⟨1, 1, 1⟩]
  files := [smallRow 3 "c.mcap", smallRow 1 "a.mcap", smallRow 2 "b.mcap"]
  tagsEmbedded := [⟨1, "run", "7"⟩, ⟨2, "run", "7"⟩, ⟨3, "run", "7"⟩]
  tagsOverride := [⟨2, "run", none, 0⟩]

lemma smallCatalog_readable : Readable smallCatalog where
  ids := by decide
  positive := by decide
  bounded := by decide
  joined := by decide
  counts := by
    intro row mem
    refine ⟨[3], ?_⟩
    have same : ∀ row ∈ smallCatalog.files, row.topicCounts = [3] := by decide
    rw [same row mem]
    rfl
  tags := ⟨by decide, by decide, by decide, by decide⟩

/-- The files with a tag, one on a page. -/
def smallWalk : Walk where
  filter := some { tagAll := [⟨"run", ""⟩] }
  limits _ := 1
  expected _ := []

end PjCloud.Reader
