import PjCloud.Builder.Sound
import PjCloud.Lib.Fallible
import PjCloud.Lib.Keyset
import PjCloud.Reader.Counts

/-!
# The query of a listing

`aurynFilterFiles` (`server/internal/catalog/auryn_read.go`) on the tables of a catalog: the clauses of its
`WHERE`, the joins, the order and the limit, and what is made of each row. `QueryError` is the driver, which may
refuse the arguments of a query. `Matches` says in terms of names and of the tags in force what a filter asks
for, and the clauses come to that (`clauses_iff`).
-/

namespace PjCloud.Reader
open Lib Builder

structure TimeWindow where
  startNs : Int
  endNs : Int
  deriving DecidableEq, Repr

structure TagKV where
  key : String
  value : String
  deriving DecidableEq, Repr

structure FilterArgs where
  recordedBetween : Option TimeWindow := none
  topicsAnyOf : List String := []
  tagAll : List TagKV := []
  tagAny : List TagKV := []
  limit : Int := 0
  afterID : Nat := 0
  customerID : Option Nat := none
  siteID : Option Nat := none
  robotID : Option Nat := none
  sourceID : Option Nat := none
  deriving DecidableEq, Repr

structure EffectiveTag where
  key : String
  value : String
  isOverride : Bool
  deriving DecidableEq, Repr

structure FileSummary where
  id : Nat
  s3Key : String
  sizeBytes : Nat
  startTimeNs : Nat
  endTimeNs : Nat
  messageCount : Nat
  chunkCount : Nat
  topicCount : Nat
  tags : List EffectiveTag
  deriving DecidableEq, Repr

/-- `rebuildHiveKey` of the server. -/
def rebuildHiveKey (customer site robot source date filename : String) : String :=
  "customer=" ++ customer ++ "/customer_site=" ++ site ++ "/robot=" ++ robot ++ "/source=" ++ source ++
    "/date=" ++ date ++ "/" ++ filename

abbrev QueryError := FilterArgs → Option String

section
variable (t : Tables)

/-- The rows of the view `tags_effective` for a file. -/
def tagsEffective (id : Nat) : List EffectiveTag :=
  ((t.overridesOf id).filterMap fun tag => tag.value.map fun value => ⟨tag.key, value, true⟩) ++
    (((t.embeddedOf id).filter fun tag => !(t.overridesOf id).any fun o => o.key = tag.key).map fun tag =>
      ⟨tag.key, tag.value, false⟩)

/-- `effectiveTagsDB` -/
def effectiveTags (id : Nat) : List EffectiveTag :=
  (tagsEffective t id).insertionSort fun a b => a.key ≤ b.key

def tagClause (tag : TagKV) (row : EffectiveTag) : Bool :=
  if tag.value = "" then row.key = tag.key else row.key = tag.key && row.value = tag.value

def topicNames (set : Nat) : List String :=
  (t.membersOf set).filterMap fun m => keyOf (t.dict .topic) m.1

/-- The clauses of the query, but for the one on `f.id`. -/
def clauses (args : FilterArgs) (row : FileRow) : Bool :=
  (args.recordedBetween.all fun w =>
    decide (w.startNs ≤ (row.endTimeNs : Int)) && decide ((row.startTimeNs : Int) ≤ w.endNs)) &&
  (args.customerID.all fun id => row.composite.customerId = id) &&
  (args.siteID.all fun id => row.composite.siteId = id) &&
  (args.robotID.all fun id => row.composite.robotId = id) &&
  (args.sourceID.all fun id => row.composite.sourceId = id) &&
  (args.topicsAnyOf.isEmpty || (topicNames t row.topicSetId).any fun name => name ∈ args.topicsAnyOf) &&
  (args.tagAll.all fun tag => (tagsEffective t row.id).any (tagClause tag)) &&
  (args.tagAny.isEmpty || (tagsEffective t row.id).any fun te => args.tagAny.any fun tag => tagClause tag te)

/-- The clause on `f.id`. -/
def afterClause (args : FilterArgs) (row : FileRow) : Bool := args.afterID = 0 || args.afterID < row.id

/-- The names that the joins give a row, where it has them all. -/
def joinDims (row : FileRow) : Option Dims := do
  let customer ← keyOf (t.dict .customer) row.composite.customerId
  let site ← keyOf (t.dict .site) row.composite.siteId
  let robot ← keyOf (t.dict .robot) row.composite.robotId
  let source ← keyOf (t.dict .source) row.composite.sourceId
  some ⟨customer, site.2, robot.2, source, row.composite.date, row.composite.filename⟩

def rowsById : List FileRow := t.files.insertionSort fun a b => a.id ≤ b.id

/-- The rows that the query returns. -/
def selectFiles (args : FilterArgs) (limit : Nat) : List (FileRow × Dims) :=
  ((rowsById t).filterMap fun row =>
    if afterClause args row && clauses t args row then (joinDims t row).map fun dims => (row, dims)
    else none).take (limit + 1)

/-- A row as it is scanned. -/
def scanRow (x : FileRow × Dims) : Except String FileSummary :=
  match decodeCountsBlob x.1.topicCounts with
  | .error e => .error ("auryn filter (file " ++ toString x.1.id ++ "): " ++ e)
  | .ok counts => .ok
    { id := x.1.id
      s3Key := rebuildHiveKey x.2.customer x.2.site x.2.robot x.2.source x.2.date x.2.filename
      sizeBytes := x.1.sizeBytes
      startTimeNs := x.1.startTimeNs
      endTimeNs := x.1.endTimeNs
      messageCount := sumCounts counts
      chunkCount := x.1.chunkCount
      topicCount := (t.membersOf x.1.topicSetId).length
      tags := [] }

def clampLimit (limit : Int) : Nat :=
  if limit ≤ 0 then 200 else if limit > 1000 then 1000 else limit.toNat

def aurynFilterFiles (driver : QueryError) (args : FilterArgs) : Except String (List FileSummary × Bool) :=
  match driver args with
  | some e => .error ("auryn filter query: " ++ e)
  | none =>
    let limit := clampLimit args.limit
    match (selectFiles t args limit).mapM (scanRow t) with
    | .error e => .error e
    | .ok out =>
      .ok ((out.take limit).map fun f => { f with tags := effectiveTags t f.id }, decide (out.length > limit))

/-! ## What a filter asks for -/

/-- The value of a tag that is in force: the override's, or else the embedded one. -/
def tagValue (id : Nat) (key : String) : Option String :=
  match (t.overridesOf id).find? fun tag => tag.key = key with
  | some tag => tag.value
  | none => ((t.embeddedOf id).find? fun tag => tag.key = key).map EmbeddedTag.value

/-- A file has a tag, with the value if one is asked for. -/
def HasTag (id : Nat) (tag : TagKV) : Prop :=
  ∃ value, tagValue t id tag.key = some value ∧ (tag.value = "" ∨ value = tag.value)

/-- A file is what a filter asks for. -/
structure Matches (args : FilterArgs) (row : FileRow) : Prop where
  overlaps : ∀ w, args.recordedBetween = some w → w.startNs ≤ row.endTimeNs ∧ row.startTimeNs ≤ w.endNs
  customer : ∀ id, args.customerID = some id → row.composite.customerId = id
  site : ∀ id, args.siteID = some id → row.composite.siteId = id
  robot : ∀ id, args.robotID = some id → row.composite.robotId = id
  source : ∀ id, args.sourceID = some id → row.composite.sourceId = id
  topics : args.topicsAnyOf ≠ [] → ∃ name ∈ args.topicsAnyOf, name ∈ topicNames t row.topicSetId
  all : ∀ tag ∈ args.tagAll, HasTag t row.id tag
  any : args.tagAny ≠ [] → ∃ tag ∈ args.tagAny, HasTag t row.id tag

end

variable {t : Tables} {args : FilterArgs} {row : FileRow} {id : Nat}

lemma tagValue_iff (sound : SoundTags t) {key value : String} :
    tagValue t id key = some value ↔ ∃ te ∈ tagsEffective t id, te.key = key ∧ te.value = value := by
  unfold tagValue tagsEffective
  cases found : (t.overridesOf id).find? fun tag => tag.key = key with
  | some tag =>
    have own : tag.key = key := by simpa using List.find?_some found
    have inside := List.mem_of_find?_eq_some found
    subst own
    constructor
    · intro holds
      refine ⟨⟨tag.key, value, true⟩, List.mem_append_left _ (List.mem_filterMap.mpr ⟨tag, inside, ?_⟩),
        rfl, rfl⟩
      dsimp only at holds
      rw [holds, Option.map_some]
    · rintro ⟨te, mem, key, rfl⟩
      obtain mem | mem := List.mem_append.mp mem
      · obtain ⟨o, inO, shape⟩ := List.mem_filterMap.mp mem
        obtain ⟨value, has, rfl⟩ := Option.map_eq_some_iff.mp shape
        obtain rfl := List.inj_on_of_nodup_map (nodup_map_filter sound.overrideKeys) inO inside key
        exact has
      · obtain ⟨e, inE, rfl⟩ := List.mem_map.mp mem
        obtain ⟨-, unmasked⟩ := List.mem_filter.mp inE
        simp only [Bool.not_eq_true', List.any_eq_false, decide_eq_true_eq] at unmasked
        exact absurd key.symm (unmasked tag inside)
  | none =>
    rw [List.find?_eq_none] at found
    simp only [decide_eq_true_eq] at found
    rw [Option.map_eq_some_iff]
    constructor
    · rintro ⟨e, hit, rfl⟩
      have own : e.key = key := by simpa using List.find?_some hit
      refine ⟨⟨e.key, e.value, false⟩, List.mem_append_right _ (List.mem_map.mpr ⟨e, ?_, rfl⟩), own, rfl⟩
      refine List.mem_filter.mpr ⟨List.mem_of_find?_eq_some hit, ?_⟩
      simp only [Bool.not_eq_true', List.any_eq_false, decide_eq_true_eq, own]
      exact found
    · rintro ⟨te, mem, rfl, rfl⟩
      obtain mem | mem := List.mem_append.mp mem
      · obtain ⟨o, inO, shape⟩ := List.mem_filterMap.mp mem
        obtain ⟨value, -, rfl⟩ := Option.map_eq_some_iff.mp shape
        exact absurd rfl (found o inO)
      · obtain ⟨e, inE, rfl⟩ := List.mem_map.mp mem
        exact ⟨e, find_of_nodup (nodup_map_filter sound.embeddedKeys) (List.mem_filter.mp inE).1, rfl⟩

lemma tagClause_iff (sound : SoundTags t) {tag : TagKV} :
    (∃ te ∈ tagsEffective t id, tagClause tag te = true) ↔ HasTag t id tag := by
  unfold HasTag tagClause
  simp only [tagValue_iff sound]
  constructor
  · rintro ⟨te, mem, clause⟩
    split at clause
    · rename_i any
      exact ⟨te.value, ⟨te, mem, by simpa using clause, rfl⟩, .inl any⟩
    · simp only [Bool.and_eq_true, decide_eq_true_eq] at clause
      exact ⟨te.value, ⟨te, mem, clause.1, rfl⟩, .inr clause.2⟩
  · rintro ⟨value, ⟨te, mem, key, rfl⟩, asked⟩
    refine ⟨te, mem, ?_⟩
    split
    · simpa using key
    · rename_i named
      obtain any | same := asked
      · exact absurd any named
      · simp [key, same]

lemma clauses_iff (sound : SoundTags t) : clauses t args row = true ↔ Matches t args row := by
  have all : (args.tagAll.all fun tag => (tagsEffective t row.id).any (tagClause tag)) = true ↔
      ∀ tag ∈ args.tagAll, HasTag t row.id tag := by
    simp only [List.all_eq_true, List.any_eq_true, tagClause_iff sound]
  have any : (args.tagAny.isEmpty || (tagsEffective t row.id).any fun te =>
      args.tagAny.any fun tag => tagClause tag te) = true ↔
      (args.tagAny ≠ [] → ∃ tag ∈ args.tagAny, HasTag t row.id tag) := by
    simp only [Bool.or_eq_true, List.isEmpty_iff, List.any_eq_true, ← tagClause_iff sound]
    constructor
    · rintro (empty | ⟨te, mem, tag, asked, clause⟩) some
      · exact absurd empty some
      · exact ⟨tag, asked, te, mem, clause⟩
    · intro found
      by_cases empty : args.tagAny = []
      · exact .inl empty
      · obtain ⟨tag, asked, te, mem, clause⟩ := found empty
        exact .inr ⟨te, mem, tag, asked, clause⟩
  have topics : (args.topicsAnyOf.isEmpty ||
      (topicNames t row.topicSetId).any fun name => name ∈ args.topicsAnyOf) = true ↔
      (args.topicsAnyOf ≠ [] → ∃ name ∈ args.topicsAnyOf, name ∈ topicNames t row.topicSetId) := by
    simp only [Bool.or_eq_true, List.isEmpty_iff, List.any_eq_true, decide_eq_true_eq]
    constructor
    · rintro (empty | ⟨name, has, asked⟩) some
      · exact absurd empty some
      · exact ⟨name, asked, has⟩
    · intro found
      by_cases empty : args.topicsAnyOf = []
      · exact .inl empty
      · obtain ⟨name, asked, has⟩ := found empty
        exact .inr ⟨name, has, asked⟩
  unfold clauses
  simp only [Bool.and_eq_true, all, any, topics, Option.all_eq_true, decide_eq_true_eq]
  constructor
  · rintro ⟨⟨⟨⟨⟨⟨⟨overlaps, customer⟩, site⟩, robot⟩, source⟩, topics⟩, all⟩, any⟩
    exact ⟨overlaps, customer, site, robot, source, topics, all, any⟩
  · rintro ⟨overlaps, customer, site, robot, source, topics, all, any⟩
    exact ⟨⟨⟨⟨⟨⟨⟨overlaps, customer⟩, site⟩, robot⟩, source⟩, topics⟩, all⟩, any⟩

/-! ## The rows of a page -/

/-- Tables that the server can read. -/
structure Readable (t : Tables) : Prop where
  ids : (t.files.map FileRow.id).Nodup
  positive : ∀ row ∈ t.files, 0 < row.id
  bounded : ∀ row ∈ t.files, row.id < 2 ^ 64
  joined : ∀ row ∈ t.files, (joinDims t row).isSome
  counts : ∀ row ∈ t.files, ∃ counts, decodeCountsBlob row.topicCounts = .ok counts
  tags : SoundTags t

/-- What the server says of a row that it can read. -/
def summary (t : Tables) (row : FileRow) : FileSummary :=
  let dims := (joinDims t row).getD ⟨"", "", "", "", "", ""⟩
  { id := row.id
    s3Key := rebuildHiveKey dims.customer dims.site dims.robot dims.source dims.date dims.filename
    sizeBytes := row.sizeBytes
    startTimeNs := row.startTimeNs
    endTimeNs := row.endTimeNs
    messageCount := sumCounts ((decodeCountsBlob row.topicCounts).toOption.getD [])
    chunkCount := row.chunkCount
    topicCount := (t.membersOf row.topicSetId).length
    tags := effectiveTags t row.id }

def matching (t : Tables) (args : FilterArgs) : List FileRow := (rowsById t).filter (clauses t args)

lemma mem_rowsById : row ∈ rowsById t ↔ row ∈ t.files := List.mem_insertionSort _

lemma rowsById_sorted (readable : Readable t) : (rowsById t).Pairwise fun a b => a.id < b.id := by
  have sorted : (rowsById t).Pairwise fun a b => a.id ≤ b.id := List.pairwise_insertionSort _ _
  have nodup : ((rowsById t).map FileRow.id).Nodup :=
    ((List.perm_insertionSort _ t.files).map FileRow.id).nodup_iff.mpr readable.ids
  have distinct : (rowsById t).Pairwise fun a b => a.id ≠ b.id := List.pairwise_map.mp nodup
  exact sorted.imp₂ (fun _ _ le ne => Nat.lt_of_le_of_ne le ne) distinct

lemma scanRow_eq (readable : Readable t) (mem : row ∈ t.files) {dims : Dims}
    (joined : joinDims t row = some dims) :
    scanRow t (row, dims) = .ok { summary t row with tags := [] } := by
  obtain ⟨counts, decoded⟩ := readable.counts row mem
  simp only [scanRow, summary, decoded, joined, Option.getD_some]
  rfl

lemma select_scan (readable : Readable t) {limit : Nat} :
    (selectFiles t args limit).mapM (scanRow t) =
      .ok ((((matching t args).filter (afterClause args)).take (limit + 1)).map fun row =>
        { summary t row with tags := [] }) := by
  have shape : ((rowsById t).filterMap fun row =>
      if afterClause args row && clauses t args row then (joinDims t row).map fun dims => (row, dims)
      else none) =
      ((matching t args).filter (afterClause args)).map fun row =>
        (row, (joinDims t row).getD ⟨"", "", "", "", "", ""⟩) := by
    rw [matching, List.filter_filter, ← List.filterMap_eq_map, ← List.filterMap_eq_filter,
      List.filterMap_filterMap]
    apply List.filterMap_congr
    intro row mem
    obtain ⟨dims, joined⟩ := Option.isSome_iff_exists.mp (readable.joined row (mem_rowsById.mp mem))
    by_cases chosen : (afterClause args row && clauses t args row) = true
    · simp [chosen, joined, Option.guard]
    · simp [chosen, Option.guard]
  rw [selectFiles, shape, ← List.map_take, mapM_ok (g := fun x => { summary t x.1 with tags := [] }),
    List.map_map]
  · rfl
  · intro x mem
    obtain ⟨row, taken, rfl⟩ := List.mem_map.mp mem
    have chosen := (List.mem_filter.mp (List.mem_of_mem_take taken)).1
    have inside := mem_rowsById.mp (List.mem_filter.mp chosen).1
    obtain ⟨dims, joined⟩ := Option.isSome_iff_exists.mp (readable.joined row inside)
    rw [joined, Option.getD_some]
    exact scanRow_eq readable inside joined

lemma aurynFilterFiles_eq (readable : Readable t) {driver : QueryError} (accepted : driver args = none)
    {rest : List FileRow} (cut : Cut FileRow.id (matching t args) args.afterID rest) :
    aurynFilterFiles t driver args = .ok ((rest.take (clampLimit args.limit)).map (summary t),
      decide (clampLimit args.limit < rest.length)) := by
  have after : (matching t args).filter (afterClause args) = rest := by
    rw [← cut.filter]
    apply List.filter_congr
    intro row mem
    have positive := readable.positive row (mem_rowsById.mp (List.mem_filter.mp mem).1)
    unfold afterClause
    by_cases first : args.afterID = 0
    · simp [first, positive]
    · simp [first]
  unfold aurynFilterFiles
  rw [accepted]
  dsimp only
  rw [select_scan readable, after]
  simp only [← List.map_take, List.map_map, List.take_take, List.length_map, List.length_take]
  congr 2
  · rw [Nat.min_eq_left (Nat.le_succ _)]
    rfl
  · rw [decide_eq_decide]
    omega

end PjCloud.Reader
