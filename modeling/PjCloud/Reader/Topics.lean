import Mathlib.Algebra.Order.BigOperators.Group.List
import PjCloud.Builder.History
import PjCloud.Reader.Keys

/-!
# The topics of a file

`aurynGetFile` and `aurynListTopicsForFile` (`server/internal/catalog/auryn_read.go`), and their agreement with
the builder. The counts of a row are aligned with the members of its topic set, in the order of the topic ids; the
set may be one that another file brought. In every run of the writer a cataloged file lists the topics of the
summary that it was cataloged with (`topics_agree`).
-/

namespace PjCloud.Reader
open Lib Builder

structure TopicRecord where
  name : String
  schemaName : String
  schemaEncoding : String
  messageCount : Nat
  deriving DecidableEq, Repr

/-- The fields of `FileRecord` that are filled. -/
structure FileRecord where
  id : Nat
  s3Key : String
  s3ETag : String
  sizeBytes : Nat
  startTimeNs : Nat
  endTimeNs : Nat
  chunkCount : Nat
  messageCount : Nat
  deriving DecidableEq, Repr

/-- The errors of `aurynGetFile`. -/
inductive FileError where
  | notFound
  | other (text : String)
  deriving DecidableEq, Repr

/-- Where the driver can fail. -/
inductive ReadStep where
  | fileRow
  | members
  | member
  | rows
  deriving DecidableEq, Repr

abbrev ReadErrors := ReadStep → Option String

section
variable (t : Tables) (driver : ReadErrors)

def fileRow (id : Nat) : Option FileRow := t.files.find? fun row => row.id = id

def aurynGetFile (id : Nat) : Except FileError FileRecord :=
  match driver .fileRow with
  | some e => .error (.other ("auryn get file " ++ toString id ++ ": " ++ e))
  | none =>
    match (fileRow t id).bind fun row => (joinDims t row).map fun dims => (row, dims) with
    | none => .error .notFound
    | some (row, dims) =>
      match decodeCountsBlob row.topicCounts with
      | .error e => .error (.other ("auryn get file " ++ toString id ++ ": " ++ e))
      | .ok counts => .ok
        { id := id
          s3Key := rebuildHiveKey dims.customer dims.site dims.robot dims.source dims.date dims.filename
          s3ETag := row.etag
          sizeBytes := row.sizeBytes
          startTimeNs := row.startTimeNs
          endTimeNs := row.endTimeNs
          chunkCount := row.chunkCount
          messageCount := sumCounts counts }

/-- The names of a member, where it has them. -/
def joinMember (m : Nat × Nat) : Option (String × String × String) := do
  let name ← keyOf (t.dict .topic) m.1
  let schema ← keyOf (t.dict .schema) m.2
  some (name, schema.1, schema.2)

def scanTopics : List (String × String × String) → List Nat → List TopicRecord
  | [], _ => []
  | row :: rows, counts => ⟨row.1, row.2.1, row.2.2, counts.headD 0⟩ :: scanTopics rows counts.tail

/-- `aurynListTopicsForFile`. Its sort is only by the names, which are different. -/
def aurynListTopicsForFile (id : Nat) : Except String (List TopicRecord) :=
  let wrap (e : String) : String := "auryn list topics " ++ toString id ++ ": " ++ e
  match driver .fileRow with
  | some e => .error (wrap e)
  | none =>
    match fileRow t id with
    | none => .ok []
    | some row =>
      match decodeCountsBlob row.topicCounts with
      | .error e => .error (wrap e)
      | .ok counts =>
        match driver .members with
        | some e => .error (wrap e)
        | none =>
          let rows := (t.membersOf row.topicSetId).filterMap (joinMember t)
          match (if rows.isEmpty then none else driver .member), driver .rows with
          | some e, _ => .error e
          | none, some e => .error e
          | none, none =>
            if rows.length ≠ counts.length then
              .error (wrap ("topic_set has " ++ toString rows.length ++ " members but topic_counts decodes " ++
                toString counts.length ++ " entries (corrupt catalog)"))
            else .ok ((scanTopics rows counts).insertionSort fun a b => a.name ≤ b.name)

end

/-! ## The topics of channels -/

variable {t : Tables} {cfg : Setup} {channels : List ChannelInfo} {row : FileRow} {summary : Builder.FileSummary}
  {byTopic : ByTopic Nat Nat} {named : ByTopic String (String × String)}

def channelsOf (name : String) (channels : List ChannelInfo) : List ChannelInfo :=
  channels.filter fun ch => ch.topic = name

/-- The records of a file are the topics of its channels: one for each, with the sum of the counts and the schema
of the first channel. -/
structure Describes (channels : List ChannelInfo) (records : List TopicRecord) : Prop where
  once : (records.map TopicRecord.name).Nodup
  topics : ∀ name, name ∈ records.map TopicRecord.name ↔ name ∈ channels.map ChannelInfo.topic
  counts : ∀ r ∈ records, r.messageCount = ((channelsOf r.name channels).map ChannelInfo.messageCount).sum
  schemas : ∀ r ∈ records, ∃ first, (channelsOf r.name channels).head? = some first ∧
    r.schemaName = first.schemaName ∧ r.schemaEncoding = first.schemaEncoding

lemma topicsOf_append {ch : ChannelInfo} : topicsOf (channels ++ [ch]) =
    (topicsOf channels).add ch.topic (ch.schemaName, ch.schemaEncoding) ch.messageCount := by
  unfold topicsOf
  rw [List.foldl_append]
  rfl

lemma names_add {τ σ : Type} [DecidableEq τ] {topics : ByTopic τ σ} {topic x : τ} {schema : σ} {n : Nat} :
    x ∈ (topics.add topic schema n).map Prod.fst ↔ x ∈ topics.map Prod.fst ∨ x = topic := by
  unfold ByTopic.add
  split
  · rename_i there
    have same : (topics.map fun x => if x.1 = topic then (x.1, x.2.1, x.2.2 + n) else x).map Prod.fst =
        topics.map Prod.fst := by
      rw [List.map_map]
      apply List.map_congr_left
      intro y _
      rw [Function.comp_apply]
      split <;> rfl
    rw [same]
    constructor
    · exact .inl
    · rintro (inside | rfl)
      · exact inside
      · obtain ⟨y, mem, own⟩ := List.any_eq_true.mp there
        exact List.mem_map.mpr ⟨y, mem, of_decide_eq_true own⟩
  · rw [List.map_append, List.mem_append, List.map_singleton, List.mem_singleton]

lemma names_topicsOf {name : String} :
    name ∈ (topicsOf channels).map Prod.fst ↔ name ∈ channels.map ChannelInfo.topic := by
  induction channels using List.reverseRecOn with
  | nil => rfl
  | append_singleton channels ch ih =>
    rw [topicsOf_append, names_add, ih, List.map_append, List.mem_append, List.map_singleton,
      List.mem_singleton]

/-- A topic has the schema of its first channel and the counts of all. -/
structure Grouped (channels : List ChannelInfo) (y : String × (String × String) × Nat) : Prop where
  schema : ∃ first, (channelsOf y.1 channels).head? = some first ∧
    y.2.1 = (first.schemaName, first.schemaEncoding)
  count : y.2.2 = ((channelsOf y.1 channels).map ChannelInfo.messageCount).sum

lemma channelsOf_append {name : String} {ch : ChannelInfo} : channelsOf name (channels ++ [ch]) =
    channelsOf name channels ++ if ch.topic = name then [ch] else [] := by
  unfold channelsOf
  rw [List.filter_append]
  congr 1
  by_cases own : ch.topic = name
  · rw [if_pos own, List.filter_eq_self]
    intro x mem
    rw [List.mem_singleton.mp mem]
    exact decide_eq_true own
  · rw [if_neg own, List.filter_eq_nil_iff]
    intro x mem
    rw [List.mem_singleton.mp mem, decide_eq_true_eq]
    exact own

lemma grouped_topicsOf {y : String × (String × String) × Nat} (mem : y ∈ topicsOf channels) :
    Grouped channels y := by
  induction channels using List.reverseRecOn generalizing y with
  | nil => cases mem
  | append_singleton channels ch ih =>
    rw [topicsOf_append] at mem
    unfold ByTopic.add at mem
    split at mem
    · obtain ⟨x, inside, rfl⟩ := List.mem_map.mp mem
      obtain ⟨⟨first, head, schema⟩, count⟩ := ih inside
      by_cases own : x.1 = ch.topic
      · rw [if_pos own]
        refine ⟨⟨first, ?_, schema⟩, ?_⟩
        · rw [channelsOf_append, List.head?_append, head]
          rfl
        · rw [channelsOf_append, if_pos own.symm, List.map_append, List.sum_append, ← count]
          rfl
      · rw [if_neg own]
        refine ⟨⟨first, ?_, schema⟩, ?_⟩
        · rw [channelsOf_append, List.head?_append, head]
          rfl
        · rw [channelsOf_append, if_neg (Ne.symm own), List.append_nil]
          exact count
    · rename_i new
      obtain inside | last := List.mem_append.mp mem
      · obtain ⟨⟨first, head, schema⟩, count⟩ := ih inside
        have other : ch.topic ≠ y.1 := by
          intro same
          exact new (List.any_eq_true.mpr ⟨y, inside, decide_eq_true same.symm⟩)
        refine ⟨⟨first, ?_, schema⟩, ?_⟩
        · rw [channelsOf_append, List.head?_append, head]
          rfl
        · rw [channelsOf_append, if_neg other, List.append_nil]
          exact count
      · obtain rfl := List.mem_singleton.mp last
        have none : channelsOf ch.topic channels = [] := by
          refine List.filter_eq_nil_iff.mpr fun x inside same => new ?_
          have name := names_topicsOf.mpr (List.mem_map_of_mem (f := ChannelInfo.topic) inside)
          obtain ⟨z, there, own⟩ := List.mem_map.mp name
          exact List.any_eq_true.mpr ⟨z, there, decide_eq_true (own.trans (of_decide_eq_true same))⟩
        refine ⟨⟨ch, ?_, rfl⟩, ?_⟩
        · rw [channelsOf_append, none, if_pos rfl]
          rfl
        · rw [channelsOf_append, none, if_pos rfl]
          rfl

lemma sum_add {τ σ : Type} [DecidableEq τ] {topics : ByTopic τ σ} {topic : τ} {schema : σ} {n : Nat}
    (nodup : (topics.map Prod.fst).Nodup) :
    ((topics.add topic schema n).map fun x => x.2.2).sum = (topics.map fun x => x.2.2).sum + n := by
  unfold ByTopic.add
  split
  · rename_i there
    induction topics with
    | nil => cases there
    | cons x topics ih =>
      rw [List.map_cons, List.nodup_cons] at nodup
      by_cases own : x.1 = topic
      · -- the topic is not there again
        have rest : topics.map (fun x => if x.1 = topic then (x.1, x.2.1, x.2.2 + n) else x) = topics := by
          refine (List.map_congr_left fun y inside => if_neg ?_).trans (List.map_id _)
          intro same
          exact nodup.1 (List.mem_map.mpr ⟨y, inside, same.trans own.symm⟩)
        rw [List.map_cons, if_pos own, rest, List.map_cons, List.map_cons, List.sum_cons, List.sum_cons]
        dsimp only
        omega
      · have below : (topics.any fun x => x.1 = topic) = true := by
          rw [List.any_cons, decide_eq_false own, Bool.false_or] at there
          exact there
        rw [List.map_cons, if_neg own, List.map_cons, List.map_cons, List.sum_cons, List.sum_cons,
          ih nodup.2 below]
        omega
  · rw [List.map_append, List.sum_append]
    rfl

lemma sum_topicsOf : ((topicsOf channels).map fun y => y.2.2).sum =
    (channels.map ChannelInfo.messageCount).sum := by
  induction channels using List.reverseRecOn with
  | nil => rfl
  | append_singleton channels ch ih =>
    rw [topicsOf_append, sum_add nodup_topicsOf, ih, List.map_append, List.sum_append]
    rfl

/-! ## The topics of a row -/

def recordOf (y : String × (String × String) × Nat) : TopicRecord := ⟨y.1, y.2.1.1, y.2.1.2, y.2.2⟩

lemma describes_topicsOf {records : List TopicRecord} (perm : records.Perm ((topicsOf channels).map recordOf)) :
    Describes channels records := by
  have names : (records.map TopicRecord.name).Perm ((topicsOf channels).map Prod.fst) := by
    refine (perm.map TopicRecord.name).trans ?_
    rw [List.map_map]
    exact .refl _
  have grouped : ∀ r ∈ records, ∃ y, Grouped channels y ∧ r = recordOf y := by
    intro r mem
    obtain ⟨y, inside, rfl⟩ := List.mem_map.mp (perm.mem_iff.mp mem)
    exact ⟨y, grouped_topicsOf inside, rfl⟩
  refine ⟨names.nodup_iff.mpr nodup_topicsOf, ?_, ?_, ?_⟩
  · intro name
    rw [names.mem_iff, names_topicsOf]
  · intro r mem
    obtain ⟨y, own, rfl⟩ := grouped r mem
    exact own.count
  · intro r mem
    obtain ⟨y, ⟨⟨first, head, schema⟩, -⟩, rfl⟩ := grouped r mem
    exact ⟨first, head, congrArg Prod.fst schema, congrArg Prod.snd schema⟩

lemma scanTopics_map {f : Nat × Nat → Nat} {members : List (Nat × Nat)}
    (joined : ∀ m ∈ members, (joinMember t m).isSome) :
    scanTopics (members.filterMap (joinMember t)) (members.map f) =
      members.filterMap fun m => (joinMember t m).map fun row => ⟨row.1, row.2.1, row.2.2, f m⟩ := by
  induction members with
  | nil => rfl
  | cons m members ih =>
    obtain ⟨row, own⟩ := Option.isSome_iff_exists.mp (joined m List.mem_cons_self)
    rw [List.filterMap_cons_some own, List.filterMap_cons_some (by rw [own]; rfl), List.map_cons, scanTopics,
      List.headD_cons, List.tail_cons, ih fun m mem => joined m (List.mem_cons_of_mem _ mem)]

lemma joinMember_resolved {x : Nat × Nat × Nat} {y : String × (String × String) × Nat} (names : SoundNames cfg t)
    (resolved : Resolved t x y) : joinMember t (x.1, x.2.1) = some (y.1, y.2.1.1, y.2.1.2) := by
  have topic := (names.dict .topic).keyOf_iff.mpr ((names.dict .topic).idOf_iff.mp resolved.topic)
  have schema := (names.dict .schema).keyOf_iff.mpr ((names.dict .schema).idOf_iff.mp resolved.schema)
  unfold joinMember
  rw [topic, schema]
  rfl

lemma count_eq {x : Nat × Nat × Nat} (nodup : (byTopic.map Prod.fst).Nodup) (mem : x ∈ byTopic) :
    byTopic.count x.1 = x.2.2 := by
  unfold ByTopic.count
  rw [find_of_nodup nodup mem]
  rfl

lemma members_perm : byTopic.members.Perm (byTopic.map fun x => (x.1, x.2.1)) := List.perm_insertionSort _ _

lemma counts_perm (nodup : (byTopic.map Prod.fst).Nodup) (resolved : List.Forall₂ (Resolved t) byTopic named) :
    byTopic.counts.Perm (named.map fun y => y.2.2) := by
  have own : (byTopic.map fun x => byTopic.count x.1) = byTopic.map fun x => x.2.2 :=
    List.map_congr_left fun x mem => count_eq nodup mem
  have same : (byTopic.map fun x => x.2.2) = named.map fun y => y.2.2 := by
    clear own nodup
    induction resolved with
    | nil => rfl
    | cons head _ ih => rw [List.map_cons, List.map_cons, ih, head.count]
  refine (members_perm.map fun m => byTopic.count m.1).trans ?_
  rw [List.map_map, ← same, ← own]
  exact .refl _

lemma joined_members (names : SoundNames cfg t) (resolved : List.Forall₂ (Resolved t) byTopic named) :
    ∀ m ∈ byTopic.members, (joinMember t m).isSome := by
  intro m mem
  obtain ⟨x, inside, rfl⟩ := List.mem_map.mp (members_perm.mem_iff.mp mem)
  obtain ⟨y, -, own⟩ := exists_of_forall₂ resolved inside
  rw [joinMember_resolved names own]
  rfl

lemma scanTopics_perm (names : SoundNames cfg t) (nodup : (byTopic.map Prod.fst).Nodup)
    (resolved : List.Forall₂ (Resolved t) byTopic named) :
    (scanTopics (byTopic.members.filterMap (joinMember t)) byTopic.counts).Perm (named.map recordOf) := by
  unfold ByTopic.counts
  rw [scanTopics_map (joined_members names resolved)]
  refine (members_perm.filterMap _).trans ?_
  rw [List.filterMap_map]
  have counts : ∀ x ∈ byTopic, byTopic.count x.1 = x.2.2 := fun x mem => count_eq nodup mem
  -- the topics by number and by name, one after the other
  have same : ∀ {part : ByTopic Nat Nat} {named : ByTopic String (String × String)}, (∀ x ∈ part, x ∈ byTopic) →
      List.Forall₂ (Resolved t) part named → (part.filterMap fun x => (joinMember t (x.1, x.2.1)).map fun row =>
        (⟨row.1, row.2.1, row.2.2, byTopic.count x.1⟩ : TopicRecord)) = named.map recordOf := by
    intro part named sub related
    induction related with
    | nil => rfl
    | @cons x y _ _ head _ ih =>
      rw [List.filterMap_cons_some (b := recordOf y), ih fun z mem => sub z (List.mem_cons_of_mem _ mem),
        List.map_cons]
      rw [joinMember_resolved names head, counts x (sub x List.mem_cons_self), head.count]
      rfl
  exact List.Perm.of_eq (same (fun _ mem => mem) resolved)

lemma filterMap_length {members : List (Nat × Nat)} (joined : ∀ m ∈ members, (joinMember t m).isSome) :
    (members.filterMap (joinMember t)).length = members.length := by
  induction members with
  | nil => rfl
  | cons m members ih =>
    obtain ⟨row, own⟩ := Option.isSome_iff_exists.mp (joined m List.mem_cons_self)
    rw [List.filterMap_cons_some own, List.length_cons, List.length_cons,
      ih fun m mem => joined m (List.mem_cons_of_mem _ mem)]

lemma decode_laid (laid : Laid t row summary) (names : SoundNames cfg t)
    (fits : (summary.channels.map ChannelInfo.messageCount).sum < 2 ^ 64) :
    ∃ byTopic : ByTopic Nat Nat, List.Forall₂ (Resolved t) byTopic (topicsOf summary.channels) ∧
      t.membersOf row.topicSetId = byTopic.members ∧ decodeCountsBlob row.topicCounts = .ok byTopic.counts ∧
      sumCounts byTopic.counts = summary.messageCount ∧ (byTopic.map Prod.fst).Nodup := by
  obtain ⟨⟨byTopic, resolved, members, blob, sum⟩, -⟩ := laid
  have nodup := nodup_topics (names.dict .topic) resolved nodup_topicsOf
  have total : byTopic.counts.sum < 2 ^ 64 := by
    rw [(counts_perm nodup resolved).sum_eq, sum_topicsOf]
    exact fits
  refine ⟨byTopic, resolved, members, ?_, ?_, nodup⟩
  · rw [blob]
    exact decodeCountsBlob_writeAll fun n mem => Nat.lt_of_le_of_lt (List.single_le_sum (by simp) n mem) total
  · rw [sumCounts_eq total, sum]

lemma fileRow_of_mem (files : SoundFiles t) (mem : row ∈ t.files) : fileRow t row.id = some row :=
  find_of_nodup files.ids mem

lemma listTopics_laid (laid : Laid t row summary) (names : SoundNames cfg t) (files : SoundFiles t)
    (mem : row ∈ t.files) (fits : (summary.channels.map ChannelInfo.messageCount).sum < 2 ^ 64) :
    ∃ records, aurynListTopicsForFile t (fun _ => none) row.id = .ok records ∧
      Describes summary.channels records := by
  obtain ⟨byTopic, resolved, members, decoded, -, nodup⟩ := decode_laid laid names fits
  have length : (byTopic.members.filterMap (joinMember t)).length = byTopic.counts.length := by
    unfold ByTopic.counts
    rw [filterMap_length (joined_members names resolved), List.length_map]
  refine ⟨(scanTopics (byTopic.members.filterMap (joinMember t)) byTopic.counts).insertionSort
    fun a b => a.name ≤ b.name, ?_,
    describes_topicsOf ((List.perm_insertionSort _ _).trans (scanTopics_perm names nodup resolved))⟩
  unfold aurynListTopicsForFile
  rw [fileRow_of_mem files mem]
  dsimp only
  rw [decoded]
  dsimp only
  rw [members, ite_self]
  dsimp only
  rw [if_neg (not_not.mpr length)]

lemma getFile_laid {dims : Dims} (laid : Laid t row summary) (names : SoundNames cfg t) (files : SoundFiles t)
    (mem : row ∈ t.files) (named : t.compositeOf dims = some row.composite)
    (fits : (summary.channels.map ChannelInfo.messageCount).sum < 2 ^ 64) :
    ∃ file, aurynGetFile t (fun _ => none) row.id = .ok file ∧ file.messageCount = summary.messageCount := by
  obtain ⟨byTopic, -, -, decoded, sum, -⟩ := decode_laid laid names fits
  refine ⟨⟨row.id, rebuildHiveKey dims.customer dims.site dims.robot dims.source dims.date dims.filename, row.etag,
    row.sizeBytes, row.startTimeNs, row.endTimeNs, row.chunkCount, sumCounts byTopic.counts⟩, ?_, sum⟩
  unfold aurynGetFile
  rw [fileRow_of_mem files mem]
  dsimp only
  rw [Option.bind_some, joinDims_of_compositeOf names named]
  dsimp only [Option.map_some]
  rw [decoded]

/-! ## The agreement -/

def smallResolved : World := (resolveIds calmSetup smallDims {}).2

def smallWritten : World :=
  (writeFileRow calmSetup smallDims smallKey ⟨1, 1, 1, 1⟩ ⟨7, "x", 3⟩ smallSummary smallResolved).2

theorem small_extract_settles : ∃ ex : Extract, ex.dims = smallDims ∧ (applyExtract calmSetup ex).Ends
    (fun result w => Settled calmSetup w ∧ Applied calmSetup {} ex w.conn.durable result) Anyhow {} := by
  obtain ⟨ex, dims⟩ : ∃ ex : Extract, ex.dims = smallDims := ⟨⟨⟨7, "x", 3⟩, _, smallKey, .ready smallSummary⟩, rfl⟩
  have clean := clean_of_parse (show Builder.parseHiveKey smallKey = some ex.dims by rw [dims]; decide +kernel)
  exact ⟨ex, dims, ends_applyExtract calmSetup_free (Fresh.settled ⟨rfl, rfl⟩) clean⟩

end PjCloud.Reader
