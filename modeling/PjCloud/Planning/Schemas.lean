import PjCloud.Planning.Bindings
import PjCloud.Planning.OpenFresh
import PjCloud.Planning.Sources
import PjCloud.Planning.Window

/-!
# Schemas on the wire

A session tells the client one schema for each topic. Three places merge the schemas of the channels into
that: the schema table of a file (the first channel of a topic makes its entry), the drift check across
files, and the schema ids (one for each key of name and encoding). `Opened.Truthful` is that nothing is
lost on the way: every message is described by the schema of the channel that recorded it, and schemas
that differ are kept apart. `Opened.Agrees` says of the files when that is so (`truthful_iff`).
-/

namespace PjCloud.Planning
open Lib Format

def channelSchema (info : Info) (ch : Channel) : Schema :=
  (info.schemas.lookup ch.schemaID).getD ⟨"", "", []⟩

def Recorded (store : Store) (files : List CatalogFile) (src : Sourced) (info : Info) (ch : Channel) :
    Prop :=
  summaryOf store files src.fileID = .ok info ∧ info.channels.lookup src.channelID = some ch

/-- A channel of a selected file. -/
def Opened.Feeds (o : Opened) (store : Store) (info : Info) (ch : Channel) : Prop :=
  ∃ f ∈ o.files, summaryOf store o.files f.record.id = .ok info ∧ ∃ id, (id, ch) ∈ info.channels

/-- Two channels that feed one topic, or have schemas of one name and encoding, differ in the schema
    data. -/
structure Disagree (info : Info) (ch : Channel) (info' : Info) (ch' : Channel) : Prop where
  related : ch.topic = ch'.topic ∨
    (channelSchema info ch).name = (channelSchema info' ch').name ∧
      (channelSchema info ch).encoding = (channelSchema info' ch').encoding
  data : (channelSchema info ch).data ≠ (channelSchema info' ch').data

/-- The bindings of a session describe what it streams and keep apart what differs. -/
structure Opened.Truthful (o : Opened) (store : Store) (L : Library) (env : Setting) (R : Runtime) :
    Prop where
  /-- An id names one topic. -/
  topicIDs : (o.bindings.topics.map TopicBinding.topicID).Nodup
  /-- An id names one schema. -/
  schemaIDs : (o.bindings.schemas.map SchemaBinding.schemaID).Nodup
  /-- A message has the encoding and the schema of the channel that recorded it. -/
  messages : ∀ src ∈ streamed (o.producer store L env) R, ∃ info ch msg tb sb,
    Recorded store o.files src info ch ∧ frame (o.producer store L env) src.raw = some msg ∧
      o.bindings.topicNamed msg.topicID = some tb ∧ tb.topicName = ch.topic ∧
      tb.schemaID = msg.schemaID ∧ tb.messageEncoding = ch.messageEncoding ∧
      o.bindings.schemaNamed msg.schemaID = some sb ∧
      Schema.mk sb.name sb.encoding sb.data = channelSchema info ch
  /-- Channels that disagree have different schema ids. -/
  apart : ∀ info ch info' ch', o.Feeds store info ch → o.Feeds store info' ch' →
    Disagree info ch info' ch' → ∀ tb tb', o.bindings.lookup ch.topic = some tb →
      o.bindings.lookup ch'.topic = some tb' → tb.schemaID ≠ tb'.schemaID

/-- The summaries of the files that are not skipped. -/
def Opened.loaded (o : Opened) (store : Store) : List Info :=
  o.files.filterMap fun f =>
    if f.record.skipped o.args.timeRange o.args.includeLatched then none
    else (summaryOf store o.files f.record.id).toOption

def firstChannel (infos : List Info) (topic : String) : Option (Info × Channel) :=
  infos.findSome? fun info =>
    (info.channels.find? fun ch => ch.2.topic = topic).map fun ch => (info, ch.2)

def Opened.topics (o : Opened) (store : Store) : Finset String :=
  (planTopicSet o.plan).filter fun topic => (firstChannel (o.loaded store) topic).isSome

def channelKey (x : Info × Channel) : String :=
  (channelSchema x.1 x.2).name ++ "::" ++ (channelSchema x.1 x.2).encoding

/-- `t` is the first topic by name whose first channel, `y`, has the key. -/
structure Opened.Leads (o : Opened) (store : Store) (k t : String) (y : Info × Channel) : Prop where
  bound : t ∈ o.topics store
  first : firstChannel (o.loaded store) t = some y
  key : channelKey y = k
  least : ∀ t' ∈ o.topics store, ∀ z, firstChannel (o.loaded store) t' = some z →
    channelKey z = k → t ≤ t'

/-- The channels of the files agree as far as the session needs it. -/
structure Opened.Agrees (o : Opened) (store : Store) (L : Library) (env : Setting) (R : Runtime) :
    Prop where
  /-- The ids of the topics are numbers below `2^32`. -/
  few : (o.topics store).card ≤ 2 ^ 32
  /-- Of the topic of a streamed message the first channel has the encoding of the channel that recorded
      the message, and the first topic with the key of that first channel has its schema. -/
  messages : ∀ src ∈ streamed (o.producer store L env) R, ∀ info ch,
    Recorded store o.files src info ch → ∃ x, firstChannel (o.loaded store) ch.topic = some x ∧
      x.2.messageEncoding = ch.messageEncoding ∧
      ∃ t y, o.Leads store (channelKey x) t y ∧ channelSchema y.1 y.2 = channelSchema info ch
  /-- The topics of channels that disagree have first channels with different keys. -/
  apart : ∀ info ch info' ch', o.Feeds store info ch → o.Feeds store info' ch' →
    Disagree info ch info' ch' → ch.topic ∈ o.topics store → ch'.topic ∈ o.topics store →
      ∀ x x', firstChannel (o.loaded store) ch.topic = some x →
        firstChannel (o.loaded store) ch'.topic = some x' → channelKey x ≠ channelKey x'

section Entries
variable {R : Runtime} {store : Store} {o : Opened} {info : Info} {topic : String}

lemma topicSchema_eq {ch : Channel} :
    topicSchema info ch = ⟨ch.topic, (channelSchema info ch).name, (channelSchema info ch).encoding,
      (channelSchema info ch).data, ch.messageEncoding⟩ := by
  unfold topicSchema channelInfo channelSchema
  cases info.schemas.lookup ch.schemaID <;> rfl

lemma schemaKey_topicSchema {x : Info × Channel} : schemaKey (topicSchema x.1 x.2) = channelKey x := by
  rw [topicSchema_eq]
  rfl

lemma topicSchemas_eq : topicSchemas info =
    firsts TopicSchemaInfo.topicName (info.channels.map fun ch => topicSchema info ch.2) := by
  rw [firsts, List.foldl_map]
  rfl

lemma find_entries : (R.slice TopicSchemaInfo.topicName (topicSchemas info)).find?
    (fun ts => ts.topicName = topic) =
      (info.channels.find? fun ch => ch.2.topic = topic).map fun ch => topicSchema info ch.2 := by
  have distinct : ((topicSchemas info).map TopicSchemaInfo.topicName).Nodup := by
    rw [topicSchemas_eq]
    exact firsts_nodup
  rw [find_perm (R.slice_perm _ _) distinct, topicSchemas_eq, find_firsts, List.find?_map]
  rfl

lemma schemaOf_firstSchemas_eq {all : List TopicSchemaInfo} : ∀ {seen : List TopicSchemaInfo},
    schemaOf (firstSchemas seen all) topic = schemaOf (seen ++ all) topic := by
  induction all with
  | nil =>
    intro seen
    rw [List.append_nil]
    rfl
  | cons ts rest ih =>
    intro seen
    unfold firstSchemas
    cases found : schemaOf seen ts.topicName with
    | none =>
      rw [ih, List.append_assoc]
      rfl
    | some prev =>
      -- the entry that is left out is not the first of its topic
      rw [ih]
      unfold schemaOf at found ⊢
      rw [List.find?_append, List.find?_append, List.find?_cons]
      by_cases same : ts.topicName = topic
      · subst same
        rw [found]
        rfl
      · simp [same]

def Opened.entry (o : Opened) (store : Store) (topic : String) : Option TopicSchemaInfo :=
  (firstChannel (o.loaded store) topic).map fun x => topicSchema x.1 x.2

lemma Accepted.schemaOf_eq (accepted : Accepted R store o) :
    schemaOf (firstSchemas [] (fileSchemas o.indexes)) topic = o.entry store topic := by
  rw [schemaOf_firstSchemas_eq, List.nil_append, accepted.indexes]
  unfold schemaOf fileSchemas loadIndexes Opened.entry Opened.loaded firstChannel
  rw [List.find?_flatMap, List.map_map]
  -- file by file; the summaries are looked up in all of them
  generalize whole : o.files = files
  suffices each : ∀ fs : List CatalogFile, (fs.map ((fun f => if f.skipped o.args.timeRange
      o.args.includeLatched then { fileID := f.id } else indexOf R store files f.id) ∘
        CatalogFile.record)).findSome? (fun ix => ix.schemas.find? fun ts => ts.topicName = topic) =
      ((fs.filterMap fun f => if f.record.skipped o.args.timeRange o.args.includeLatched then none
        else (summaryOf store files f.record.id).toOption).findSome? fun info =>
          (info.channels.find? fun ch => ch.2.topic = topic).map fun ch => (info, ch.2)).map
        fun x => topicSchema x.1 x.2 from each files
  intro fs
  induction fs with
  | nil => rfl
  | cons f rest ih =>
    rw [List.map_cons, List.findSome?_cons, ih, List.filterMap_cons]
    simp only [Function.comp]
    by_cases skipped : f.record.skipped o.args.timeRange o.args.includeLatched = true
    · rw [if_pos skipped, if_pos skipped]
      rfl
    · rw [if_neg skipped, if_neg skipped, indexOf]
      cases summaryOf store files f.record.id with
      | error e => rfl
      | ok info =>
        simp only [chunkIndexFromInfo_schemas, find_entries, Except.toOption, List.findSome?_cons]
        cases info.channels.find? fun ch => ch.2.topic = topic <;> rfl

lemma Opened.entry_name {ts : TopicSchemaInfo} (entry : o.entry store topic = some ts) :
    ts.topicName = topic := by
  obtain ⟨⟨info, ch⟩, first, rfl⟩ := Option.map_eq_some_iff.mp entry
  obtain ⟨info', -, found⟩ := List.exists_of_findSome?_eq_some first
  obtain ⟨ch', named, same⟩ := Option.map_eq_some_iff.mp found
  cases same
  simpa [topicSchema] using List.find?_some named

lemma Accepted.bound (accepted : Accepted R store o) : ∃ l : List TopicSchemaInfo,
    Bound l o.bindings ∧ l.Pairwise (fun a b => a.topicName < b.topicName) ∧
      l.length = (o.topics store).card ∧
      ∀ ts, ts ∈ l ↔ ∃ topic ∈ o.topics store, o.entry store topic = some ts := by
  let names := R.slice id ((R.range (planTopicSet o.plan)).filter fun name =>
    (o.entry store name).isSome)
  have mem_names : ∀ name, name ∈ names ↔ name ∈ o.topics store := by
    intro name
    simp [names, Opened.topics, Opened.entry]
  have nodup : names.Nodup := (R.slice_perm _ _).symm.nodup ((R.range_nodup _).filter _)
  have sorted : names.Pairwise (· < ·) :=
    ((R.slice_sorted id _).and nodup).imp fun h => lt_of_le_of_ne h.1 h.2
  have entries : (names.filterMap (o.entry store)).map TopicSchemaInfo.topicName = names := by
    rw [List.map_filterMap]
    refine Eq.trans ?_ (List.filterMap_some (l := names))
    apply List.filterMap_congr
    intro name mem
    obtain ⟨ts, entry⟩ := Option.isSome_iff_exists.mp (List.mem_filter.mp (Runtime.mem_slice.mp mem)).2
    rw [entry, Option.map_some, Opened.entry_name entry]
  refine ⟨names.filterMap (o.entry store), ?_, ?_, ?_, ?_⟩
  · rw [accepted.bindings, assignBindings]
    simp only [accepted.schemaOf_eq]
    exact bound_foldl
  · apply List.pairwise_map.mp
    rwa [entries]
  · rw [← List.length_map TopicSchemaInfo.topicName, entries, ← List.toFinset_card_of_nodup nodup]
    congr 1
    ext name
    rw [List.mem_toFinset, mem_names]
  · intro ts
    simp only [List.mem_filterMap, mem_names]

end Entries

section Law
variable {R : Runtime} {store : Store} {o : Opened} {L : Library} {env : Setting} {src : Sourced}

lemma Accepted.channel (accepted : Accepted R store o) {id channelID : Nat} {idx : FileChunkIndex}
    {ci : ChannelInfo} (index : idxByFile o.indexes id = some idx)
    (found : idx.channels.lookup channelID = some ci) :
    ∃ info ch, summaryOf store o.files id = .ok info ∧ info.channels.lookup channelID = some ch ∧
      ci = channelInfo info ch := by
  have fileID : idx.fileID = id := by simpa using List.find?_some index
  have mem := List.mem_of_find?_eq_some index
  rw [List.mem_reverse, accepted.indexes] at mem
  obtain ⟨f, -, made⟩ := List.mem_map.mp mem
  split at made
  · -- a skipped file has no channels
    subst made
    cases found
  · unfold indexOf at made
    split at made
    · rename_i info read
      subst made
      rw [chunkIndexFromInfo_fileID] at fileID
      subst fileID
      rw [chunkIndexFromInfo_channels, channelTable, lookup_map_snd] at found
      obtain ⟨ch, known, rfl⟩ := Option.map_eq_some_iff.mp found
      exact ⟨info, ch, read, known, rfl⟩
    · subst made
      cases found

lemma Accepted.recorded (accepted : Accepted R store o)
    (mem : src ∈ streamed (o.producer store L env) R) :
    ∃ info ch, Recorded store o.files src info ch ∧ src.raw.topic = ch.topic := by
  obtain ⟨-, tr, ref, mem⟩ := mem_streamed mem
  obtain ⟨idx, m, index, channel, resolved⟩ := mem_chunkSources mem
  obtain ⟨ci, found, raw⟩ := Option.map_eq_some_iff.mp resolved
  obtain ⟨info, ch, read, known, rfl⟩ := accepted.channel index found
  refine ⟨info, ch, ⟨read, channel ▸ known⟩, ?_⟩
  rw [← raw]
  rfl

lemma Recorded.unique {files : List CatalogFile} {info info' : Info} {ch ch' : Channel}
    (recorded : Recorded store files src info ch) (recorded' : Recorded store files src info' ch') :
    info = info' ∧ ch = ch' := by
  obtain rfl := Except.ok.inj (recorded.1.symm.trans recorded'.1)
  exact ⟨rfl, Option.some.inj (recorded.2.symm.trans recorded'.2)⟩

lemma Accepted.topic_of_recorded (accepted : Accepted R store o) {info : Info} {ch : Channel}
    (mem : src ∈ streamed (o.producer store L env) R) (recorded : Recorded store o.files src info ch) :
    src.raw.topic = ch.topic := by
  obtain ⟨info', ch', recorded', topic⟩ := accepted.recorded mem
  obtain ⟨rfl, rfl⟩ := recorded.unique recorded'
  exact topic

lemma Opened.leads_find {l : List TopicSchemaInfo} {k : String} {first : TopicSchemaInfo}
    (sorted : l.Pairwise fun a b => a.topicName < b.topicName)
    (rows : ∀ ts, ts ∈ l ↔ ∃ topic ∈ o.topics store, o.entry store topic = some ts)
    (found : l.find? (fun ts => schemaKey ts = k) = some first) :
    ∃ y, o.Leads store k first.topicName y ∧ first = topicSchema y.1 y.2 := by
  have key : schemaKey first = k := by simpa using List.find?_some found
  obtain ⟨topic, bound, entry⟩ := (rows first).mp (List.mem_of_find?_eq_some found)
  obtain rfl := Opened.entry_name entry
  obtain ⟨y, channel, made⟩ := Option.map_eq_some_iff.mp entry
  refine ⟨y, ⟨bound, channel, ?_, ?_⟩, made.symm⟩
  · rw [← schemaKey_topicSchema, made, key]
  · intro t' bound' z channel' same
    obtain ⟨ts', entry'⟩ : ∃ ts', o.entry store t' = some ts' := ⟨_, by rw [Opened.entry, channel']; rfl⟩
    obtain rfl := Opened.entry_name entry'
    have mem' : ts' ∈ l := (rows ts').mpr ⟨_, bound', entry'⟩
    have key' : schemaKey ts' = k := by
      rw [Opened.entry, channel', Option.map_some] at entry'
      rw [← Option.some.inj entry', schemaKey_topicSchema, same]
    -- an entry with the key that comes before the first one would have been found
    obtain ⟨-, before, after, rfl, others⟩ := List.find?_eq_some_iff_append.mp found
    obtain mem' | mem' := List.mem_append.mp mem'
    · exact absurd key' (by simpa using others ts' mem')
    · obtain rfl | mem' := List.mem_cons.mp mem'
      · exact le_refl _
      · exact le_of_lt (List.rel_of_pairwise_cons (List.pairwise_append.mp sorted).2.1 mem')

lemma Opened.Leads.unique {k t t' : String} {y y' : Info × Channel} (leads : o.Leads store k t y)
    (leads' : o.Leads store k t' y') : y = y' := by
  have same : t = t' := le_antisymm (leads.least t' leads'.bound y' leads'.first leads'.key)
    (leads'.least t leads.bound y leads.first leads.key)
  subst same
  exact Option.some.inj (leads.first.symm.trans leads'.first)

/-- How the client sees a message: with the encoding of the first channel of its topic, and with the
    schema of the topic that leads for that channel's key. -/
lemma Accepted.described (accepted : Accepted R store o) (few : (o.topics store).card ≤ 2 ^ 32)
    (mem : src ∈ streamed (o.producer store L env) R) :
    ∃ msg tb sb x t y, frame (o.producer store L env) src.raw = some msg ∧
      o.bindings.topicNamed msg.topicID = some tb ∧ tb.topicName = src.raw.topic ∧
      tb.schemaID = msg.schemaID ∧ firstChannel (o.loaded store) src.raw.topic = some x ∧
      tb.messageEncoding = x.2.messageEncoding ∧ o.Leads store (channelKey x) t y ∧
      o.bindings.schemaNamed msg.schemaID = some sb ∧
      Schema.mk sb.name sb.encoding sb.data = channelSchema y.1 y.2 := by
  obtain ⟨l, bound, sorted, length, rows⟩ := accepted.bound
  rw [← length] at few
  obtain ⟨keep, -⟩ := mem_streamed mem
  obtain ⟨msg, framed⟩ := Option.isSome_iff_exists.mp (Bool.and_eq_true_iff.mp keep).2
  obtain ⟨tb, lookup, rfl⟩ := Option.map_eq_some_iff.mp framed
  obtain ⟨i, ts, row, name, rfl⟩ := bound.of_lookup lookup
  have inside : ts ∈ l := List.mem_of_getElem? row
  -- the entry of the topic, and the first entry with its key
  obtain ⟨topic, -, entry⟩ := (rows ts).mp inside
  obtain rfl := Opened.entry_name entry
  obtain ⟨x, channel, made⟩ := Option.map_eq_some_iff.mp entry
  have key : schemaKey ts = channelKey x := by rw [← made, schemaKey_topicSchema]
  obtain ⟨first, found⟩ := Option.isSome_iff_exists.mp (List.find?_isSome.mpr
    ⟨ts, inside, by simp⟩ : (l.find? fun x => schemaKey x = schemaKey ts).isSome)
  obtain ⟨y, leads, rfl⟩ := Opened.leads_find sorted rows found
  refine ⟨_, _, _, x, _, y, framed, bound.topicNamed few row, name, rfl, name ▸ channel, ?_,
    key ▸ leads, bound.schemaNamed few found, ?_⟩
  · rw [← made]
    rfl
  · rw [topicSchema_eq]
    rfl

/-- A topic is bound iff it is one of the session's topics, and then its schema id is that of the key of
    its first channel. -/
lemma Accepted.lookup_iff (accepted : Accepted R store o) {topic : String} :
    (∃ tb, o.bindings.lookup topic = some tb) ↔ topic ∈ o.topics store := by
  obtain ⟨l, bound, -, -, rows⟩ := accepted.bound
  constructor
  · rintro ⟨tb, lookup⟩
    obtain ⟨i, ts, row, name, -⟩ := bound.of_lookup lookup
    obtain ⟨topic', inside, entry⟩ := (rows ts).mp (List.mem_of_getElem? row)
    rwa [← name, Opened.entry_name entry]
  · intro inside
    obtain ⟨x, channel⟩ := Option.isSome_iff_exists.mp (Finset.mem_filter.mp inside).2
    have entry : o.entry store topic = some (topicSchema x.1 x.2) := by rw [Opened.entry, channel]; rfl
    obtain ⟨tb, lookup⟩ := bound.lookup_isSome ((rows _).mpr ⟨topic, inside, entry⟩)
    rw [Opened.entry_name entry] at lookup
    exact ⟨tb, lookup⟩

lemma Accepted.schemaID_eq_iff (accepted : Accepted R store o) (few : (o.topics store).card ≤ 2 ^ 32)
    {topic topic' : String} {tb tb' : TopicBinding} {x x' : Info × Channel}
    (lookup : o.bindings.lookup topic = some tb) (lookup' : o.bindings.lookup topic' = some tb')
    (channel : firstChannel (o.loaded store) topic = some x)
    (channel' : firstChannel (o.loaded store) topic' = some x') :
    tb.schemaID = tb'.schemaID ↔ channelKey x = channelKey x' := by
  obtain ⟨l, bound, -, length, rows⟩ := accepted.bound
  rw [← length] at few
  have row : ∀ {topic tb x}, o.bindings.lookup topic = some tb →
      firstChannel (o.loaded store) topic = some x → ∃ ts ∈ l, schemaKey ts = channelKey x ∧
        tb.schemaID = wireID (rank schemaKey l (schemaKey ts)) := by
    intro topic tb x lookup channel
    obtain ⟨i, ts, row, name, rfl⟩ := bound.of_lookup lookup
    have mem := List.mem_of_getElem? row
    obtain ⟨topic', -, entry⟩ := (rows ts).mp mem
    obtain rfl := Opened.entry_name entry
    subst name
    rw [Opened.entry, channel, Option.map_some] at entry
    exact ⟨ts, mem, by rw [← Option.some.inj entry, schemaKey_topicSchema], rfl⟩
  obtain ⟨ts, mem, key, id⟩ := row lookup channel
  obtain ⟨ts', mem', key', id'⟩ := row lookup' channel'
  rw [id, id', rank_eq_iff mem mem' few, key, key']

/-- The bindings of an accepted open are truthful iff the channels of its files agree. -/
theorem truthful_iff {fresh : OpenFresh} (opened : openFresh R store fresh = .ok o) :
    o.Truthful store L env R ↔ o.Agrees store L env R := by
  have accepted := openFresh_ok opened
  constructor
  · intro truthful
    have few : (o.topics store).card ≤ 2 ^ 32 := by
      obtain ⟨l, bound, -, length, -⟩ := accepted.bound
      rw [← length]
      exact bound.topicIDs_nodup.mp truthful.topicIDs
    refine ⟨few, ?_, ?_⟩
    · intro src mem info ch recorded
      obtain ⟨info', ch', msg', tb', sb', recorded', framed', named', -, -, encoding, schema', equal⟩ :=
        truthful.messages src mem
      obtain ⟨rfl, rfl⟩ := recorded.unique recorded'
      obtain ⟨msg, tb, sb, x, t, y, framed, named, -, -, channel, first, leads, schema, described⟩ :=
        accepted.described few mem
      obtain rfl := Option.some.inj (framed.symm.trans framed')
      obtain rfl := Option.some.inj (named.symm.trans named')
      obtain rfl := Option.some.inj (schema.symm.trans schema')
      rw [accepted.topic_of_recorded mem recorded] at channel
      exact ⟨x, channel, first.symm.trans encoding, t, y, leads, described.symm.trans equal⟩
    · intro info ch info' ch' feeds feeds' disagree inside inside' x x' channel channel' same
      obtain ⟨tb, lookup⟩ := accepted.lookup_iff.mpr inside
      obtain ⟨tb', lookup'⟩ := accepted.lookup_iff.mpr inside'
      apply truthful.apart info ch info' ch' feeds feeds' disagree tb tb' lookup lookup'
      exact (accepted.schemaID_eq_iff few lookup lookup' channel channel').mpr same
  · intro agrees
    obtain ⟨l, bound, -, length, -⟩ := accepted.bound
    have few := agrees.few
    rw [← length] at few
    refine ⟨bound.topicIDs_nodup.mpr few, bound.schemaIDs_nodup few, ?_, ?_⟩
    · intro src mem
      obtain ⟨info, ch, recorded, topic⟩ := accepted.recorded mem
      obtain ⟨x', channel', encoding, t', y', leads', equal⟩ := agrees.messages src mem info ch recorded
      obtain ⟨msg, tb, sb, x, t, y, framed, named, name, id, channel, first, leads, schema, described⟩ :=
        accepted.described agrees.few mem
      rw [topic] at channel
      obtain rfl := Option.some.inj (channel.symm.trans channel')
      obtain rfl := leads.unique leads'
      exact ⟨info, ch, msg, tb, sb, recorded, framed, named, name.trans topic, id,
        first.trans encoding, schema, described.trans equal⟩
    · intro info ch info' ch' feeds feeds' disagree tb tb' lookup lookup' same
      have inside := accepted.lookup_iff.mp ⟨tb, lookup⟩
      have inside' := accepted.lookup_iff.mp ⟨tb', lookup'⟩
      obtain ⟨x, channel⟩ := Option.isSome_iff_exists.mp (Finset.mem_filter.mp inside).2
      obtain ⟨x', channel'⟩ := Option.isSome_iff_exists.mp (Finset.mem_filter.mp inside').2
      apply agrees.apart info ch info' ch' feeds feeds' disagree inside inside' x x' channel channel'
      exact (accepted.schemaID_eq_iff agrees.few lookup lookup' channel channel').mp same

end Law

section Samples

/-- A bucket with one file in one chunk. -/
def oneFile (info : Info) (ms : List McapMessage) : Store where
  getFilesByKeys _ := .ok [⟨⟨1, 1, 10⟩, "drive.mcap", "v1"⟩]
  summary _ _ := .ok info
  getRange _ _ _ _ := .ok (encodeRecord opChunk (encodeStream ms))

/-- A summary with these channels; the schemas 1 and 2 have one name but not one definition. -/
def imuInfo (channels : List (Nat × Channel)) : Info where
  channels := channels
  schemas := [(1, ⟨"Imu", "ros2msg", [1]⟩), (2, ⟨"Imu", "ros2msg", [2]⟩)]
  chunkIndexes := [⟨1, 10, 0, 40, "", channels.map Prod.fst⟩]
  channelMessageCounts := none

def wholeDrive : OpenFresh := ⟨["drive.mcap"], [], none, false⟩

def oneImu : List (Nat × Channel) := [(1, ⟨"/imu", "cdr", 1⟩)]

def twoImus : List (Nat × Channel) := [(1, ⟨"/imu", "cdr", 1⟩), (2, ⟨"/imu", "cdr", 2⟩)]

lemma oneImu_opened : ∃ o, openFresh Runtime.ordered (oneFile (imuInfo oneImu) [⟨1, 3, 3, [7]⟩])
    wholeDrive = .ok o ∧ o.topics (oneFile (imuInfo oneImu) [⟨1, 3, 3, [7]⟩]) = {"/imu"} ∧
      firstChannel (o.loaded (oneFile (imuInfo oneImu) [⟨1, 3, 3, [7]⟩])) "/imu" =
        some (imuInfo oneImu, ⟨"/imu", "cdr", 1⟩) := by
  have evaluated : (match openFresh Runtime.ordered (oneFile (imuInfo oneImu) [⟨1, 3, 3, [7]⟩])
      wholeDrive with
    | .ok o => decide (o.topics (oneFile (imuInfo oneImu) [⟨1, 3, 3, [7]⟩]) = {"/imu"} ∧
        firstChannel (o.loaded (oneFile (imuInfo oneImu) [⟨1, 3, 3, [7]⟩])) "/imu" =
          some (imuInfo oneImu, ⟨"/imu", "cdr", 1⟩))
    | .error _ => false) = true := by
    decide +kernel
  split at evaluated
  · rename_i o opened
    exact ⟨o, opened, of_decide_eq_true evaluated⟩
  · cases evaluated

lemma summaryOf_oneFile {info info' : Info} {ms : List McapMessage} {files : List CatalogFile} {id : Nat}
    (read : summaryOf (oneFile info ms) files id = .ok info') : info' = info := by
  unfold summaryOf at read
  split at read <;> exact (Except.ok.inj read).symm

/-- A file with one channel is described truthfully. -/
theorem oneImu_truthful : ∃ o, openFresh Runtime.ordered (oneFile (imuInfo oneImu) [⟨1, 3, 3, [7]⟩])
    wholeDrive = .ok o ∧ o.Truthful (oneFile (imuInfo oneImu) [⟨1, 3, 3, [7]⟩]) plainLibrary plainSetting
      Runtime.ordered := by
  obtain ⟨o, opened, topics, first⟩ := oneImu_opened
  have only : ∀ {id ch}, (id, ch) ∈ (imuInfo oneImu).channels → ch = ⟨"/imu", "cdr", 1⟩ := by
    intro id ch mem
    exact congrArg Prod.snd (List.mem_singleton.mp mem)
  refine ⟨o, opened, (truthful_iff opened).mpr ⟨?_, ?_, ?_⟩⟩
  · rw [topics]
    decide
  · intro src mem info ch recorded
    obtain ⟨read, channel⟩ := recorded
    obtain rfl := summaryOf_oneFile read
    obtain ⟨before, after, split, -⟩ := List.lookup_eq_some_iff.mp channel
    obtain rfl := only (split ▸ List.mem_append_right _ List.mem_cons_self)
    refine ⟨_, first, rfl, "/imu", _, ⟨?_, first, rfl, ?_⟩, rfl⟩
    · rw [topics]
      decide
    · intro t' bound
      rw [topics, Finset.mem_singleton] at bound
      intro _ _ _
      exact bound.ge
  · intro info ch info' ch' feeds feeds' disagree
    obtain ⟨f, -, read, id, mem⟩ := feeds
    obtain ⟨f', -, read', id', mem'⟩ := feeds'
    obtain rfl := summaryOf_oneFile read
    obtain rfl := summaryOf_oneFile read'
    obtain rfl := only mem
    obtain rfl := only mem'
    exact absurd rfl disagree.data

/-- Two channels of one topic in one file, with different schema data: the open is accepted and the
    message of the second channel goes out under the schema of the first. -/
theorem second_channel_misdescribed : ∃ o, openFresh Runtime.ordered
    (oneFile (imuInfo twoImus) [⟨2, 3, 3, [7]⟩]) wholeDrive = .ok o ∧
      ¬ o.Truthful (oneFile (imuInfo twoImus) [⟨2, 3, 3, [7]⟩]) plainLibrary plainSetting
        Runtime.ordered := by
  have evaluated : (match openFresh Runtime.ordered (oneFile (imuInfo twoImus) [⟨2, 3, 3, [7]⟩])
      wholeDrive with
    | .ok o =>
      let p := o.producer (oneFile (imuInfo twoImus) [⟨2, 3, 3, [7]⟩]) plainLibrary plainSetting
      (streamed p Runtime.ordered).any fun src => src.channelID = 2 &&
        ((frame p src.raw).bind fun msg => o.bindings.schemaNamed msg.schemaID).map
          SchemaBinding.data = some [1]
    | .error _ => false) = true := by
    decide +kernel
  split at evaluated
  · rename_i o opened
    refine ⟨o, opened, fun truthful => ?_⟩
    obtain ⟨src, mem, sent⟩ := List.any_eq_true.mp evaluated
    obtain ⟨channel, data⟩ := Bool.and_eq_true_iff.mp sent
    obtain ⟨info, ch, msg, tb, sb, recorded, framed, -, -, -, -, named, equal⟩ :=
      truthful.messages src mem
    obtain rfl := summaryOf_oneFile recorded.1
    have known := recorded.2
    rw [of_decide_eq_true channel] at known
    obtain rfl : ⟨"/imu", "cdr", 2⟩ = ch := Option.some.inj known
    rw [framed, Option.bind_some, named] at data
    have wrong : sb.data = [1] := Option.some.inj (of_decide_eq_true data)
    have right : sb.data = [2] := congrArg Schema.data equal
    rw [wrong] at right
    cases right
  · cases evaluated

end Samples

end PjCloud.Planning
