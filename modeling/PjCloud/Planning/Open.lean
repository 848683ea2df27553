import PjCloud.Planning.Build

/-!
# Opening a selection

The part of `openFresh` (`server/internal/ws/handlers_session.go`) between the catalog and the session:
`loadIndexes` reads the chunk indexes of the files that the window can reach, `collectSchemas` collects the
schema of each topic unless two entries disagree on one, and `assignBindings` gives
the topics of the plan their ids on the wire.
-/

namespace PjCloud.Planning
open Lib Format

/-- The file lies outside the window. With latched replay the files before the window are needed. -/
def FileRecord.skipped (f : FileRecord) (tr : Option TimeWindow) (includeLatched : Bool) : Bool :=
  match tr with
  | none => false
  | some w =>
    let afterWindow := f.startTimeNs ≥ w.endNs
    let beforeWindow := f.endTimeNs < w.startNs
    afterWindow || (beforeWindow && !includeLatched)

/-- The chunk indexes of the files; that of a skipped file is left empty. -/
def loadIndexes (files : List FileRecord) (chunkIndex : Nat → FileChunkIndex) (args : PlanArgs) :
    List FileChunkIndex :=
  files.map fun f =>
    if f.skipped args.timeRange args.includeLatched then { fileID := f.id } else chunkIndex f.id

def TopicSchemaInfo.drifts (a b : TopicSchemaInfo) : Bool :=
  a.schemaName ≠ b.schemaName || a.schemaEncoding ≠ b.schemaEncoding ||
    a.messageEncoding ≠ b.messageEncoding || a.schemaData ≠ b.schemaData

def schemaOf (schemas : List TopicSchemaInfo) (topic : String) : Option TopicSchemaInfo :=
  schemas.find? fun ts => ts.topicName = topic

/-- Collect the schema of each topic, or find an entry that differs from the one its topic has. -/
def collectSchemas : List TopicSchemaInfo → List TopicSchemaInfo →
    Except (TopicSchemaInfo × TopicSchemaInfo) (List TopicSchemaInfo)
  | seen, [] => .ok seen
  | seen, ts :: rest =>
    match schemaOf seen ts.topicName with
    | none => collectSchemas (seen ++ [ts]) rest
    | some prev =>
      if TopicSchemaInfo.drifts prev ts then .error (prev, ts) else collectSchemas seen rest

/-- The first entry of each topic, which is what is collected when no entry differs. -/
def firstSchemas : List TopicSchemaInfo → List TopicSchemaInfo → List TopicSchemaInfo
  | seen, [] => seen
  | seen, ts :: rest =>
    match schemaOf seen ts.topicName with
    | none => firstSchemas (seen ++ [ts]) rest
    | some _ => firstSchemas seen rest

lemma collectSchemas_ok {all seen schemas} (ok : collectSchemas seen all = .ok schemas) :
    schemas = firstSchemas seen all := by
  induction all generalizing seen with
  | nil =>
    cases ok
    rfl
  | cons ts rest ih =>
    unfold collectSchemas at ok
    unfold firstSchemas
    split at ok
    · exact ih ok
    · split at ok
      · cases ok
      · exact ih ok

lemma schemaOf_firstSchemas {all seen} {topic : String}
    (h : topic ∈ (seen ++ all).map TopicSchemaInfo.topicName) :
    (schemaOf (firstSchemas seen all) topic).isSome := by
  induction all generalizing seen with
  | nil =>
    obtain ⟨ts, mem, rfl⟩ := List.mem_map.mp h
    rw [List.append_nil] at mem
    exact List.find?_isSome.mpr ⟨ts, mem, by simp⟩
  | cons ts rest ih =>
    unfold firstSchemas
    split
    · apply ih
      simpa using h
    · -- the entry that is dropped has its topic among those seen
      rename_i prev found
      apply ih
      obtain ⟨ts', mem, rfl⟩ := List.mem_map.mp h
      have same : prev.topicName = ts.topicName := by simpa using List.find?_some found
      have prior : prev ∈ seen := List.mem_of_find?_eq_some found
      obtain mem | mem := List.mem_append.mp mem
      · exact List.mem_map.mpr ⟨ts', List.mem_append_left _ mem, rfl⟩
      · obtain rfl | mem := List.mem_cons.mp mem
        · exact List.mem_map.mpr ⟨prev, List.mem_append_left _ prior, same⟩
        · exact List.mem_map.mpr ⟨ts', List.mem_append_right _ mem, rfl⟩

def fileSchemas (indexes : List FileChunkIndex) : List TopicSchemaInfo :=
  indexes.flatMap FileChunkIndex.schemas

def planTopicSet (p : Plan) : Finset String := chunkTopics p.chunks ∪ p.seedTopics

/-- A topic with its ids on the wire. -/
structure TopicBinding where
  topicID : Nat
  topicName : String
  schemaID : Nat
  messageEncoding : String
  deriving DecidableEq, Repr

/-- A schema with its id on the wire. -/
structure SchemaBinding where
  schemaID : Nat
  name : String
  encoding : String
  data : Bytes
  deriving DecidableEq, Repr

/-- The state of `assignBindings` between two topics. -/
structure Bindings where
  topics : List TopicBinding := []
  schemas : List SchemaBinding := []
  schemaIDByKey : List (String × Nat) := []
  nextTopicID : Nat := 1
  nextSchemaID : Nat := 1
  deriving DecidableEq, Repr

def schemaKey (ts : TopicSchemaInfo) : String := ts.schemaName ++ "::" ++ ts.schemaEncoding

/-- Bind one topic. -/
def bindTopic (b : Bindings) (ts : TopicSchemaInfo) : Bindings :=
  let b' := match b.schemaIDByKey.lookup (schemaKey ts) with
    | some _ => b
    | none =>
      { b with
        nextSchemaID := (b.nextSchemaID + 1) % 2 ^ 32
        schemaIDByKey := b.schemaIDByKey ++ [(schemaKey ts, b.nextSchemaID)]
        schemas := b.schemas ++
          [SchemaBinding.mk b.nextSchemaID ts.schemaName ts.schemaEncoding ts.schemaData] }
  let schemaID := (b.schemaIDByKey.lookup (schemaKey ts)).getD b.nextSchemaID
  { b' with
    nextTopicID := (b.nextTopicID + 1) % 2 ^ 32
    topics := b.topics ++ [TopicBinding.mk b.nextTopicID ts.topicName schemaID ts.messageEncoding] }

/-- The bindings of the surviving topics that have a schema entry, in the order of their names. -/
def assignBindings (R : Runtime) (schemas : List TopicSchemaInfo) (surviving : Finset String) :
    Bindings :=
  let names := R.slice id ((R.range surviving).filter fun name => (schemaOf schemas name).isSome)
  (names.filterMap (schemaOf schemas)).foldl bindTopic {}

/-- The ids of a topic, from the maps that `assignBindings` hands to the producer. -/
def Bindings.lookup (b : Bindings) (topic : String) : Option TopicBinding :=
  b.topics.find? fun t => t.topicName = topic

lemma bindTopic_topics {b : Bindings} {ts : TopicSchemaInfo} :
    (bindTopic b ts).topics.map TopicBinding.topicName =
      b.topics.map TopicBinding.topicName ++ [ts.topicName] := by
  rw [bindTopic, List.map_append]
  rfl

lemma foldl_bindTopic_topics {l : List TopicSchemaInfo} : ∀ {b : Bindings},
    (l.foldl bindTopic b).topics.map TopicBinding.topicName =
      b.topics.map TopicBinding.topicName ++ l.map TopicSchemaInfo.topicName := by
  induction l with
  | nil =>
    intro b
    rw [List.foldl_nil, List.map_nil, List.append_nil]
  | cons ts rest ih =>
    intro b
    rw [List.foldl_cons, ih, bindTopic_topics, List.append_assoc]
    rfl

lemma assignBindings_lookup {R : Runtime} {schemas : List TopicSchemaInfo} {surviving : Finset String}
    {topic : String} (survives : topic ∈ surviving) (known : (schemaOf schemas topic).isSome) :
    ((assignBindings R schemas surviving).lookup topic).isSome := by
  obtain ⟨ts, found⟩ := Option.isSome_iff_exists.mp known
  have name : ts.topicName = topic := by simpa using List.find?_some found
  have bound : topic ∈ (assignBindings R schemas surviving).topics.map TopicBinding.topicName := by
    rw [assignBindings, foldl_bindTopic_topics]
    apply List.mem_append_right
    apply List.mem_map.mpr
    refine ⟨ts, List.mem_filterMap.mpr ⟨topic, ?_, found⟩, name⟩
    simp [survives, known]
  obtain ⟨b, mem, name⟩ := List.mem_map.mp bound
  exact List.find?_isSome.mpr ⟨b, mem, by simp [name]⟩

end PjCloud.Planning
