import Mathlib.Algebra.Order.Ring.Nat
import Mathlib.Data.List.Nodup

/-!
# Messages into the host

`ParserIngestDriver` of `parser_ingest_driver.cpp`. A topic that has no schema is skipped when the session is bound. The
parser of another topic is bound at its first message, and a topic whose parser the host does not bind is skipped from
there on: no message of it is counted, neither as a row nor as an error.
-/

namespace PjCloud.Pull

/-- `DecodedMessage` -/
structure Message where
  topicId : Nat
  logTime : Int
  publishTime : Int
  payload : List UInt8
  deriving DecidableEq, Repr

structure SessionTopic where
  topicId : Nat
  topicName : String
  schemaId : Nat
  deriving DecidableEq, Repr

structure SessionSchema where
  schemaId : Nat
  name : String
  deriving DecidableEq, Repr

/-- The dictionary of a session, and what the server means to read. -/
structure SessionInfo where
  estimatedChunkBytes : Nat
  topics : List SessionTopic
  schemas : List SessionSchema
  deriving DecidableEq, Repr

def SessionInfo.known (info : SessionInfo) : List Nat := info.topics.map SessionTopic.topicId

structure IngestTopic where
  topicId : Nat
  topicName : String
  decodable : Bool := false
  bound : Bool := false
  skipReason : String := ""
  rows : Nat := 0
  decodeErrors : Nat := 0
  deriving DecidableEq, Repr

structure Driver where
  active : Bool := false
  topics : List IngestTopic := []
  deriving DecidableEq, Repr

namespace Driver

def skipped (t : SessionTopic) (reason : String) : IngestTopic :=
  { topicId := t.topicId, topicName := t.topicName, skipReason := reason }

/-- A topic of the session. `ingest` is the answer of `createDatasetIngest`. -/
def bindTopic (info : SessionInfo) (ingest : Except String Unit) (t : SessionTopic) : IngestTopic :=
  match ingest with
  | .error reason => skipped t ("host parser ingest unavailable: " ++ reason)
  | .ok () =>
    match info.schemas.find? (·.schemaId = t.schemaId) with
    | none => skipped t ("schema " ++ toString t.schemaId ++ " missing from session dictionary")
    | some _ => { topicId := t.topicId, topicName := t.topicName, decodable := true }

/-- `emplace`: a second topic with the same id is dropped. -/
def addTopic (topics : List IngestTopic) (it : IngestTopic) : List IngestTopic :=
  if it.topicId ∈ topics.map IngestTopic.topicId then topics else topics ++ [it]

def bindSession (info : SessionInfo) (ingest : Except String Unit) : Driver where
  active := ingest.isOk
  topics := (info.topics.map (bindTopic info ingest)).foldl addTopic []

/-- A message for its topic: the answers of `ensureParserBinding` and of `pushMessage`. -/
def decodeTopic (binding : Except String Unit) (pushed : Bool) (it : IngestTopic) : IngestTopic :=
  if it.decodable then
    match it.bound, binding with
    | false, .error reason => { it with decodable := false, skipReason := reason }
    | _, _ =>
      if pushed then { it with bound := true, rows := it.rows + 1 }
      else { it with bound := true, decodeErrors := it.decodeErrors + 1 }
  else it

def decode (d : Driver) (topicId : Nat) (binding : Except String Unit) (pushed : Bool) : Driver :=
  if d.active then
    { d with topics := d.topics.map fun it => if it.topicId = topicId then decodeTopic binding pushed it else it }
  else d

def hasDecodable (d : Driver) : Bool := d.topics.any IngestTopic.decodable

/-- `decoders().find` -/
def topicWith (d : Driver) (topicId : Nat) : Option IngestTopic := d.topics.find? (·.topicId = topicId)

/-- `decodedCounts` -/
def rowsOf (d : Driver) (topicId : Nat) : Nat := ((d.topicWith topicId).map IngestTopic.rows).getD 0

/-- `errorCounts` -/
def errorsOf (d : Driver) (topicId : Nat) : Nat := ((d.topicWith topicId).map IngestTopic.decodeErrors).getD 0

def decodedRows (d : Driver) : Nat := (d.topics.map IngestTopic.rows).sum

def totalDecodeErrors (d : Driver) : Nat := (d.topics.map IngestTopic.decodeErrors).sum

end Driver

/-! ## Accounts -/

/-- What a topic says after `n` of its messages. -/
structure IngestTopic.Accounts (it : IngestTopic) (n : Nat) : Prop where
  unbound : it.bound = false → it.rows = 0 ∧ it.decodeErrors = 0
  skipped : it.decodable = false → it.bound = false
  counted : it.decodable = true → it.rows + it.decodeErrors = n

/-- Every topic is there once and accounts for its messages. -/
structure Driver.Accounts (d : Driver) (seen : List Message) : Prop where
  once : (d.topics.map IngestTopic.topicId).Nodup
  active : ∀ it ∈ d.topics, it.decodable = true → d.active = true
  each : ∀ it ∈ d.topics, it.Accounts ((seen.map Message.topicId).count it.topicId)

namespace Driver
variable {info : SessionInfo} {ingest : Except String Unit} {d : Driver} {seen : List Message}

lemma decodeTopic_topicId (binding : Except String Unit) (pushed : Bool) (it : IngestTopic) :
    (decodeTopic binding pushed it).topicId = it.topicId := by
  unfold decodeTopic
  repeat' split
  all_goals rfl

lemma accounts_decodeTopic {it : IngestTopic} {n : Nat} (binding : Except String Unit) (pushed : Bool)
    (before : it.Accounts n) : (decodeTopic binding pushed it).Accounts (n + 1) := by
  unfold decodeTopic
  split
  · rename_i decodable
    have counted := before.counted decodable
    split
    · rename_i unbound
      exact ⟨before.unbound, fun _ => unbound, nofun⟩
    · split
      · refine ⟨nofun, fun skip => absurd (decodable.symm.trans skip) nofun, fun _ => ?_⟩
        change it.rows + 1 + it.decodeErrors = n + 1
        omega
      · refine ⟨nofun, fun skip => absurd (decodable.symm.trans skip) nofun, fun _ => ?_⟩
        change it.rows + (it.decodeErrors + 1) = n + 1
        omega
  · rename_i skip
    exact ⟨before.unbound, before.skipped, fun decodable => absurd decodable skip⟩

lemma accounts_bindTopic (t : SessionTopic) : (bindTopic info ingest t).Accounts 0 := by
  unfold bindTopic
  split
  · exact ⟨fun _ => ⟨rfl, rfl⟩, fun _ => rfl, nofun⟩
  · split
    · exact ⟨fun _ => ⟨rfl, rfl⟩, fun _ => rfl, nofun⟩
    · exact ⟨fun _ => ⟨rfl, rfl⟩, nofun, fun _ => rfl⟩

lemma active_bindTopic {t : SessionTopic} (decodable : (bindTopic info ingest t).decodable = true) :
    ingest.isOk = true := by
  unfold bindTopic at decodable
  split at decodable
  · cases decodable
  · rfl

lemma mem_foldl_addTopic {its : List IngestTopic} {topics : List IngestTopic} {it : IngestTopic}
    (mem : it ∈ its.foldl addTopic topics) : it ∈ topics ∨ it ∈ its := by
  induction its generalizing topics with
  | nil => exact .inl mem
  | cons head rest ih =>
    rcases ih mem with old | new
    · unfold addTopic at old
      split at old
      · exact .inl old
      · rcases List.mem_append.mp old with old | head'
        · exact .inl old
        · exact .inr (List.mem_cons.mpr (.inl (List.mem_singleton.mp head')))
    · exact .inr (List.mem_cons_of_mem _ new)

lemma nodup_foldl_addTopic {its : List IngestTopic} {topics : List IngestTopic}
    (nodup : (topics.map IngestTopic.topicId).Nodup) :
    ((its.foldl addTopic topics).map IngestTopic.topicId).Nodup := by
  induction its generalizing topics with
  | nil => exact nodup
  | cons head rest ih =>
    refine ih ?_
    unfold addTopic
    split
    · exact nodup
    · rename_i new
      rw [List.map_append, List.nodup_append']
      exact ⟨nodup, List.nodup_singleton _, List.disjoint_singleton.mpr new⟩

lemma accounts_bindSession (info : SessionInfo) (ingest : Except String Unit) :
    (bindSession info ingest).Accounts [] := by
  have bound : ∀ it ∈ (bindSession info ingest).topics, ∃ t, bindTopic info ingest t = it := by
    intro it mem
    rcases mem_foldl_addTopic mem with none | mem
    · cases none
    · obtain ⟨t, -, same⟩ := List.mem_map.mp mem
      exact ⟨t, same⟩
  refine ⟨nodup_foldl_addTopic List.nodup_nil, ?_, ?_⟩
  · intro it mem decodable
    obtain ⟨t, rfl⟩ := bound it mem
    exact active_bindTopic decodable
  · intro it mem
    obtain ⟨t, rfl⟩ := bound it mem
    exact accounts_bindTopic t

lemma Accounts.decode (before : d.Accounts seen) (m : Message) (binding : Except String Unit) (pushed : Bool) :
    (d.decode m.topicId binding pushed).Accounts (seen ++ [m]) := by
  unfold Driver.decode
  split
  · rename_i active
    refine ⟨?_, fun _ _ _ => active, ?_⟩
    · rw [List.map_map]
      have same : (IngestTopic.topicId ∘ fun it => if it.topicId = m.topicId then decodeTopic binding pushed it else it) =
          IngestTopic.topicId := by
        funext it
        change (if it.topicId = m.topicId then decodeTopic binding pushed it else it).topicId = it.topicId
        split
        · exact decodeTopic_topicId binding pushed it
        · rfl
      rw [same]
      exact before.once
    · intro it there
      obtain ⟨old, mem, rfl⟩ := List.mem_map.mp there
      have accounts := before.each old mem
      rw [List.map_append, List.count_append]
      split
      · rename_i own
        rw [decodeTopic_topicId, own]
        rw [own] at accounts
        have one : [m].map Message.topicId = [m.topicId] := rfl
        rw [one, List.count_singleton_self]
        exact accounts_decodeTopic binding pushed accounts
      · rename_i other
        have none : ([m].map Message.topicId).count old.topicId = 0 :=
          List.count_eq_zero.mpr fun mem => other (List.mem_singleton.mp mem)
        rw [none]
        exact accounts
  · rename_i inactive
    refine ⟨before.once, before.active, ?_⟩
    intro it mem
    have accounts := before.each it mem
    have skip : it.decodable = true → False := fun decodable => inactive (before.active it mem decodable)
    exact ⟨accounts.unbound, accounts.skipped, fun decodable => (skip decodable).elim⟩

lemma Accounts.rows (accounts : d.Accounts seen) {it : IngestTopic} (mem : it ∈ d.topics)
    (decodable : it.decodable = true) (errors : it.decodeErrors = 0) :
    it.rows = (seen.map Message.topicId).count it.topicId := by
  have counted := (accounts.each it mem).counted decodable
  omega

end Driver
end PjCloud.Pull
