import Mathlib.Algebra.Order.Ring.Nat
import Mathlib.Data.List.Sort
import PjCloud.Builder.World

/-!
# Cataloging one object

The resolvers of `db` and the functions of `builder`: a name is resolved through its cache, an object is
cataloged in one transaction, and an object that cannot be is quarantined.
-/

namespace PjCloud.Builder
open Lib
variable (cfg : Setup)

/-! ## Caches and resolvers -/

def World.remember (w : World) (d : Dict) (key : d.Key) (id : Nat) : World :=
  { w with caches := Function.update w.caches d (Function.update (w.caches d) key (some id)) }

/-- What `None["id"]` raises. -/
def noneSubscript : Exn := .error "TypeError" "'NoneType' object is not subscriptable"

/-- `_resolve_named`, `resolve_site`, `resolve_robot` and `resolve_schema`. -/
def resolve (site : Site) (d : Dict) (key : d.Key) : Prog Nat := do
  match ← Eff.gets fun w => w.caches d key with
  | some id => pure id
  | none => do
    execute cfg site fun t => t.insertOrIgnore d key
    match ← query cfg site fun t => idOf (t.dict d) key with
    | some id => do
      Eff.modify fun w => w.remember d key id
      pure id
    | none => Eff.raise noneSubscript

def resolveCustomer (site : Site) (name : String) : Prog Nat := resolve cfg site .customer name

def resolveSite (site : Site) (customerId : Nat) (name : String) : Prog Nat :=
  resolve cfg site .site (customerId, name)

def resolveRobot (site : Site) (siteId : Nat) (name : String) : Prog Nat := resolve cfg site .robot (siteId, name)

def resolveSource (site : Site) (name : String) : Prog Nat := resolve cfg site .source name

def resolveTopic (site : Site) (name : String) : Prog Nat := resolve cfg site .topic name

def resolveSchema (site : Site) (name encoding : String) : Prog Nat := resolve cfg site .schema (name, encoding)

/-- The order of pairs in Python. -/
def pairLe (x y : Nat × Nat) : Prop := x.1 < y.1 ∨ x.1 = y.1 ∧ x.2 ≤ y.2

instance : DecidableRel pairLe := fun _ _ => inferInstanceAs (Decidable (_ ∨ _))

/-- `sorted(members)` -/
def sortMembers (members : List (Nat × Nat)) : List (Nat × Nat) := members.insertionSort pairLe

def resolveTopicSet (site : Site) (fingerprint : String) (members : List (Nat × Nat)) : Prog Nat := do
  match ← Eff.gets fun w => w.caches .topicSet fingerprint with
  | some id => pure id
  | none => do
    match ← query cfg site fun t => idOf (t.dict .topicSet) fingerprint with
    | some id => do
      Eff.modify fun w => w.remember .topicSet fingerprint id
      pure id
    | none => do
      if members ≠ sortMembers members then
        Eff.raise (.error "ValueError" "topic_set members must be sorted by topic_id ASC")
      else
        execute cfg site fun t => t.insertTopicSet fingerprint
        match ← query cfg site fun t => idOf (t.dict .topicSet) fingerprint with
        | some id => do
          Eff.each members fun m => execute cfg site fun t => t.insertMember ⟨id, m.1, m.2⟩
          Eff.modify fun w => w.remember .topicSet fingerprint id
          pure id
        | none => Eff.raise noneSubscript

def cacheOf {d : Dict} (rows : List (Nat × d.Key)) : d.Key → Option Nat :=
  rows.foldl (fun cache row => Function.update cache row.2 (some row.1)) fun _ => none

/-- The order in which `load_caches` reads the dictionaries. -/
def Dict.all : List Dict := [.customer, .site, .robot, .source, .topic, .schema, .topicSet]

def loadCaches (site : Site) : Prog Caches :=
  Eff.fold (fun caches d => do
    let rows ← query cfg site fun t => t.dict d
    pure (Function.update caches d (cacheOf rows))) (fun _ _ => none) Dict.all

/-! ## The identity of an object -/

def resolveKeyDims (key : String) : Prog (Option (Dims × String)) := do
  let eff := (← intendedKey cfg key).getD key
  match parseHiveKey eff with
  | none => pure none
  | some dims => pure (if rebuildHiveKey dims = lstrip eff then some (dims, eff) else none)

/-- The ids of the four dimensions. -/
structure Ids where
  customer : Nat
  site : Nat
  robot : Nat
  source : Nat
  deriving DecidableEq, Repr

def Ids.composite (ids : Ids) (dims : Dims) : Composite :=
  ⟨ids.customer, ids.site, ids.robot, ids.source, dims.date, dims.filename⟩

def resolveIds (dims : Dims) : Prog Ids := do
  let customer ← resolveCustomer cfg .resolveIds dims.customer
  let site ← resolveSite cfg .resolveIds customer dims.site
  let robot ← resolveRobot cfg .resolveIds site dims.robot
  let source ← resolveSource cfg .resolveIds dims.source
  commit cfg .resolveIds
  pure ⟨customer, site, robot, source⟩

/-! ## Failures -/

inductive CatalogResult where
  | cataloged
  | skipped
  | failed (detail : String)
  deriving DecidableEq, Repr

def recordFailure (site : Site) (key text : String) : Prog Unit := do
  let now ← nowNs cfg
  execute cfg site fun t => .ok (t.upsertFailure ⟨key, now, text⟩)

def quarantineExisting (ids : Ids) (dims : Dims) (effKey text : String) : Prog Unit := do
  execute cfg .quarantine fun t => .ok (t.deleteFiles fun row => row.composite = ids.composite dims)
  recordFailure cfg .quarantine effKey text
  commit cfg .quarantine

def recordUnparseable (key : String) : Prog Unit := do
  recordFailure cfg .unparseable key "unparseable key"
  commit cfg .unparseable

/-! ## The row of a file -/

/-- `by_topic`, in the order of its insertions: the schema and the count of each topic. -/
abbrev ByTopic (τ σ : Type) : Type := List (τ × σ × Nat)

/-- A channel is added to its topic; a topic that is there keeps its schema. -/
def ByTopic.add {τ σ : Type} [DecidableEq τ] (byTopic : ByTopic τ σ) (topic : τ) (schema : σ) (count : Nat) :
    ByTopic τ σ :=
  if byTopic.any fun x => x.1 = topic then
    byTopic.map fun x => if x.1 = topic then (x.1, x.2.1, x.2.2 + count) else x
  else byTopic ++ [(topic, schema, count)]

def ByTopic.members (byTopic : ByTopic Nat Nat) : List (Nat × Nat) :=
  sortMembers (byTopic.map fun x => (x.1, x.2.1))

def ByTopic.count (byTopic : ByTopic Nat Nat) (topic : Nat) : Nat :=
  ((byTopic.find? fun x => x.1 = topic).map fun x => x.2.2).getD 0

def ByTopic.counts (byTopic : ByTopic Nat Nat) : List Nat := byTopic.members.map fun m => byTopic.count m.1

def encodeCountsBlob (counts : List Nat) : List UInt8 := Wire.varint.writeAll counts

/-- The loops of `decode_counts_blob` and `decode_varint`, as one pass over the bytes. `pending` is the number that
is being read with its shift. -/
def decodeCounts (counts : List Nat) (pending : Option (Nat × Nat)) : List UInt8 → Except String (List Nat)
  | [] => if pending.isSome then .error "truncated varint" else .ok counts
  | byte :: rest =>
    let result := (pending.getD (0, 0)).1
    let shift := (pending.getD (0, 0)).2
    let result := result ||| (byte.toNat % 128) <<< shift
    if byte.toNat < 128 then decodeCounts (counts ++ [result]) none rest
    else decodeCounts counts (some (result, shift + 7)) rest

def decodeCountsBlob (blob : List UInt8) : Except String (List Nat) := decodeCounts [] none blob

def isErrorTag (tag : String × String) : Bool :=
  tag.1 ∈ ["error", "has_error"] && tag.2.toLower ∈ ["1", "true", "yes"]

/-- The count check of `_write_file_row`. -/
def countMismatch (counts : List Nat) (messageCount : Nat) : Exn :=
  .error "ValueError" ("count mismatch: sum(counts)=" ++ toString counts.sum ++ " != message_count=" ++
    toString messageCount)

/-- The topics of a summary, resolved. -/
def resolveChannels (summary : FileSummary) : Prog (ByTopic Nat Nat) :=
  Eff.fold (fun byTopic ch => do
    let topic ← resolveTopic cfg .writeFileRow ch.topic
    let schema ← resolveSchema cfg .writeFileRow ch.schemaName ch.schemaEncoding
    pure (byTopic.add topic schema ch.messageCount)) [] summary.channels

/-- The transaction of `_write_file_row`. -/
def fileTransaction (dims : Dims) (effKey : String) (ids : Ids) (stat : Stat) (summary : FileSummary) :
    Prog Unit := do
  let byTopic ← resolveChannels cfg summary
  let set ← resolveTopicSet cfg .writeFileRow (cfg.fingerprint byTopic.members) byTopic.members
  if byTopic.counts.sum ≠ summary.messageCount then
    Eff.raise (countMismatch byTopic.counts summary.messageCount)
  else
    let now ← nowNs cfg
    execute cfg .writeFileRow fun t => t.upsertFile {
      id := 0, composite := ids.composite dims, etag := stat.etag, sizeBytes := stat.size,
      lastModifiedNs := stat.mtimeNs, catalogedAtNs := now, startTimeNs := summary.startTimeNs,
      endTimeNs := summary.endTimeNs, chunkCount := summary.chunkCount, topicSetId := set,
      topicCounts := encodeCountsBlob byTopic.counts, hasError := false }
    match ← query cfg .writeFileRow fun t => t.fileWith (ids.composite dims) with
    | none => Eff.raise noneSubscript
    | some row => do
      execute cfg .writeFileRow fun t => .ok (t.deleteEmbedded row.id)
      let tags := cfg.deriveTags summary
      Eff.each tags fun tag => execute cfg .writeFileRow fun t => t.insertEmbedded ⟨row.id, tag.1, tag.2⟩
      let hasError := tags.any isErrorTag || summary.messageCount == 0
      execute cfg .writeFileRow fun t => .ok (t.setHasError row.id hasError)
      execute cfg .writeFileRow fun t => .ok (t.deleteFailure effKey)

def writeFileRow (dims : Dims) (effKey : String) (ids : Ids) (stat : Stat) (summary : FileSummary) :
    Prog CatalogResult := do
  match ← Eff.attempt (withConn cfg .writeFileRow (fileTransaction cfg dims effKey ids stat summary)) with
  | .ok _ => pure .cataloged
  | .error e => do
    -- the caches may hold ids of rows that the rollback has removed
    let caches ← loadCaches cfg .reloadCaches
    Eff.modify fun w => { w with caches := caches }
    quarantineExisting cfg ids dims effKey e.describe
    pure (.failed e.text)

def compositeRow (ids : Ids) (dims : Dims) : Prog (Option FileRow) :=
  query cfg .compositeRow fun t => t.fileWith (ids.composite dims)

def catalogObject (key : String) (known : Option Stat) : Prog CatalogResult := do
  let found ← match known with
    | some st => pure (some st)
    | none => stat cfg key
  match found with
  | none => pure (.failed "vanished")
  | some st => do
    match ← resolveKeyDims cfg key with
    | none => do
      recordUnparseable cfg key
      pure (.failed "unparseable key")
    | some (dims, effKey) => do
      let ids ← resolveIds cfg dims
      let existing ← compositeRow cfg ids dims
      if existing.map FileRow.etag = some st.etag then
        pure .skipped
      else
        match ← Eff.attempt (readSummary cfg key st.size) with
        | .error e => do
          quarantineExisting cfg ids dims effKey e.describe
          pure (.failed e.text)
        | .ok summary => writeFileRow cfg dims effKey ids st summary

/-- `_composite_ids`: the composite key of a file by the caches alone. -/
def compositeIds (caches : Caches) (dims : Dims) : Option Composite := do
  let customer ← caches .customer dims.customer
  let site ← caches .site (customer, dims.site)
  let robot ← caches .robot (site, dims.robot)
  let source ← caches .source dims.source
  some ⟨customer, site, robot, source, dims.date, dims.filename⟩

def deleteByKey (key : String) : Prog Bool := do
  match parseHiveKey key with
  | none => pure false
  | some dims => do
    match ← Eff.gets fun w => compositeIds w.caches dims with
    | none => pure false
    | some composite => do
      -- `rowcount` is the number of rows that the first statement deletes
      let found ← Eff.gets fun w => (w.conn.view.fileWith composite).isSome
      execute cfg .deleteByKey fun t => .ok (t.deleteFiles fun row => row.composite = composite)
      execute cfg .deleteByKey fun t => .ok (t.deleteFailure key)
      commit cfg .deleteByKey
      pure found

/-! ## The two phases of a reconcile -/

/-- What `extract_summary` returns. -/
inductive Extracted where
  | ready (summary : FileSummary)
  | vanished
  | error (text : String)
  deriving DecidableEq, Repr

/-- `Extract`, for a key that has been resolved. -/
structure Extract where
  stat : Stat
  dims : Dims
  effKey : String
  result : Extracted
  deriving DecidableEq, Repr

def extractSummary (key : String) (st : Stat) (dims : Dims) (effKey : String) : Prog Extract := do
  match ← Eff.attempt (readSummary cfg key st.size) with
  | .ok summary => pure ⟨st, dims, effKey, .ready summary⟩
  | .error e => do
    match ← Eff.attempt (stat cfg key) with
    | .ok none => pure ⟨st, dims, effKey, .vanished⟩
    | _ => pure ⟨st, dims, effKey, .error e.describe⟩

def applyExtract (ex : Extract) : Prog CatalogResult := do
  match ex.result with
  | .vanished => pure (.failed "vanished")
  | .error text => do
    let ids ← resolveIds cfg ex.dims
    quarantineExisting cfg ids ex.dims ex.effKey text
    pure (.failed text)
  | .ready summary => do
    let ids ← resolveIds cfg ex.dims
    writeFileRow cfg ex.dims ex.effKey ids ex.stat summary

end PjCloud.Builder
