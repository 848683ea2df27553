import PjCloud.Lib.Fallible
import PjCloud.Planning.Recording

/-!
# Opening a session

`openFresh` (`server/internal/ws/handlers_session.go`) up to the registration of the session: the checks
on the selected keys, the catalog lookup, the chunk indexes, the schema drift check, the plan and the
bindings. `Store` is what lies outside the server: the catalog and the bucket.

The loads of the chunk indexes run side by side and finish in any order, and the first error to come is
the one that is reported. A text is cut at 256 characters (bytes, in the source).
-/

namespace PjCloud.Planning
open Lib Format

/-- The request (`pb.OpenFresh`). -/
structure OpenFresh where
  s3Keys : List String
  topicNames : List String
  timeRange : Option TimeWindow
  includeLatched : Bool
  deriving DecidableEq, Repr

/-- What the planner gets of the request. -/
def OpenFresh.planArgs (fresh : OpenFresh) : PlanArgs where
  topicNames := fresh.topicNames
  timeRange := fresh.timeRange
  includeLatched := fresh.includeLatched

/-- The codes with which an open is refused. -/
inductive OpenCode where
  | invalidRequest
  | notFound
  | internal
  | s3Unavailable
  deriving DecidableEq, Repr

/-- Why an open is refused. -/
structure OpenError where
  code : OpenCode
  message : String
  details : String := ""
  deriving DecidableEq, Repr

/-- A file of the catalog with its object (`catalog.FileRecord`). -/
structure CatalogFile where
  record : FileRecord
  s3Key : String
  s3ETag : String
  deriving DecidableEq, Repr

/-- How the catalog lookup fails: with `ErrFileNotFound` or otherwise. -/
inductive CatalogError where
  | fileNotFound (message : String)
  | failed (message : String)
  deriving DecidableEq, Repr

/-- The catalog, and the summaries and bytes of the objects in the bucket by key and version. -/
structure Store where
  getFilesByKeys : List String → Except CatalogError (List CatalogFile)
  summary : String → String → Except String Info
  getRange : String → String → Int → Int → Except String Bytes

def OpenError.invalid (message : String) : OpenError := ⟨.invalidRequest, message, ""⟩

/-- No key is empty or given twice. -/
def checkKeys : List String → List String → Except OpenError Unit
  | _, [] => .ok ()
  | seen, key :: rest =>
    if key = "" then
      .error (.invalid "empty s3_key in OpenFresh")
    else if key ∈ seen then
      let quoted := key.quote
      .error (.invalid s!"duplicate s3_key {quoted} in OpenFresh")
    else
      checkKeys (key :: seen) rest

def CatalogError.report : CatalogError → OpenError
  | .fileNotFound message => ⟨.notFound, message, ""⟩
  | .failed message => ⟨.internal, "catalog lookup failed", message⟩

def objectOf (files : List CatalogFile) (id : Nat) : Option CatalogFile :=
  files.reverse.find? fun f => f.record.id = id

/-- The summary of a file. -/
def summaryOf (store : Store) (files : List CatalogFile) (id : Nat) : Except String Info :=
  match objectOf files id with
  | none => store.summary "" ""
  | some f => store.summary f.s3Key f.s3ETag

/-- The error of the first load to fail. -/
def loadFailure (R : Runtime) (store : Store) (files : List CatalogFile) (args : PlanArgs) :
    Option String :=
  let loads := files.filter fun f => !f.record.skipped args.timeRange args.includeLatched
  (R.slice (fun _ => 0) loads).findSome? fun f =>
    let id := f.record.id
    match summaryOf store files id with
    | .ok _ => none
    | .error e => some s!"load chunk index for file {id}: {e}"

def reportLoad (message : String) : OpenError :=
  ⟨.s3Unavailable, String.ofList (message.toList.take 256), message⟩

/-- How a schema drift is reported. -/
def reportDrift (prev ts : TopicSchemaInfo) : OpenError :=
  let topic := ts.topicName.quote
  let (prevName, prevEncoding) := (prev.schemaName.quote, prev.schemaEncoding)
  let (name, encoding) := (ts.schemaName.quote, ts.schemaEncoding)
  .invalid (s!"schema drift on topic {topic} across the selected files " ++
    s!"({prevName}/{prevEncoding} vs {name}/{encoding}): " ++
    "a session binds one schema per topic — split the selection at the drift boundary")

/-- The chunk index of a file whose summary has been read. -/
def indexOf (R : Runtime) (store : Store) (files : List CatalogFile) (id : Nat) : FileChunkIndex :=
  match summaryOf store files id with
  | .ok info => chunkIndexFromInfo R info id
  | .error _ => { fileID := id }

/-- An open that is accepted. -/
structure Opened where
  files : List CatalogFile
  args : PlanArgs
  indexes : List FileChunkIndex
  plan : Plan
  bindings : Bindings

/-- Open a session. -/
def openFresh (R : Runtime) (store : Store) (fresh : OpenFresh) : Except OpenError Opened := do
  if fresh.s3Keys = [] then throw (.invalid "no s3_keys in OpenFresh")
  checkKeys [] fresh.s3Keys
  let files ← (store.getFilesByKeys fresh.s3Keys).mapError CatalogError.report
  let args := fresh.planArgs
  match loadFailure R store files args with
  | some message => throw (reportLoad message)
  | none =>
    let indexes := loadIndexes (files.map CatalogFile.record) (indexOf R store files) args
    let schemas ← (collectSchemas [] (fileSchemas indexes)).mapError fun d => reportDrift d.1 d.2
    let plan ← (buildPlan R (files.map CatalogFile.record) indexes args).mapError
      fun e => .invalid e.message
    return { files, args, indexes, plan, bindings := assignBindings R schemas (planTopicSet plan) }

/-- `blobChunkReader.ReadChunk` over the objects of the selection. -/
def readObject (store : Store) (files : List CatalogFile) (ref : ChunkRef) : Except String Bytes :=
  match objectOf files ref.fileID with
  | none =>
    let id := ref.fileID
    .error s!"session: no object key for file {id}"
  | some f => store.getRange f.s3Key f.s3ETag ref.offset ref.length

/-- The producer of the session. -/
def Opened.producer (o : Opened) (store : Store) (L : Library) (env : Setting) : Producer where
  plan := o.plan
  indexes := o.indexes
  readChunk := readObject store o.files
  opts := producerOpts env.cfg.withSessionDefaults o.args.timeRange
  bindings := o.bindings
  library := L
  codec := env.codec
  aged := env.aged

section Accepted
variable {R : Runtime} {store : Store} {fresh : OpenFresh} {o : Opened}

/-- An accepted open has loaded its files, found no drift, and has a plan. -/
structure Accepted (R : Runtime) (store : Store) (o : Opened) : Prop where
  loads : loadFailure R store o.files o.args = none
  indexes : o.indexes =
    loadIndexes (o.files.map CatalogFile.record) (indexOf R store o.files) o.args
  steady : collectSchemas [] (fileSchemas o.indexes) =
    .ok (firstSchemas [] (fileSchemas o.indexes))
  plan : buildPlan R (o.files.map CatalogFile.record) o.indexes o.args = .ok o.plan
  bindings : o.bindings =
    assignBindings R (firstSchemas [] (fileSchemas o.indexes)) (planTopicSet o.plan)

/-- What `openFresh` has done when it accepts. -/
lemma openFresh_ok (opened : openFresh R store fresh = .ok o) : Accepted R store o := by
  unfold openFresh at opened
  split at opened
  · cases opened
  · obtain ⟨-, -, opened⟩ := of_bind_ok opened
    obtain ⟨-, -, opened⟩ := of_bind_ok opened
    obtain ⟨files, -, opened⟩ := of_bind_ok opened
    dsimp only at opened
    split at opened
    · cases opened
    · rename_i loads
      obtain ⟨schemas, steady, opened⟩ := of_bind_ok opened
      obtain ⟨plan, planned, opened⟩ := of_bind_ok opened
      have first := of_mapError_ok steady
      obtain rfl := collectSchemas_ok first
      cases opened
      exact ⟨loads, rfl, first, of_mapError_ok planned, rfl⟩

end Accepted

end PjCloud.Planning
