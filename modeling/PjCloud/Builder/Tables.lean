import PjCloud.Builder.Keys
import PjCloud.Lib.Dictionary
import PjCloud.Lib.Wire

/-!
# The catalog's tables

The tables of `schema.sql` that the builder writes, and its statements as functions on them: what a statement
reads, changes or cascades to, and which constraint it can violate. Seven tables only give names a number; they
are one family (`Dict`). The `id` of a new row is one above the largest, as SQLite chooses it.
-/

namespace PjCloud.Builder
open Lib

/-- What is raised: the class of the exception and its text. -/
inductive Exn where
  | cancelled
  | error (type text : String)
  deriving DecidableEq, Repr

/-- `str(e)` -/
def Exn.text : Exn → String
  | .cancelled => "full audit cancelled"
  | .error _ text => text

/-- `f"{type(e).__name__}: {e}"` -/
def Exn.describe : Exn → String
  | .cancelled => "ReconcileCancelled: full audit cancelled"
  | .error type text => type ++ ": " ++ text

def foreignKey : Exn := .error "IntegrityError" "FOREIGN KEY constraint failed"

def uniqueKey (columns : String) : Exn := .error "IntegrityError" ("UNIQUE constraint failed: " ++ columns)

/-- The tables that give names a number. -/
inductive Dict where
  | customer
  | site
  | robot
  | source
  | topic
  | schema
  | topicSet
  deriving DecidableEq, Repr

/-- What is unique in each: a name, a name below a customer or a site, a name with an encoding, a fingerprint. -/
abbrev Dict.Key : Dict → Type
  | .site => Nat × String
  | .robot => Nat × String
  | .schema => String × String
  | .customer => String
  | .source => String
  | .topic => String
  | .topicSet => String

instance Dict.decKey : (d : Dict) → DecidableEq d.Key
  | .site => inferInstanceAs (DecidableEq (Nat × String))
  | .robot => inferInstanceAs (DecidableEq (Nat × String))
  | .schema => inferInstanceAs (DecidableEq (String × String))
  | .customer => inferInstanceAs (DecidableEq String)
  | .source => inferInstanceAs (DecidableEq String)
  | .topic => inferInstanceAs (DecidableEq String)
  | .topicSet => inferInstanceAs (DecidableEq String)

/-- The columns that a row of `files` is unique by. -/
structure Composite where
  customerId : Nat
  siteId : Nat
  robotId : Nat
  sourceId : Nat
  date : String
  filename : String
  deriving DecidableEq, Repr

/-- A row of `files`. -/
structure FileRow where
  id : Nat
  composite : Composite
  etag : String
  sizeBytes : Nat
  lastModifiedNs : Nat
  catalogedAtNs : Nat
  startTimeNs : Nat
  endTimeNs : Nat
  chunkCount : Nat
  topicSetId : Nat
  topicCounts : List UInt8
  hasError : Bool
  deriving DecidableEq, Repr

/-- A row of `topic_set_members`. -/
structure Member where
  setId : Nat
  topicId : Nat
  schemaId : Nat
  deriving DecidableEq, Repr

/-- A row of `tags_embedded`. -/
structure EmbeddedTag where
  fileId : Nat
  key : String
  value : String
  deriving DecidableEq, Repr

/-- A row of `tags_override`. Without a value it masks the embedded tag. -/
structure OverrideTag where
  fileId : Nat
  key : String
  value : Option String
  updatedAt : Nat
  deriving DecidableEq, Repr

/-- A row of `catalog_failures`. -/
structure Failure where
  s3Key : String
  failedAtNs : Nat
  errorText : String
  deriving DecidableEq, Repr

/-- The row of `build_metadata`. -/
structure Build where
  buildId : Nat
  lastBuildNs : Nat
  filesScanned : Nat
  filesFailed : Nat
  outcome : String
  deriving DecidableEq, Repr

/-- The tables. -/
structure Tables where
  dict : (d : Dict) → List (Nat × d.Key) := fun _ => []
  members : List Member := []
  files : List FileRow := []
  tagsEmbedded : List EmbeddedTag := []
  tagsOverride : List OverrideTag := []
  failures : List Failure := []
  build : Option Build := none

namespace Tables
variable (t : Tables)

/-! ## The dictionaries -/

def has (d : Dict) (i : Nat) : Bool := (t.dict d).any fun row => row.1 = i

/-- The row that a key refers to is there. -/
def hasParent : (d : Dict) → d.Key → Bool
  | .site, key => t.has .customer key.1
  | .robot, key => t.has .site key.1
  | _, _ => true

def addName (d : Dict) (key : d.Key) : Tables :=
  { t with dict := Function.update t.dict d (addKey (t.dict d) key) }

/-- `INSERT OR IGNORE` into a dictionary. A row that is there already is not checked. -/
def insertOrIgnore (d : Dict) (key : d.Key) : Except Exn Tables :=
  if (idOf (t.dict d) key).isSome then .ok t
  else if t.hasParent d key then .ok (t.addName d key)
  else .error foreignKey

/-- `INSERT INTO topic_sets` -/
def insertTopicSet (fingerprint : String) : Except Exn Tables :=
  if (idOf (t.dict .topicSet) fingerprint).isSome then .error (uniqueKey "topic_sets.fingerprint")
  else .ok (t.addName .topicSet fingerprint)

/-- `INSERT INTO topic_set_members` -/
def insertMember (m : Member) : Except Exn Tables :=
  if t.members.any fun x => x.setId = m.setId ∧ x.topicId = m.topicId then
    .error (uniqueKey "topic_set_members.set_id, topic_set_members.topic_id")
  else if t.has .topicSet m.setId && t.has .topic m.topicId && t.has .schema m.schemaId then
    .ok { t with members := t.members ++ [m] }
  else .error foreignKey

/-! ## Files -/

def fileWith (c : Composite) : Option FileRow := t.files.find? fun row => row.composite = c

/-- The rows that a file refers to are there. -/
def hasParents (row : FileRow) : Bool :=
  t.has .customer row.composite.customerId && t.has .site row.composite.siteId &&
    t.has .robot row.composite.robotId && t.has .source row.composite.sourceId &&
    t.has .topicSet row.topicSetId

/-- A row takes the place of the one with its composite key and keeps the id of that, or comes last with a new
id. The id of `row` is not used. -/
def putRow (row : FileRow) : Tables :=
  match t.fileWith row.composite with
  | some old => { t with
      files := t.files.map fun x => if x.composite = row.composite then { row with id := old.id } else x }
  | none => { t with files := t.files ++ [{ row with id := nextId (t.files.map FileRow.id) }] }

/-- `INSERT INTO files … ON CONFLICT … DO UPDATE` -/
def upsertFile (row : FileRow) : Except Exn Tables :=
  if t.hasParents row then .ok (t.putRow row) else .error foreignKey

/-- `DELETE FROM files`, with the tags of the deleted rows. -/
def deleteFiles (p : FileRow → Bool) : Tables :=
  let gone := (t.files.filter p).map FileRow.id
  { t with
    files := t.files.filter fun row => !p row
    tagsEmbedded := t.tagsEmbedded.filter fun tag => tag.fileId ∉ gone
    tagsOverride := t.tagsOverride.filter fun tag => tag.fileId ∉ gone }

/-- `UPDATE files SET has_error` -/
def setHasError (id : Nat) (hasError : Bool) : Tables :=
  { t with files := t.files.map fun row => if row.id = id then { row with hasError := hasError } else row }

/-! ## Tags -/

def hasFile (id : Nat) : Bool := t.files.any fun row => row.id = id

/-- `DELETE FROM tags_embedded WHERE file_id` -/
def deleteEmbedded (id : Nat) : Tables :=
  { t with tagsEmbedded := t.tagsEmbedded.filter fun tag => tag.fileId ≠ id }

/-- `INSERT INTO tags_embedded` -/
def insertEmbedded (tag : EmbeddedTag) : Except Exn Tables :=
  if t.tagsEmbedded.any fun x => x.fileId = tag.fileId ∧ x.key = tag.key then
    .error (uniqueKey "tags_embedded.file_id, tags_embedded.key")
  else if t.hasFile tag.fileId then .ok { t with tagsEmbedded := t.tagsEmbedded ++ [tag] }
  else .error foreignKey

/-- The two upserts into `tags_override`. -/
def upsertOverride (tag : OverrideTag) : Except Exn Tables :=
  if t.hasFile tag.fileId then
    if t.tagsOverride.any fun x => x.fileId = tag.fileId ∧ x.key = tag.key then
      .ok { t with
        tagsOverride := t.tagsOverride.map fun x =>
          if x.fileId = tag.fileId ∧ x.key = tag.key then tag else x }
    else .ok { t with tagsOverride := t.tagsOverride ++ [tag] }
  else .error foreignKey

/-- `DELETE FROM tags_override WHERE file_id AND key` -/
def deleteOverride (id : Nat) (key : String) : Tables :=
  { t with tagsOverride := t.tagsOverride.filter fun tag => ¬ (tag.fileId = id ∧ tag.key = key) }

/-- `SELECT 1 FROM tags_embedded WHERE file_id AND key` -/
def hasEmbedded (id : Nat) (key : String) : Bool :=
  t.tagsEmbedded.any fun tag => tag.fileId = id ∧ tag.key = key

/-! ## The other tables -/

/-- The upsert of `record_failure`. -/
def upsertFailure (failure : Failure) : Tables :=
  if t.failures.any fun x => x.s3Key = failure.s3Key then
    { t with failures := t.failures.map fun x => if x.s3Key = failure.s3Key then failure else x }
  else { t with failures := t.failures ++ [failure] }

/-- `DELETE FROM catalog_failures WHERE s3_key` -/
def deleteFailure (key : String) : Tables :=
  { t with failures := t.failures.filter fun x => x.s3Key ≠ key }

/-- The upsert of `record_build`; the build id given is that of a first build. -/
def upsertBuild (build : Build) : Tables :=
  match t.build with
  | some old => { t with build := some { build with buildId := old.buildId + 1 } }
  | none => { t with build := some build }

end Tables

end PjCloud.Builder
