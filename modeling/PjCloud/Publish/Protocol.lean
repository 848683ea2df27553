import PjCloud.Builder.Objects
import PjCloud.Reader.Keys

/-!
# Publishing a catalog

`build_and_publish` (`mcap_catalog_builder/publish.py`): a catalog is built in a temporary database, the tag edits
of the served one are carried over by the names of their files, both are checkpointed, and the temporary file is
renamed over the served one.

The world has the writer of the temporary database, the files in the directory, and a log of the checkpoints and
of what is done to the served files. What SQLite does is up to the outside: whether the temporary database opens,
what a checkpoint reports, whether the served database can be read. Removing and renaming files succeeds.
-/

namespace PjCloud.Publish
open Lib Builder

/-! ## The world -/

/-- A file at the served path: the logical content, and whether it is a valid database at all. -/
structure Served where
  tables : Tables
  valid : Bool

/-- The temporary database and its sidecars, as far as they are there. -/
structure TempFiles where
  main : Bool
  wal : Bool
  shm : Bool
  deriving DecidableEq, Repr

def TempFiles.gone : TempFiles := ⟨false, false, false⟩

structure Dir where
  served : Option Served
  temp : TempFiles

/-- What is logged: each report of a checkpoint of the temporary or the served database, with whether no frame is
left out of the file, and what is done to the served files. A removal is logged also if there is no such file. -/
inductive FileOp where
  | checkpointed (clean : Bool)
  | gated (clean : Bool)
  | removeServedWal
  | replace
  deriving DecidableEq, Repr

structure PublishWorld where
  temp : World
  dir : Dir
  log : List FileOp

/-- What is raised. `sqlite` is a `sqlite3.Error` of the gate, which is told from the others by its class. -/
inductive PublishError where
  | raised (e : Exn)
  | sqlite (e : Exn)
  | unstamped (text : String)
  | tempCheckpoint (text : String)
  | busy (text : String)
  deriving DecidableEq, Repr

abbrev Publishing (α : Type) : Type := Eff PublishWorld PublishError α

/-- The row of `PRAGMA wal_checkpoint(TRUNCATE)`. -/
structure Checkpoint where
  busy : Int
  logFrames : Int
  checkpointedFrames : Int
  deriving DecidableEq, Repr

/-- `busy == 0 and log_frames == checkpointed_frames` -/
def Checkpoint.clean (row : Checkpoint) : Bool := row.busy = 0 && row.logFrames = row.checkpointedFrames

/-- A failure of `open_db`, with the files that it leaves. -/
structure OpenFault where
  exn : Exn
  left : TempFiles

/-- What the writer is set up with, and what SQLite does. `gateReport n` is the checkpoint of the served database
at poll `n`; after poll `polls` the time of the gate is over. -/
structure PublishSetup where
  builder : Setup
  servedPath : String
  openFault : Option OpenFault
  floorFault : Option Exn
  overridesFault : Option Exn
  tempCheckpoint : Except Exn Checkpoint
  gateReport : Nat → Except Exn Checkpoint
  polls : Nat

variable (cfg : PublishSetup)

/-! ## Files -/

def setTempFiles (files : TempFiles) : Publishing Unit :=
  Eff.modify fun w => { w with dir := { w.dir with temp := files } }

def cleanupTemp : Publishing Unit := setTempFiles .gone

/-- `open_db(temp_path)`. The file is not there before, so the database that is opened is empty. -/
def openDb : Publishing Unit := do
  match cfg.openFault with
  | some fault => do
    setTempFiles fault.left
    Eff.raise (.raised fault.exn)
  | none => do
    setTempFiles ⟨true, true, true⟩
    Eff.modify fun w => { w with temp := { w.temp with conn := {} } }

/-- `conn.close()` -/
def closeTemp : Publishing Unit :=
  Eff.modify fun w => { w with temp := { w.temp with conn := w.temp.conn.rollback } }

def logOp (op : FileOp) : Publishing Unit := Eff.modify fun w => { w with log := w.log ++ [op] }

/-- `_remove_if_exists` of the `-wal` and the `-shm` of the served database. -/
def removeServedSidecars : Publishing Unit := logOp .removeServedWal

/-- `os.replace(temp_path, served_path)` -/
def replaceServed : Publishing Unit := do
  Eff.modify fun w => { w with
    dir := { served := some ⟨w.temp.conn.durable, true⟩, temp := { w.dir.temp with main := false } } }
  logOp .replace

/-! ## The temporary database -/

/-- A program of the writer on the temporary database. -/
def onTemp {α : Type} (program : Prog α) : Publishing α := fun w =>
  match program w.temp with
  | (.ok a, temp) => (.ok a, { w with temp := temp })
  | (.error e, temp) => (.error (.raised e), { w with temp := temp })

/-- `load_caches(conn)` -/
def loadTempCaches : Publishing Unit := onTemp do
  let caches ← loadCaches cfg.builder .publish
  Eff.modify fun w => { w with caches := caches }

/-- The rows of a query of the served database; none if it is not there or raises a `sqlite3.Error`. -/
def readServed {α : Type} (fault : Option Exn) (select : Tables → α) (dir : Dir) : Option α :=
  match dir.served, fault with
  | some served, none => if served.valid then some (select served.tables) else none
  | _, _ => none

def readOldBuildId : Publishing (Option Nat) :=
  Eff.gets fun w => (readServed cfg.floorFault (fun t => t.build.map Build.buildId) w.dir).join

/-- The upsert of `_seed_build_id_floor`. -/
def seedBuild (floor : Nat) (t : Tables) : Tables :=
  match t.build with
  | some old => { t with build := some { old with buildId := floor } }
  | none => { t with build := some ⟨floor, 0, 0, 0, "seeded"⟩ }

def seedBuildIdFloor (floor : Nat) : Publishing Unit := onTemp do
  execute cfg.builder .publish fun t => .ok (seedBuild floor t)
  commit cfg.builder .publish

def unstampedText : String :=
  "build_fn returned without stamping build_metadata (no db.record_build " ++
    "call landed) — publish aborted, temp build discarded."

def ensureBuildStamped : Publishing Unit := do
  let row ← onTemp (query cfg.builder .publish fun t => t.build.map Build.lastBuildNs)
  if row = none ∨ row = some 0 then Eff.raise (.unstamped unstampedText) else pure ()

/-- A row of `tags_override` with the names of its file. -/
structure NamedOverride where
  dims : Dims
  key : String
  value : Option String
  updatedAt : Nat
  deriving DecidableEq, Repr

/-- The row with the names of its file, where there is such a file and its names are found. -/
def nameOverride (t : Tables) (tag : OverrideTag) : Option NamedOverride := do
  let row ← t.files.find? fun row => row.id = tag.fileId
  let dims ← Reader.joinDims t row
  some ⟨dims, tag.key, tag.value, tag.updatedAt⟩

/-- The query of `_carry_forward_tags_override`. -/
def namedOverrides (t : Tables) : List NamedOverride := t.tagsOverride.filterMap (nameOverride t)

def lookupFileId (dims : Dims) (t : Tables) : Option Nat :=
  (t.files.find? fun row => Reader.joinDims t row = some dims).map FileRow.id

/-- `INSERT INTO tags_override`, without an upsert. -/
def insertOverride (tag : OverrideTag) (t : Tables) : Except Exn Tables :=
  if t.tagsOverride.any fun x => x.fileId = tag.fileId ∧ x.key = tag.key then
    .error (uniqueKey "tags_override.file_id, tags_override.key")
  else if t.hasFile tag.fileId then .ok { t with tagsOverride := t.tagsOverride ++ [tag] }
  else .error foreignKey

/-- One row is carried over, or dropped if its file is not there any more. -/
def carryRow (row : NamedOverride) : Prog Unit := do
  match ← query cfg.builder .publish (lookupFileId row.dims) with
  | none => pure ()
  | some id => execute cfg.builder .publish (insertOverride ⟨id, row.key, row.value, row.updatedAt⟩)

/-- `_carry_forward_tags_override` -/
def carryForward : Publishing Unit := do
  let old ← Eff.gets fun w => (readServed cfg.overridesFault namedOverrides w.dir).getD []
  if old = [] then pure ()
  else onTemp (withConn cfg.builder .publish (Eff.each old (carryRow cfg)))

def tableLocked : Exn := .error "OperationalError" "database table is locked"

/-- `_checkpoint_truncate(conn)`. SQLite refuses it while a transaction is open. -/
def checkpointTemp : Publishing Checkpoint := do
  if ← Eff.gets fun w => w.temp.conn.txn.isSome then Eff.raise (.raised tableLocked)
  else
    match cfg.tempCheckpoint with
    | .error e => Eff.raise (.raised e)
    | .ok row => do
      logOp (.checkpointed row.clean)
      pure row

/-- The build id of the served catalog is the floor of the next. -/
def seedFloor : Publishing Unit := do
  match ← readOldBuildId cfg with
  | some floor => seedBuildIdFloor cfg floor
  | none => pure ()

/-- The body of the inner `try`. -/
def buildTemp {α : Type} (build : Prog α) : Publishing (α × Checkpoint) := do
  loadTempCaches cfg
  seedFloor cfg
  let result ← onTemp build
  ensureBuildStamped cfg
  carryForward cfg
  let row ← checkpointTemp cfg
  pure (result, row)

/-! ## The swap -/

def reportText (row : Checkpoint) : String :=
  "busy=" ++ toString row.busy ++ " log_frames=" ++ toString row.logFrames ++
    " checkpointed_frames=" ++ toString row.checkpointedFrames

/-- The text of `PublishBusyError`. -/
def busyText (row : Checkpoint) : String :=
  "checkpoint-gate on '" ++ cfg.servedPath ++ "' did not complete within 5.0s (last " ++
    "wal_checkpoint(TRUNCATE) result: " ++ reportText row ++ "); a reader is holding it busy. " ++
    "Publish aborted, served DB untouched."

/-- The text of `TempCheckpointError`. -/
def tempText (row : Checkpoint) : String :=
  "temp build at '" ++ cfg.servedPath ++ ".building' could not be checkpointed to zero WAL frames " ++
    "(wal_checkpoint(TRUNCATE): " ++ reportText row ++ ") — publish aborted, temp build discarded, " ++
    "served DB untouched."

/-- One turn of the loop of the gate, up to its report. -/
def pollGate (poll : Nat) : Publishing Checkpoint := do
  match cfg.gateReport poll with
  | .error e => Eff.raise (.sqlite e)
  | .ok row => do
    logOp (.gated row.clean)
    pure row

/-- `_gate_old_served_db`, from a poll on with the polls left until its time is over. -/
def gateOldServedDb (poll : Nat) : Nat → Publishing Unit
  | 0 => do
    let row ← pollGate cfg poll
    if row.clean then pure () else Eff.raise (.busy (busyText cfg row))
  | left + 1 => do
    let row ← pollGate cfg poll
    if row.clean then pure () else gateOldServedDb (poll + 1) left

/-- What is done with the served files in front of the rename. -/
def gateServed : Publishing Unit := do
  if ← Eff.gets fun w => w.dir.served.isSome then
    match ← Eff.attempt (gateOldServedDb cfg 0 cfg.polls) with
    | .ok _ => pure ()
    | .error (.sqlite _) => removeServedSidecars
    | .error e => do
      cleanupTemp
      Eff.raise e
  else removeServedSidecars

/-- What follows the build of the temporary database. -/
def swap (row : Checkpoint) : Publishing Unit := do
  if row.clean then do
    Eff.modify fun w => { w with dir := { w.dir with temp := { w.dir.temp with wal := false, shm := false } } }
    gateServed cfg
    replaceServed
    removeServedSidecars
  else do
    cleanupTemp
    Eff.raise (.tempCheckpoint (tempText cfg row))

def buildAndPublish {α : Type} (build : Prog α) : Publishing α := do
  cleanupTemp
  openDb cfg
  let built ← Eff.attempt (buildTemp cfg build)
  closeTemp
  match built with
  | .error e => do
    cleanupTemp
    Eff.raise e
  | .ok (result, row) => do
    swap cfg row
    pure result

/-! ## The stamp -/

def recordBuild (cfg : Setup) (filesScanned filesFailed : Nat) (outcome : String) : Prog Unit := do
  let now ← nowNs cfg
  execute cfg .recordBuild fun t => .ok (t.upsertBuild ⟨1, now, filesScanned, filesFailed, outcome⟩)
  commit cfg .recordBuild

end PjCloud.Publish
