import PjCloud.Builder.Tables
import PjCloud.Lib.Effect

/-!
# The builder's world

What the single writer works with: its connection to SQLite, the caches, and the source of recordings. What the
outside decides is asked at each interaction, numbered by a clock that ticks with it: whether a statement or a
commit fails, what happens to the bucket and to the stop event up to then, and what a read returns that the
bucket changed under.

`sqlite3` opens a transaction in front of the first statement that writes. A statement that fails leaves the
transaction open, unless the error is one at which SQLite rolls back itself.
-/

namespace PjCloud.Builder
open Lib

/-- A channel of a summary. -/
structure ChannelInfo where
  topic : String
  schemaName : String
  schemaEncoding : String
  messageCount : Nat
  deriving DecidableEq, Repr

structure FileSummary where
  startTimeNs : Nat
  endTimeNs : Nat
  messageCount : Nat
  chunkCount : Nat
  channels : List ChannelInfo
  deriving DecidableEq, Repr

structure Stat where
  size : Nat
  etag : String
  mtimeNs : Nat
  deriving DecidableEq, Repr

/-- One version of an object: its fingerprint, what a read of its summary comes to, and the key in its `s3_key`
metadata. -/
structure Obj where
  stat : Stat
  summary : Except Exn FileSummary
  s3Key : Option String

/-- What can happen outside. -/
inductive Change where
  | upload (key : String) (obj : Obj)
  | remove (key : String)
  | stop

/-- A failure of SQLite. -/
structure Fault where
  exn : Exn
  endsTransaction : Bool

/-- The sections of the source that a statement or a commit can be in. -/
inductive Site where
  | resolveIds
  | compositeRow
  | writeFileRow
  | reloadCaches
  | quarantine
  | unparseable
  | deleteByKey
  | lookupFile
  | updateTags
  | effectiveTags
  | storedEtags
  | sweep
  | recordBuild
  | publish
  deriving DecidableEq, Repr

/-- What the builder is set up with, and what the outside decides at each tick. `isLocal` for a `LocalSource`. -/
structure Setup where
  fingerprint : List (Nat × Nat) → String
  deriveTags : FileSummary → List (String × String)
  isLocal : Bool
  fault : Nat → Site → Option Fault
  changes : Nat → List Change
  network : Nat → Option Exn
  torn : Nat → Except Exn FileSummary
  clock : Nat → Nat

/-- `derive_tags`, as the source has it. -/
def deriveTags (_ : FileSummary) : List (String × String) := []

abbrev Caches : Type := (d : Dict) → d.Key → Option Nat

/-- The connection: what is committed, and the tables as the open transaction sees them. -/
structure Conn where
  durable : Tables := {}
  txn : Option Tables := none

namespace Conn
variable (c : Conn)

def view : Tables := c.txn.getD c.durable

/-- `BEGIN`, unless a transaction is open. -/
def begin : Conn := { c with txn := some c.view }

def write (t : Tables) : Conn := { c with txn := some t }

def commit : Conn := { durable := c.view, txn := none }

def rollback : Conn := { c with txn := none }

end Conn

/-- The world of the writer. -/
structure World where
  conn : Conn := {}
  caches : Caches := fun _ _ => none
  bucket : String → Option Obj := fun _ => none
  stop : Bool := false
  tick : Nat := 0

abbrev Prog (α : Type) : Type := Eff World Exn α

/-- A change happens. -/
def Change.apply (w : World) : Change → World
  | .upload key obj => { w with bucket := Function.update w.bucket key (some obj) }
  | .remove key => { w with bucket := Function.update w.bucket key none }
  | .stop => { w with stop := true }

/-- A change is one of a key. -/
def Change.touches (key : String) : Change → Bool
  | .upload k _ => k = key
  | .remove k => k = key
  | .stop => false

variable (cfg : Setup)

/-! ## The database -/

def World.fail (w : World) (fault : Fault) : World :=
  if fault.endsTransaction then { w with conn := w.conn.rollback } else w

/-- `conn.execute` of a statement that writes. -/
def execute (site : Site) (stmt : Tables → Except Exn Tables) : Prog Unit := fun w =>
  let w' := { w with tick := w.tick + 1, conn := w.conn.begin }
  match cfg.fault w.tick site with
  | some fault => (.error fault.exn, w'.fail fault)
  | none =>
    match stmt w.conn.view with
    | .ok t => (.ok (), { w' with conn := w.conn.write t })
    | .error e => (.error e, w')

/-- `conn.execute` of a `SELECT`. -/
def query {α : Type} (site : Site) (select : Tables → α) : Prog α := fun w =>
  let w' := { w with tick := w.tick + 1 }
  match cfg.fault w.tick site with
  | some fault => (.error fault.exn, w'.fail fault)
  | none => (.ok (select w.conn.view), w')

/-- `conn.commit()` -/
def commit (site : Site) : Prog Unit := fun w =>
  let w' := { w with tick := w.tick + 1 }
  match w.conn.txn, cfg.fault w.tick site with
  | some _, some fault => (.error fault.exn, w'.fail fault)
  | _, _ => (.ok (), { w' with conn := w.conn.commit })

/-- `conn.rollback()` -/
def rollback : Prog Unit := Eff.modify fun w => { w with conn := w.conn.rollback }

/-- `with conn:` commits at the end; an exception, also one of the commit, rolls back. -/
def withConn {α : Type} (site : Site) (body : Prog α) : Prog α := do
  match ← Eff.attempt (do let a ← body; commit cfg site; pure a) with
  | .ok a => pure a
  | .error e => do
    rollback
    Eff.raise e

def nowNs : Prog Nat := fun w => (.ok (cfg.clock w.tick), { w with tick := w.tick + 1 })

/-! ## The source -/

def reach : Prog Nat := fun w =>
  (.ok w.tick, (cfg.changes w.tick).foldl Change.apply { w with tick := w.tick + 1 })

/-- `source.stat(key)` -/
def stat (key : String) : Prog (Option Stat) := do
  let n ← reach cfg
  match cfg.network n with
  | some e => Eff.raise e
  | none => Eff.gets fun w => (w.bucket key).map Obj.stat

def noSuchKey : Exn := .error "NoSuchKey" "The specified key does not exist."

/-- `source.read_summary(key, size)`: several range reads, so what it returns is only known if the object is
there from the first to the last and has the size that it was listed with. -/
def readSummary (key : String) (size : Nat) : Prog FileSummary := do
  let _ ← reach cfg
  let found ← Eff.gets fun w => w.bucket key
  let n ← reach cfg
  match cfg.network n with
  | some e => Eff.raise e
  | none =>
    if (cfg.changes n).any (Change.touches key) then
      Eff.lift (cfg.torn n)
    else
      match found with
      | none => Eff.raise noSuchKey
      | some obj => if obj.stat.size = size then Eff.lift obj.summary else Eff.lift (cfg.torn n)

/-- `source.intended_key(key)`: only a local file has an override. -/
def intendedKey (key : String) : Prog (Option String) :=
  if cfg.isLocal then do
    let _ ← reach cfg
    Eff.gets fun w => (w.bucket key).bind Obj.s3Key
  else pure none

def raiseIfStopped : Prog Unit := do
  let _ ← reach cfg
  if ← Eff.gets World.stop then Eff.raise .cancelled

end PjCloud.Builder
