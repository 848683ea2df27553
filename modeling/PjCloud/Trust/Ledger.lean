import Mathlib.Logic.Function.Basic
import PjCloud.Lib.Machine
import PjCloud.Lib.Versions
import PjCloud.Trust.Origins

/-!
# The ledger of trusted origins

`TrustedOrigins::recordSuccessfulHello` and the trust set of `ImportRuntime`, for any number of processes. A call is
taken apart into the operations that can fail: the lock on the sidecar file, the read under it, and open, write,
fsync, rename and directory fsync of `writeOrigins`. A process can die and the machine can crash between any two.

A call that finds its origin recorded returns true without a sync, and a ledger that cannot be read is taken for an
empty one. An origin stays recorded after its call returned true if neither happens when it matters (`Covered`).
-/

namespace PjCloud.Trust
open Lib

/-- A ledger file. `content` is what a read gives and `synced` what the last successful fsync of the file put on
the disk; `none` is a text that is no ledger. -/
structure LedgerFile where
  content : Option Origins
  synced : Option Origins
  deriving DecidableEq, Repr

/-- `loadOrigins`, of a file that can be read. -/
def originsIn (file : Option LedgerFile) : Origins := (file.bind LedgerFile.content).getD []

def onDisk (file : Option LedgerFile) : Option LedgerFile := file.map fun f => { f with content := f.synced }

/-- Where a call is, with the URI. From `loading` on it holds the lock. -/
inductive Pc where
  | idle
  | waiting (uri : List Char)
  | loading (uri : List Char)
  | opening (uri : List Char) (new : Origins)
  | writing (uri : List Char) (new : Origins)
  | syncing (uri : List Char) (new : Origins)
  | replacing (uri : List Char) (new : LedgerFile)
  | syncingDir (uri : List Char)
  | returning (uri : List Char) (ok : Bool)
  deriving DecidableEq, Repr

def critical : Pc → Bool
  | .idle | .waiting _ => false
  | _ => true

/-- A process: its call, and `trusted_keys_`. -/
structure Proc where
  pc : Pc
  trusted : List (List Char)
  deriving DecidableEq, Repr

/-- The directory entry of the ledger, the lock, the processes, and the URIs whose call returned true. -/
structure World where
  ledger : Versions (Option LedgerFile)
  holder : Option Nat
  procs : Nat → Proc
  promised : List (List Char)

/-- The operations of a call, each with its outcome, and what else can happen. -/
inductive Event where
  | start (uri : List Char)
  | lock
  | timeout
  | load (readable : Bool)
  | openTemp (ok : Bool)
  | write (ok : Bool)
  | syncFile (ok : Bool)
  | rename (ok : Bool)
  | syncDir (ok : Bool)
  | finish
  | preload (readable : Bool)
  | die
  deriving DecidableEq, Repr

inductive LedgerAction where
  | act (pid : Nat) (event : Event)
  | crash (choice : Nat)
  deriving DecidableEq, Repr

def World.setPc (w : World) (pid : Nat) (pc : Pc) : World :=
  { w with procs := Function.update w.procs pid { w.procs pid with pc } }

def World.read (w : World) (readable : Bool) : Origins := if readable then originsIn w.ledger.current else []

/-- A step of a process. -/
def next (w : World) (pid : Nat) (event : Event) : Option World :=
  match event, (w.procs pid).pc with
  | .start uri, .idle => some (if (trustedOriginKey uri).isSome then w.setPc pid (.waiting uri) else w)
  | .lock, .waiting uri =>
    if w.holder = none then some ({ w with holder := some pid }.setPc pid (.loading uri)) else none
  | .timeout, .waiting _ => some (w.setPc pid .idle)
  | .load readable, .loading uri =>
    if isTrusted (w.read readable) uri then some (w.setPc pid (.returning uri true))
    else some (w.setPc pid (.opening uri (recordOrigin (w.read readable) uri)))
  | .openTemp ok, .opening uri new => some (w.setPc pid (if ok then .writing uri new else .returning uri false))
  | .write ok, .writing uri new => some (w.setPc pid (if ok then .syncing uri new else .returning uri false))
  | .syncFile ok, .syncing uri new =>
    some (w.setPc pid (if ok then .replacing uri ⟨some new, some new⟩ else .returning uri false))
  | .rename ok, .replacing uri file =>
    if ok then some ({ w with ledger := w.ledger.replace (some file) }.setPc pid (.syncingDir uri))
    else some (w.setPc pid (.returning uri false))
  | .syncDir ok, .syncingDir uri =>
    if ok then some ({ w with ledger := w.ledger.sync }.setPc pid (.returning uri true))
    else some (w.setPc pid (.returning uri false))
  | .finish, .returning uri ok =>
    if ok then
      some { w with
        holder := none
        promised := uri :: w.promised
        procs := Function.update w.procs pid
          { pc := .idle, trusted := (trustedOriginKey uri).toList ++ (w.procs pid).trusted } }
    else some ({ w with holder := none }.setPc pid .idle)
  | .preload readable, .idle => some { w with
      procs := Function.update w.procs pid { pc := .idle, trusted := (w.read readable).reduceOption } }
  | .die, _ => some { w with
      holder := if w.holder = some pid then none else w.holder
      procs := Function.update w.procs pid { pc := .idle, trusted := [] } }
  | _, _ => none

/-- The machine crashes: all processes end, and one of the versions of the ledger is left. -/
def crashed (w : World) (choice : Nat) : World where
  ledger := w.ledger.crash onDisk choice
  holder := none
  procs := fun _ => { pc := .idle, trusted := [] }
  promised := w.promised

/-- What is read of the file is on the disk. -/
def Durable (file : Option LedgerFile) : Prop := onDisk file = file

/-- The calls of any number of processes, from any ledger that is on the disk. -/
def ledgers : Machine World LedgerAction where
  init w := w.ledger.later = [] ∧ Durable w.ledger.synced ∧ w.holder = none ∧
    (∀ pid, w.procs pid = { pc := .idle, trusted := [] }) ∧ w.promised = []
  guard w
    | .act pid event => (next w pid event).isSome
    | .crash _ => true
  exec w
    | .act pid event => (next w pid event).getD w
    | .crash choice => crashed w choice

/-! ## Steps -/

/-- What a step of a process does. -/
inductive Act (w : World) (pid : Nat) : Event → World → Prop
  | noOrigin {uri} : Act w pid (.start uri) w
  | start {uri} : (w.procs pid).pc = .idle → (trustedOriginKey uri).isSome →
      Act w pid (.start uri) (w.setPc pid (.waiting uri))
  | lock {uri} : (w.procs pid).pc = .waiting uri → w.holder = none →
      Act w pid .lock ({ w with holder := some pid }.setPc pid (.loading uri))
  | timeout {uri} : (w.procs pid).pc = .waiting uri → Act w pid .timeout (w.setPc pid .idle)
  | known {uri readable} : (w.procs pid).pc = .loading uri → isTrusted (w.read readable) uri = true →
      Act w pid (.load readable) (w.setPc pid (.returning uri true))
  | load {uri readable} : (w.procs pid).pc = .loading uri → isTrusted (w.read readable) uri = false →
      Act w pid (.load readable) (w.setPc pid (.opening uri (recordOrigin (w.read readable) uri)))
  | opened {uri new} : (w.procs pid).pc = .opening uri new → Act w pid (.openTemp true) (w.setPc pid (.writing uri new))
  | written {uri new} : (w.procs pid).pc = .writing uri new → Act w pid (.write true) (w.setPc pid (.syncing uri new))
  | synced {uri new} : (w.procs pid).pc = .syncing uri new →
      Act w pid (.syncFile true) (w.setPc pid (.replacing uri ⟨some new, some new⟩))
  | renamed {uri file} : (w.procs pid).pc = .replacing uri file →
      Act w pid (.rename true) ({ w with ledger := w.ledger.replace (some file) }.setPc pid (.syncingDir uri))
  | covered {uri} : (w.procs pid).pc = .syncingDir uri →
      Act w pid (.syncDir true) ({ w with ledger := w.ledger.sync }.setPc pid (.returning uri true))
  | failed {uri event} : critical (w.procs pid).pc = true → Act w pid event (w.setPc pid (.returning uri false))
  | succeed {uri} : (w.procs pid).pc = .returning uri true →
      Act w pid .finish { w with
        holder := none
        promised := uri :: w.promised
        procs := Function.update w.procs pid
          { pc := .idle, trusted := (trustedOriginKey uri).toList ++ (w.procs pid).trusted } }
  | fail {uri} : (w.procs pid).pc = .returning uri false → Act w pid .finish ({ w with holder := none }.setPc pid .idle)
  | preload {readable} : (w.procs pid).pc = .idle →
      Act w pid (.preload readable) { w with
        procs := Function.update w.procs pid { pc := .idle, trusted := (w.read readable).reduceOption } }
  | die : Act w pid .die { w with
      holder := if w.holder = some pid then none else w.holder
      procs := Function.update w.procs pid { pc := .idle, trusted := [] } }

variable {w w' : World} {pid : Nat} {event : Event}

lemma act_of_next (step : next w pid event = some w') : Act w pid event w' := by
  unfold next at step
  split at step
  · rename_i uri pc
    split at step <;> cases step
    · rename_i some
      exact .start pc some
    · exact .noOrigin
  · rename_i uri pc
    split at step
    · rename_i free
      cases step
      exact .lock pc free
    · cases step
  · rename_i pc
    cases step
    exact .timeout pc
  · rename_i readable uri pc
    split at step <;> cases step
    · rename_i known
      exact .known pc known
    · rename_i unknown
      exact .load pc (Bool.eq_false_iff.mpr unknown)
  · rename_i ok uri new pc
    cases step
    cases ok with
    | true => exact .opened pc
    | false => exact .failed (by rw [pc]; rfl)
  · rename_i ok uri new pc
    cases step
    cases ok with
    | true => exact .written pc
    | false => exact .failed (by rw [pc]; rfl)
  · rename_i ok uri new pc
    cases step
    cases ok with
    | true => exact .synced pc
    | false => exact .failed (by rw [pc]; rfl)
  · rename_i ok uri file pc
    cases ok with
    | true =>
      cases step
      exact .renamed pc
    | false =>
      cases step
      exact .failed (by rw [pc]; rfl)
  · rename_i ok uri pc
    cases ok with
    | true =>
      cases step
      exact .covered pc
    | false =>
      cases step
      exact .failed (by rw [pc]; rfl)
  · rename_i uri ok pc
    cases ok with
    | true =>
      cases step
      exact .succeed pc
    | false =>
      cases step
      exact .fail pc
  · rename_i readable pc
    cases step
    exact .preload pc
  · cases step
    exact .die
  · cases step

/-! ## Durability -/

/-- The origin of the URI is in the file. -/
def Has (uri : List Char) (file : Option LedgerFile) : Prop := isTrusted (originsIn file) uri = true

/-- The new origins have that of the call and all that were promised. -/
structure New (w : World) (uri : List Char) (new : Origins) : Prop where
  own : isTrusted new uri = true
  kept : ∀ v ∈ w.promised, isTrusted new v = true

/-- What a call knows. -/
def CallSound (w : World) : Pc → Prop
  | .waiting uri | .loading uri => (trustedOriginKey uri).isSome
  | .opening uri new | .writing uri new | .syncing uri new => New w uri new
  | .replacing uri file => Durable (some file) ∧ New w uri (originsIn (some file))
  | .syncingDir uri => Has uri w.ledger.current
  | .returning uri true => w.ledger.All (Has uri)
  | _ => True

structure Sound (w : World) : Prop where
  lock : ∀ pid, critical (w.procs pid).pc = true → w.holder = some pid
  durable : w.ledger.All Durable
  kept : ∀ uri ∈ w.promised, w.ledger.All (Has uri)
  calls : ∀ pid, CallSound w (w.procs pid).pc

lemma CallSound.outside {pc : Pc} (sound : CallSound w pc) (out : critical pc = false) (w' : World) :
    CallSound w' pc := by
  cases pc with
  | idle => trivial
  | waiting uri => exact sound
  | _ => cases out

lemma New.congr {uri : List Char} {new : Origins} (sound : New w uri new) (promised : w'.promised = w.promised) :
    New w' uri new := ⟨sound.own, by rw [promised]; exact sound.kept⟩

lemma CallSound.congr {pc : Pc} (sound : CallSound w pc) (ledger : w'.ledger = w.ledger)
    (promised : w'.promised = w.promised) : CallSound w' pc := by
  cases pc with
  | idle => trivial
  | waiting uri => exact sound
  | loading uri => exact sound
  | opening uri new => exact New.congr sound promised
  | writing uri new => exact New.congr sound promised
  | syncing uri new => exact New.congr sound promised
  | replacing uri file => exact ⟨sound.1, New.congr sound.2 promised⟩
  | syncingDir uri =>
    unfold CallSound at sound ⊢
    rw [ledger]
    exact sound
  | returning uri ok =>
    cases ok with
    | false => trivial
    | true =>
      unfold CallSound at sound ⊢
      rw [ledger]
      exact sound

lemma Sound.alone (sound : Sound w) {p : Proc} (alone : ∀ q, q ≠ pid → critical (w.procs q).pc = false)
    (procs : w'.procs = Function.update w.procs pid p) (lock : critical p.pc = true → w'.holder = some pid)
    (durable : w'.ledger.All Durable) (kept : ∀ uri ∈ w'.promised, w'.ledger.All (Has uri))
    (call : CallSound w' p.pc) : Sound w' := by
  refine ⟨?_, durable, kept, ?_⟩
  · intro q inside
    rw [procs] at inside
    by_cases own : q = pid
    · subst own
      rw [Function.update_self] at inside
      exact lock inside
    · rw [Function.update_of_ne own, alone q own] at inside
      cases inside
  · intro q
    rw [procs]
    by_cases own : q = pid
    · subst own
      rw [Function.update_self]
      exact call
    · rw [Function.update_of_ne own]
      exact (sound.calls q).outside (alone q own) w'

lemma Sound.others_outside (sound : Sound w) (holds : w.holder = some pid) {q : Nat} (other : q ≠ pid) :
    critical (w.procs q).pc = false := by
  cases inside : critical (w.procs q).pc with
  | false => rfl
  | true =>
    have own := sound.lock q inside
    rw [holds] at own
    exact absurd (Option.some.inj own).symm other

lemma Sound.inside (sound : Sound w) (inside : critical (w.procs pid).pc = true) {pc : Pc} (call : CallSound w pc) :
    Sound (w.setPc pid pc) := by
  have holds := sound.lock pid inside
  exact sound.alone (fun q other => sound.others_outside holds other) rfl (fun _ => holds) sound.durable sound.kept
    (call.congr rfl rfl)

lemma Sound.outside (sound : Sound w) {p : Proc} (out : critical p.pc = false) (call : CallSound w p.pc) :
    Sound { w with procs := Function.update w.procs pid p } := by
  refine ⟨?_, sound.durable, sound.kept, ?_⟩
  · intro q inside
    by_cases own : q = pid
    · subst own
      dsimp only at inside
      rw [Function.update_self, out] at inside
      cases inside
    · dsimp only at inside
      rw [Function.update_of_ne own] at inside
      exact sound.lock q inside
  · intro q
    dsimp only
    by_cases own : q = pid
    · subst own
      rw [Function.update_self]
      exact call.congr rfl rfl
    · rw [Function.update_of_ne own]
      exact (sound.calls q).congr rfl rfl

/-- The file is read if it is there, and what a call finds recorded is covered by a sync of the directory. -/
def Covered (w : World) : LedgerAction → Bool
  | .act pid (.load readable) => match (w.procs pid).pc with
    | .loading uri => (readable || w.ledger.current = none) &&
        (!isTrusted (w.read readable) uri || w.ledger.later = [])
    | _ => true
  | _ => true

lemma read_of_covered {readable : Bool} (own : (readable || w.ledger.current = none) = true) :
    w.read readable = originsIn w.ledger.current := by
  unfold World.read
  cases readable with
  | true => rfl
  | false =>
    rw [of_decide_eq_true own]
    rfl

lemma isTrusted_iff_mem {origins : Origins} {uri : List Char} :
    isTrusted origins uri = true ↔ ∃ entry, trustedOriginKey uri = some entry ∧ some entry ∈ origins := by
  unfold isTrusted
  cases trustedOriginKey uri with
  | none => simp
  | some entry => simp

lemma isTrusted_recordOrigin {origins : Origins} {uri v : List Char} (known : isTrusted origins v = true) :
    isTrusted (recordOrigin origins uri) v = true := by
  obtain ⟨entry, key, mem⟩ := isTrusted_iff_mem.mp known
  exact isTrusted_iff_mem.mpr ⟨entry, key, mem_recordOrigin.mpr (.inl mem)⟩

lemma isTrusted_recorded {origins : Origins} {uri : List Char} (key : (trustedOriginKey uri).isSome) :
    isTrusted (recordOrigin origins uri) uri = true := by
  obtain ⟨entry, key⟩ := Option.isSome_iff_exists.mp key
  exact isTrusted_iff_mem.mpr ⟨entry, key, mem_recordOrigin.mpr (.inr key)⟩

lemma sound_act (act : Act w pid event w') (own : Covered w (.act pid event) = true) (sound : Sound w) : Sound w' := by
  have call := sound.calls pid
  have others : w.holder = some pid → ∀ q, q ≠ pid → critical (w.procs q).pc = false :=
    fun holds q other => sound.others_outside holds other
  cases act with
  | noOrigin => exact sound
  | start pc key => exact sound.outside rfl key
  | lock pc free =>
    rw [pc] at call
    have alone : ∀ q, q ≠ pid → critical (w.procs q).pc = false := by
      intro q _
      cases inside : critical (w.procs q).pc with
      | false => rfl
      | true =>
        rw [sound.lock q inside] at free
        cases free
    exact sound.alone alone rfl (fun _ => rfl) sound.durable sound.kept call
  | timeout pc => exact sound.outside rfl trivial
  | @known uri readable pc known =>
    simp only [Covered, pc, known, Bool.not_true, Bool.false_or, Bool.and_eq_true] at own
    rw [read_of_covered own.1] at known
    exact sound.inside (by rw [pc]; rfl) (Versions.all_of_synced (of_decide_eq_true own.2) known)
  | @load uri readable pc unknown =>
    simp only [Covered, pc, Bool.and_eq_true] at own
    rw [pc] at call
    refine sound.inside (by rw [pc]; rfl) ⟨isTrusted_recorded call, ?_⟩
    intro v promise
    rw [read_of_covered own.1]
    exact isTrusted_recordOrigin (sound.kept v promise).current
  | opened pc =>
    rw [pc] at call
    exact sound.inside (by rw [pc]; rfl) call
  | written pc =>
    rw [pc] at call
    exact sound.inside (by rw [pc]; rfl) call
  | synced pc =>
    rw [pc] at call
    exact sound.inside (by rw [pc]; rfl) ⟨rfl, call⟩
  | @renamed uri file pc =>
    rw [pc] at call
    have holds := sound.lock pid (by rw [pc]; rfl)
    refine sound.alone (others holds) rfl (fun _ => holds) (sound.durable.replace call.1) ?_ ?_
    · intro v promise
      exact (sound.kept v promise).replace (call.2.kept v promise)
    · change Has uri (w.ledger.replace (some file)).current
      rw [Versions.current_replace]
      exact call.2.own
  | @covered uri pc =>
    rw [pc] at call
    have holds := sound.lock pid (by rw [pc]; rfl)
    refine sound.alone (others holds) rfl (fun _ => holds) (Versions.all_sync sound.durable.current) ?_ ?_
    · intro v promise
      exact Versions.all_sync (sound.kept v promise).current
    · exact Versions.all_sync call
  | failed inside => exact sound.inside inside trivial
  | @succeed uri pc =>
    rw [pc] at call
    have holds := sound.lock pid (by rw [pc]; rfl)
    refine sound.alone (others holds) rfl (by rintro ⟨⟩) sound.durable ?_ trivial
    intro v promise
    rcases List.mem_cons.mp promise with rfl | promise
    · exact call
    · exact sound.kept v promise
  | fail pc =>
    have holds := sound.lock pid (by rw [pc]; rfl)
    exact sound.alone (others holds) rfl (by rintro ⟨⟩) sound.durable sound.kept trivial
  | preload pc => exact sound.outside rfl trivial
  | die =>
    by_cases holds : w.holder = some pid
    · exact sound.alone (others holds) rfl (by rintro ⟨⟩) sound.durable sound.kept trivial
    · rw [if_neg holds]
      exact sound.outside rfl trivial

lemma sound_crash (sound : Sound w) (choice : Nat) : Sound (crashed w choice) := by
  have settled : ∀ file, Durable file → Durable (onDisk file) := fun file durable => by
    rw [Durable, durable]
    exact durable
  refine ⟨by rintro pid ⟨⟩, sound.durable.crash settled choice, ?_, fun _ => trivial⟩
  intro uri promise
  have both : w.ledger.All fun file => Durable file ∧ Has uri file :=
    fun file mem => ⟨sound.durable file mem, sound.kept uri promise file mem⟩
  refine (both.crash ?_ choice).mono fun _ => And.right
  rintro file ⟨durable, there⟩
  rw [durable]
  exact ⟨durable, there⟩

lemma sound_of_reach (reach : (ledgers.only Covered).Reach w) : Sound w := by
  refine reach.invariant ?_ ?_
  · rintro w ⟨later, durable, -, procs, promised⟩
    refine ⟨?_, ?_, ?_, ?_⟩
    · intro pid inside
      rw [procs] at inside
      cases inside
    · rw [Versions.all_iff, later]
      exact ⟨durable, by rintro a ⟨⟩⟩
    · rw [promised]
      rintro uri ⟨⟩
    · intro pid
      rw [procs]
      trivial
  · intro w a _ sound enabled
    obtain ⟨guard, own⟩ := Machine.only_guard.mp enabled
    cases a with
    | act pid event =>
      obtain ⟨w', step⟩ := Option.isSome_iff_exists.mp guard
      have after : (ledgers.only Covered).exec w (.act pid event) = w' := by
        change (next w pid event).getD w = w'
        rw [step]
        rfl
      rw [after]
      exact sound_act (act_of_next step) own sound
    | crash choice => exact sound_crash sound choice

lemma procs_act (act : Act w pid event w') {q : Nat} (other : q ≠ pid) : w'.procs q = w.procs q := by
  cases act with
  | noOrigin => rfl
  | _ => exact Function.update_of_ne other _ _

lemma trusted_setPc (w : World) (pid : Nat) (pc : Pc) :
    ((w.setPc pid pc).procs pid).trusted = (w.procs pid).trusted := by
  unfold World.setPc
  dsimp only
  rw [Function.update_self]

lemma trusted_act (act : Act w pid event w') {key : List Char} (there : key ∈ (w'.procs pid).trusted) :
    key ∈ (w.procs pid).trusted ∨
      (event = .finish ∧ ∃ uri, (w.procs pid).pc = .returning uri true ∧ trustedOriginKey uri = some key) ∨
      ∃ readable, event = .preload readable := by
  cases act with
  | noOrigin => exact .inl there
  | @succeed uri pc =>
    dsimp only at there
    rw [Function.update_self] at there
    rcases List.mem_append.mp there with own | old
    · exact .inr (.inl ⟨rfl, uri, pc, by simpa using own⟩)
    · exact .inl old
  | preload pc => exact .inr (.inr ⟨_, rfl⟩)
  | die =>
    dsimp only at there
    rw [Function.update_self] at there
    cases there
  | _ =>
    rw [trusted_setPc] at there
    exact .inl there

/-- In every run that is covered, each origin whose call returned true is in every version of the ledger that a crash
can leave, and in the ledger as it is read. In every run, trust in memory is new only where a call returned true or a
process has read the ledger. -/
theorem trust_is_durable (w : World) :
    ((ledgers.only Covered).Reach w → ∀ uri ∈ w.promised,
      isTrusted (originsIn w.ledger.current) uri = true ∧
      w.ledger.All fun file => isTrusted (originsIn (onDisk file)) uri = true) ∧
    (∀ a pid key, ledgers.Reach w → ledgers.guard w a = true → key ∈ ((ledgers.exec w a).procs pid).trusted →
      key ∈ (w.procs pid).trusted ∨
        (a = .act pid .finish ∧ ∃ uri, (w.procs pid).pc = .returning uri true ∧ trustedOriginKey uri = some key) ∨
        ∃ readable, a = .act pid (.preload readable)) := by
  refine ⟨?_, ?_⟩
  · intro reach uri promise
    have sound := sound_of_reach reach
    refine ⟨(sound.kept uri promise).current, ?_⟩
    intro file mem
    rw [sound.durable file mem]
    exact sound.kept uri promise file mem
  · intro a pid key _ guard there
    cases a with
    | crash choice => cases there
    | act actor event =>
      obtain ⟨w', step⟩ := Option.isSome_iff_exists.mp guard
      have after : ledgers.exec w (.act actor event) = w' := by
        change (next w actor event).getD w = w'
        rw [step]
        rfl
      rw [after] at there
      by_cases own : pid = actor
      · subst own
        rcases trusted_act (act_of_next step) there with old | ⟨rfl, uri, pc, same⟩ | ⟨readable, rfl⟩
        · exact .inl old
        · exact .inr (.inl ⟨rfl, uri, pc, same⟩)
        · exact .inr (.inr ⟨readable, rfl⟩)
      · rw [procs_act (act_of_next step) own] at there
        exact .inl there

/-! ## Runs -/

/-- No ledger and no calls yet. -/
def noLedger : World where
  ledger := { synced := none, later := [] }
  holder := none
  procs := fun _ => { pc := .idle, trusted := [] }
  promised := []

def call (pid : Nat) (uri : List Char) (readable dir : Bool) : List LedgerAction :=
  [.start uri, .lock, .load readable, .openTemp true, .write true, .syncFile true, .rename true, .syncDir dir,
    .finish].map (.act pid)

def again (pid : Nat) (uri : List Char) : List LedgerAction :=
  [.start uri, .lock, .load true, .finish].map (.act pid)

/-- Two processes record origins, and the machine crashes. -/
theorem recorded_after_crash :
    ∃ w, (ledgers.only Covered).Reach w ∧ "ws://a".toList ∈ w.promised ∧
      isTrusted (originsIn w.ledger.current) "ws://a".toList = true := by
  have first : (ledgers.only Covered).Reach noLedger := .init ⟨rfl, rfl, rfl, fun _ => rfl, rfl⟩
  have run : ((ledgers.only Covered).replay noLedger
      (call 0 "ws://a".toList true true ++ call 1 "ws://b".toList true false ++ [.crash 0])).any
      (fun w => "ws://a".toList ∈ w.promised) = true := by decide +kernel
  obtain ⟨w, reach, promise⟩ := first.replay_any run
  have promise := of_decide_eq_true promise
  exact ⟨w, reach, promise, ((trust_is_durable w).1 reach _ promise).1⟩

/-- A directory fsync fails, the call is made again and returns true, and the machine crashes. And a ledger cannot be
read when another origin is recorded. -/
theorem promised_and_lost :
    ((ledgers.replay noLedger (call 0 "ws://a".toList true false ++ again 0 "ws://a".toList ++ [.crash 0])).any
      fun w => "ws://a".toList ∈ w.promised ∧ isTrusted (originsIn w.ledger.current) "ws://a".toList = false) = true ∧
    ((ledgers.replay noLedger (call 0 "ws://a".toList true true ++ call 1 "ws://b".toList false true)).any
      fun w => "ws://a".toList ∈ w.promised ∧ isTrusted (originsIn w.ledger.current) "ws://a".toList = false) = true := by
  decide +kernel

end PjCloud.Trust
