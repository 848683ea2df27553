import PjCloud.Lib.Json
import PjCloud.Lib.Machine
import PjCloud.Trust.Credentials

/-!
# The credentials file

`credential_store.cpp`: the calls of `FileCredentialStore::set` and `erase`, one file operation at a time. Each can
fail, a file that is written holds the first characters of its text, and the process can stop between any two. What
is left of the three promises of `writeObject`: permissions (`Tight`) hold if the umask makes them, whatever fails;
complete texts (`Complete`) if each text is written to its end and the rename succeeds; and the tokens of other
servers stay if the file could be read as well.
-/

namespace PjCloud.Trust
open Lib

/-- The JSON library, on the objects of this file. No part of a text is the text of an object. -/
structure Codec where
  dump : Object → List Char
  parse : List Char → Option Object
  parse_dump : ∀ obj, parse (dump obj) = some obj
  parse_cut : ∀ obj n, n < (dump obj).length → parse ((dump obj).take n) = none

abbrev Mode := BitVec 9

structure File where
  text : List Char
  mode : Mode
  deriving DecidableEq, Repr

/-- A call that is going to write. -/
structure Call where
  key : List Char
  obj : Object
  deriving DecidableEq

/-- Where a call is: in front of an operation, or writing. -/
inductive Phase where
  | idle
  | opening (call : Call)
  | writing (call : Call)
  | chmodTemp (call : Call)
  | renaming (call : Call)
  | reopening (call : Call)
  | rewriting (call : Call)
  | removing (call : Call)
  | chmodFile (call : Call)
  deriving DecidableEq

/-- The two files, where the call under way is, and the tokens that were set so far. -/
structure Secrets where
  file : Option File
  tmp : Option File
  phase : Phase
  tokens : List (List Char × String)
  deriving DecidableEq

/-- The file operations, each with its outcome. `write` puts one more character on the disk. -/
inductive Action where
  | set (uri : List Char) (token : String) (readable : Bool)
  | erase (uri : List Char) (readable : Bool)
  | open' (ok : Bool) (umask : Mode)
  | write
  | close
  | chmod0600 (ok : Bool)
  | rename (ok : Bool)
  | remove (ok : Bool)
  | crash
  deriving DecidableEq

section
variable (codec : Codec)

/-- What the file says if it can be read. -/
def stored (file : Option File) : Object :=
  match file with
  | none => ∅
  | some f => (codec.parse f.text).getD ∅

def loadObject (s : Secrets) (readable : Bool) : Object := if readable then stored codec s.file else ∅

/-- `std::ofstream` with `trunc`: a file that is there keeps its mode. -/
def truncate (file : Option File) (umask : Mode) : File where
  text := []
  mode := match file with
    | none => 0o666 &&& ~~~umask
    | some f => f.mode

def extend (text : List Char) (file : Option File) : Option File :=
  file.map fun f => { f with text := text.take (f.text.length + 1) }

def ownerOnly : Mode := 0o600

def tighten (file : Option File) : Option File := file.map fun f => { f with mode := ownerOnly }

def enabled (s : Secrets) : Action → Bool
  | .set _ _ _ | .erase _ _ => match s.phase with
    | .idle => true
    | _ => false
  | .open' _ _ => match s.phase with
    | .opening _ | .reopening _ => true
    | _ => false
  | .write => match s.phase with
    | .writing call => match s.tmp with
      | some f => f.text.length < (codec.dump call.obj).length
      | none => false
    | .rewriting call => match s.file with
      | some f => f.text.length < (codec.dump call.obj).length
      | none => false
    | _ => false
  | .close => match s.phase with
    | .writing _ | .rewriting _ => true
    | _ => false
  | .chmod0600 _ => match s.phase with
    | .chmodTemp _ | .chmodFile _ => true
    | _ => false
  | .rename _ => match s.phase with
    | .renaming _ => true
    | _ => false
  | .remove _ => match s.phase with
    | .removing _ => true
    | _ => false
  | .crash => true

def perform (s : Secrets) : Action → Secrets
  | .set uri token readable =>
    let s := { s with tokens := (uri, token) :: s.tokens }
    if normalizeServerKey uri = [] then s
    else { s with phase := .opening ⟨normalizeServerKey uri, (loadObject codec s readable).set uri token⟩ }
  | .erase uri readable =>
    if (loadObject codec s readable).lookup (normalizeServerKey uri) = none ∨ normalizeServerKey uri = [] then s
    else { s with phase := .opening ⟨normalizeServerKey uri, (loadObject codec s readable).erase uri⟩ }
  | .open' ok umask => match s.phase with
    | .opening call =>
      if ok then { s with tmp := some (truncate s.tmp umask), phase := .writing call } else { s with phase := .idle }
    | .reopening call =>
      if ok then { s with file := some (truncate s.file umask), phase := .rewriting call }
      else { s with phase := .removing call }
    | _ => s
  | .write => match s.phase with
    | .writing call => { s with tmp := extend (codec.dump call.obj) s.tmp }
    | .rewriting call => { s with file := extend (codec.dump call.obj) s.file }
    | _ => s
  -- the result of the stream is not looked at
  | .close => match s.phase with
    | .writing call => { s with phase := .chmodTemp call }
    | .rewriting call => { s with phase := .removing call }
    | _ => s
  | .chmod0600 ok => match s.phase with
    | .chmodTemp call => { s with tmp := if ok then tighten s.tmp else s.tmp, phase := .renaming call }
    | .chmodFile _ => { s with file := if ok then tighten s.file else s.file, phase := .idle }
    | _ => s
  | .rename ok => match s.phase with
    | .renaming call =>
      if ok then { s with file := s.tmp, tmp := none, phase := .chmodFile call } else { s with phase := .reopening call }
    | _ => s
  | .remove ok => match s.phase with
    | .removing call => { s with tmp := if ok then none else s.tmp, phase := .chmodFile call }
    | _ => s
  | .crash => { s with phase := .idle }

/-- The store, from no files on. -/
def secrets : Machine Secrets Action where
  init s := s = { file := none, tmp := none, phase := .idle, tokens := [] }
  guard := enabled codec
  exec := perform codec

variable {codec} {s s' : Secrets} {a : Action}

/-- What a step does. -/
inductive Move (codec : Codec) (s : Secrets) : Action → Secrets → Prop
  | noKey {uri token readable} : normalizeServerKey uri = [] →
      Move codec s (.set uri token readable) { s with tokens := (uri, token) :: s.tokens }
  | set {uri token readable} : s.phase = .idle → normalizeServerKey uri ≠ [] →
      Move codec s (.set uri token readable) { s with
        tokens := (uri, token) :: s.tokens
        phase := .opening ⟨normalizeServerKey uri, (loadObject codec s readable).set uri token⟩ }
  | absent {uri readable} : Move codec s (.erase uri readable) s
  | erase {uri readable} : s.phase = .idle →
      Move codec s (.erase uri readable) { s with
        phase := .opening ⟨normalizeServerKey uri, (loadObject codec s readable).erase uri⟩ }
  | gaveUp {umask} : Move codec s (.open' false umask) { s with phase := .idle }
  | opened {call umask} : s.phase = .opening call →
      Move codec s (.open' true umask) { s with tmp := some (truncate s.tmp umask), phase := .writing call }
  | notReopened {call umask} : s.phase = .reopening call →
      Move codec s (.open' false umask) { s with phase := .removing call }
  | reopened {call umask} : s.phase = .reopening call →
      Move codec s (.open' true umask) { s with file := some (truncate s.file umask), phase := .rewriting call }
  | wrote {call f} : s.phase = .writing call → s.tmp = some f → f.text.length < (codec.dump call.obj).length →
      Move codec s .write { s with tmp := extend (codec.dump call.obj) s.tmp, phase := .writing call }
  | rewrote {call f} : s.phase = .rewriting call → s.file = some f → f.text.length < (codec.dump call.obj).length →
      Move codec s .write { s with file := extend (codec.dump call.obj) s.file, phase := .rewriting call }
  | closed {call} : s.phase = .writing call → Move codec s .close { s with phase := .chmodTemp call }
  | reclosed {call} : s.phase = .rewriting call → Move codec s .close { s with phase := .removing call }
  | chmodTemp {call ok} : s.phase = .chmodTemp call →
      Move codec s (.chmod0600 ok) { s with tmp := if ok then tighten s.tmp else s.tmp, phase := .renaming call }
  | chmodFile {call ok} : s.phase = .chmodFile call →
      Move codec s (.chmod0600 ok) { s with file := if ok then tighten s.file else s.file, phase := .idle }
  | renamed {call} : s.phase = .renaming call →
      Move codec s (.rename true) { s with file := s.tmp, tmp := none, phase := .chmodFile call }
  | notRenamed {call} : s.phase = .renaming call → Move codec s (.rename false) { s with phase := .reopening call }
  | removed {call ok} : s.phase = .removing call →
      Move codec s (.remove ok) { s with tmp := if ok then none else s.tmp, phase := .chmodFile call }
  | crash : Move codec s .crash { s with phase := .idle }

lemma move_perform (guard : enabled codec s a = true) : Move codec s a (perform codec s a) := by
  cases a with
  | set uri token readable =>
    cases phase : s.phase <;> simp only [enabled, phase, Bool.false_eq_true] at guard
    unfold perform
    by_cases none : normalizeServerKey uri = []
    · simp only [none, if_true]
      exact .noKey none
    · simp only [none, if_false]
      exact .set phase none
  | erase uri readable =>
    cases phase : s.phase <;> simp only [enabled, phase, Bool.false_eq_true] at guard
    simp only [perform]
    split
    · exact .absent
    · exact .erase phase
  | open' ok umask =>
    cases phase : s.phase <;> simp only [enabled, phase, Bool.false_eq_true] at guard <;>
      simp only [perform, phase] <;> cases ok
    · exact .gaveUp
    · exact .opened phase
    · exact .notReopened phase
    · exact .reopened phase
  | write =>
    cases phase : s.phase <;> simp only [enabled, phase, Bool.false_eq_true] at guard
    · cases tmp : s.tmp with
      | none =>
        rw [tmp] at guard
        cases guard
      | some f =>
        rw [tmp] at guard
        simp only [perform, phase]
        exact .wrote phase tmp (of_decide_eq_true guard)
    · cases file : s.file with
      | none =>
        rw [file] at guard
        cases guard
      | some f =>
        rw [file] at guard
        simp only [perform, phase]
        exact .rewrote phase file (of_decide_eq_true guard)
  | close =>
    cases phase : s.phase <;> simp only [enabled, phase, Bool.false_eq_true] at guard <;>
      simp only [perform, phase]
    · exact .closed phase
    · exact .reclosed phase
  | chmod0600 ok =>
    cases phase : s.phase <;> simp only [enabled, phase, Bool.false_eq_true] at guard <;>
      simp only [perform, phase]
    · exact .chmodTemp phase
    · exact .chmodFile phase
  | rename ok =>
    cases phase : s.phase <;> simp only [enabled, phase, Bool.false_eq_true] at guard
    cases ok <;> simp only [perform, phase]
    · exact .notRenamed phase
    · exact .renamed phase
  | remove ok =>
    cases phase : s.phase <;> simp only [enabled, phase, Bool.false_eq_true] at guard
    simp only [perform, phase]
    exact .removed phase
  | crash => exact .crash

/-! ## Permissions -/

def masks (umask : Mode) : Bool := umask &&& 0o066 = 0o066

def masked (_ : Secrets) : Action → Bool
  | .open' _ umask => masks umask
  | _ => true

/-- No file is wider than `0600`. -/
def Tight (file : Option File) : Prop := ∀ f, file = some f → f.mode &&& ~~~ownerOnly = 0

lemma tight_created : ∀ {umask : Mode}, masks umask = true → (0o666 &&& ~~~umask) &&& ~~~ownerOnly = 0 := by
  decide +kernel

lemma Tight.truncate {file : Option File} {umask : Mode} (tight : Tight file) (own : masks umask = true) :
    Tight (some (truncate file umask)) := by
  rintro f ⟨⟩
  cases file with
  | none => exact tight_created own
  | some f => exact tight f rfl

lemma Tight.extend {file : Option File} (tight : Tight file) (text : List Char) : Tight (extend text file) := by
  intro f some
  obtain ⟨g, there, rfl⟩ := Option.map_eq_some_iff.mp some
  exact tight g there

lemma tight_tighten (file : Option File) : Tight (tighten file) := by
  intro f some
  obtain ⟨g, -, rfl⟩ := Option.map_eq_some_iff.mp some
  exact BitVec.and_not_self _

lemma Tight.chmod {file : Option File} (tight : Tight file) (ok : Bool) :
    Tight (if ok then tighten file else file) := by
  split
  · exact tight_tighten file
  · exact tight

lemma tight_none : Tight none := by
  rintro f ⟨⟩

structure Private (s : Secrets) : Prop where
  file : Tight s.file
  tmp : Tight s.tmp

lemma private_step (move : Move codec s a s') (own : masked s a = true) (tight : Private s) : Private s' := by
  obtain ⟨file, tmp⟩ := tight
  cases move with
  | opened _ => exact ⟨file, tmp.truncate own⟩
  | reopened _ => exact ⟨file.truncate own, tmp⟩
  | wrote _ _ _ => exact ⟨file, tmp.extend _⟩
  | rewrote _ _ _ => exact ⟨file.extend _, tmp⟩
  | @chmodTemp _ ok _ => exact ⟨file, tmp.chmod ok⟩
  | @chmodFile _ ok _ => exact ⟨file.chmod ok, tmp⟩
  | renamed _ => exact ⟨tmp, tight_none⟩
  | @removed _ ok _ =>
    refine ⟨file, ?_⟩
    dsimp only
    split
    · exact tight_none
    · exact tmp
  | _ => exact ⟨file, tmp⟩

lemma private_of_reach (reach : ((secrets codec).only masked).Reach s) : Private s := by
  refine reach.invariant ?_ ?_
  · rintro s rfl
    exact ⟨tight_none, tight_none⟩
  · intro s a _ tight enabled
    obtain ⟨guard, own⟩ := Machine.only_guard.mp enabled
    exact private_step (move_perform guard) own tight

/-! ## Complete texts -/

/-- A text is written to its end, and the rename succeeds. -/
def whole (codec : Codec) (s : Secrets) : Action → Bool
  | .close => match s.phase with
    | .writing call => s.tmp.map File.text = some (codec.dump call.obj)
    | _ => true
  | .rename ok => ok
  | _ => true

/-- The file has a complete text. So has the temporary one when it is closed. -/
structure Complete (codec : Codec) (s : Secrets) : Prop where
  file : ∀ f, s.file = some f → ∃ obj, f.text = codec.dump obj
  tmp : match s.phase with
    | .chmodTemp call | .renaming call => s.tmp.map File.text = some (codec.dump call.obj)
    | .reopening _ | .rewriting _ | .removing _ => False
    | _ => True

lemma text_chmod (file : Option File) (ok : Bool) :
    (if ok then tighten file else file).map File.text = file.map File.text := by
  cases ok with
  | false => rfl
  | true => cases file <;> rfl

lemma complete_step (move : Move codec s a s') (own : whole codec s a = true) (complete : Complete codec s) :
    Complete codec s' := by
  obtain ⟨file, tmp⟩ := complete
  cases move with
  | noKey _ => exact ⟨file, tmp⟩
  | absent => exact ⟨file, tmp⟩
  | closed phase =>
    refine ⟨file, ?_⟩
    simp only [whole, phase] at own
    exact of_decide_eq_true own
  | chmodTemp phase =>
    rw [phase] at tmp
    refine ⟨file, ?_⟩
    dsimp only
    rw [text_chmod]
    exact tmp
  | @chmodFile call ok phase =>
    refine ⟨?_, trivial⟩
    intro f there'
    have text := text_chmod s.file ok
    rw [show (if ok = true then tighten s.file else s.file) = some f from there', Option.map_some] at text
    obtain ⟨g, there, same⟩ := Option.map_eq_some_iff.mp text.symm
    obtain ⟨obj, whole⟩ := file g there
    exact ⟨obj, by rw [← same, whole]⟩
  | renamed phase =>
    rw [phase] at tmp
    refine ⟨?_, trivial⟩
    intro f there
    rw [show s.tmp = some f from there] at tmp
    exact ⟨_, Option.some.inj tmp⟩
  | notRenamed _ => cases own
  | notReopened phase =>
    rw [phase] at tmp
    exact tmp.elim
  | reopened phase =>
    rw [phase] at tmp
    exact tmp.elim
  | rewrote phase _ _ =>
    rw [phase] at tmp
    exact tmp.elim
  | reclosed phase =>
    rw [phase] at tmp
    exact tmp.elim
  | removed phase =>
    rw [phase] at tmp
    exact tmp.elim
  | _ => exact ⟨file, trivial⟩

lemma complete_of_reach (reach : ((secrets codec).only (whole codec)).Reach s) : Complete codec s := by
  refine reach.invariant ?_ ?_
  · rintro s rfl
    exact ⟨by rintro f ⟨⟩, trivial⟩
  · intro s a _ complete enabled
    obtain ⟨guard, own⟩ := Machine.only_guard.mp enabled
    exact complete_step (move_perform guard) own complete

lemma text_step (move : Move codec s a s') (own : whole codec s a = true) (complete : Complete codec s) :
    s'.file.map File.text = s.file.map File.text ∨
      ∃ call, s.phase = .renaming call ∧ s'.file.map File.text = some (codec.dump call.obj) := by
  have tmp := complete.tmp
  cases move with
  | reopened phase =>
    rw [phase] at tmp
    exact tmp.elim
  | rewrote phase _ _ =>
    rw [phase] at tmp
    exact tmp.elim
  | @chmodFile call ok phase => exact .inl (text_chmod s.file ok)
  | renamed phase =>
    rw [phase] at tmp
    exact .inr ⟨_, phase, tmp⟩
  | _ => exact .inl rfl

/-! ## Tokens of other servers -/

def readable (s : Secrets) : Action → Bool
  | .set _ _ readable | .erase _ readable => readable || s.file.isNone
  | _ => true

def careful (codec : Codec) (s : Secrets) (a : Action) : Bool := whole codec s a && readable s a

def Phase.pending : Phase → Option Call
  | .opening call | .writing call | .chmodTemp call | .renaming call => some call
  | _ => none

/-- The new object has what the file has of other servers. -/
def Keeps (codec : Codec) (s : Secrets) : Prop :=
  ∀ call, s.phase.pending = some call → ∀ key, key ≠ call.key →
    call.obj.lookup key = (stored codec s.file).lookup key

lemma stored_congr {file file' : Option File} (same : file'.map File.text = file.map File.text) :
    stored codec file' = stored codec file := by
  cases file with
  | none =>
    cases file' with
    | none => rfl
    | some _ => cases same
  | some f =>
    cases file' with
    | none => cases same
    | some g => simp only [stored, Option.some.inj same]

lemma loadObject_readable {r : Bool} (own : (r || s.file.isNone) = true) :
    loadObject codec s r = stored codec s.file := by
  unfold loadObject
  cases r with
  | true => rfl
  | false =>
    rw [Option.isNone_iff_eq_none.mp own]
    rfl

lemma lookup_set {obj : Object} {uri : List Char} {token : String} {key : List Char}
    (other : key ≠ normalizeServerKey uri) : (obj.set uri token).lookup key = obj.lookup key := by
  unfold Object.set
  split
  · rfl
  · exact AList.lookup_insert_ne other

lemma lookup_erase {obj : Object} {uri : List Char} {key : List Char} (other : key ≠ normalizeServerKey uri) :
    (obj.erase uri).lookup key = obj.lookup key := by
  unfold Object.erase
  split
  · rfl
  · exact AList.lookup_erase_ne other

lemma keeps_step (move : Move codec s a s') (own : careful codec s a = true) (keeps : Keeps codec s) :
    Keeps codec s' := by
  have read : readable s a = true := (Bool.and_eq_true_iff.mp own).2
  cases move with
  | noKey _ => exact keeps
  | absent => exact keeps
  | set _ _ =>
    rintro call ⟨⟩ key other
    rw [lookup_set other, loadObject_readable read]
  | erase _ =>
    rintro call ⟨⟩ key other
    rw [lookup_erase other, loadObject_readable read]
  | opened phase =>
    rintro call ⟨⟩
    exact keeps _ (by rw [phase]; rfl)
  | wrote phase _ _ =>
    rintro call ⟨⟩
    exact keeps _ (by rw [phase]; rfl)
  | closed phase =>
    rintro call ⟨⟩
    exact keeps _ (by rw [phase]; rfl)
  | chmodTemp phase =>
    rintro call ⟨⟩
    exact keeps _ (by rw [phase]; rfl)
  | _ => rintro call ⟨⟩

lemma reach_whole (reach : ((secrets codec).only (careful codec)).Reach s) :
    ((secrets codec).only (whole codec)).Reach s :=
  reach.only_mono fun _ _ own => (Bool.and_eq_true_iff.mp own).1

lemma keeps_of_reach (reach : ((secrets codec).only (careful codec)).Reach s) : Keeps codec s := by
  refine reach.invariant ?_ ?_
  · rintro s rfl call ⟨⟩
  · intro s a _ keeps enabled
    obtain ⟨guard, own⟩ := Machine.only_guard.mp enabled
    exact keeps_step (move_perform guard) own keeps

lemma lookup_step (move : Move codec s a s') (own : careful codec s a = true) (complete : Complete codec s)
    (keeps : Keeps codec s) {key : List Char} (other : ∀ call, s.phase.pending = some call → key ≠ call.key) :
    (stored codec s'.file).lookup key = (stored codec s.file).lookup key := by
  have own' : whole codec s a = true := (Bool.and_eq_true_iff.mp own).1
  rcases text_step move own' complete with same | ⟨call, phase, text⟩
  · rw [stored_congr same]
  · have pending : s.phase.pending = some call := by
      rw [phase]
      rfl
    obtain ⟨f, there, text⟩ := Option.map_eq_some_iff.mp text
    rw [there, stored, text, codec.parse_dump, Option.getD_some]
    exact keeps call pending key (other call pending)

/-! ## All tokens were set -/

/-- The first characters of the text of an object that the calls can have made. -/
def Part (codec : Codec) (tokens : List (List Char × String)) (f : File) : Prop :=
  ∃ obj n, Reached tokens obj ∧ f.text = (codec.dump obj).take n

def Phase.call : Phase → Option Call
  | .idle => none
  | .opening call | .writing call | .chmodTemp call | .renaming call | .reopening call | .rewriting call
  | .removing call | .chmodFile call => some call

/-- The texts and the objects of the store are those that the calls can have made. -/
structure Accounted (codec : Codec) (s : Secrets) : Prop where
  file : ∀ f, s.file = some f → Part codec s.tokens f
  tmp : ∀ f, s.tmp = some f → Part codec s.tokens f
  calls : ∀ call, s.phase.call = some call → Reached s.tokens call.obj

lemma reached_nil (tokens : List (List Char × String)) : Reached tokens ∅ := by
  induction tokens with
  | nil => exact .empty
  | cons token tokens ih => exact .skip token.1 token.2 ih

lemma Part.skip {tokens : List (List Char × String)} {f : File} (part : Part codec tokens f) (uri : List Char)
    (token : String) : Part codec ((uri, token) :: tokens) f := by
  obtain ⟨obj, n, reached, text⟩ := part
  exact ⟨obj, n, .skip uri token reached, text⟩

lemma Part.stored {tokens : List (List Char × String)} {f : File} (part : Part codec tokens f) :
    Reached tokens (stored codec (some f)) := by
  obtain ⟨obj, n, reached, text⟩ := part
  unfold Trust.stored
  dsimp only
  rw [text]
  by_cases cut : n < (codec.dump obj).length
  · rw [codec.parse_cut obj n cut]
    exact reached_nil _
  · rw [List.take_of_length_le (Nat.not_lt.mp cut), codec.parse_dump]
    exact reached

lemma Accounted.load (accounted : Accounted codec s) (r : Bool) : Reached s.tokens (loadObject codec s r) := by
  unfold loadObject
  split
  · cases file : s.file with
    | none => exact reached_nil _
    | some f => exact (accounted.file f file).stored
  · exact reached_nil _

lemma accounted_step (move : Move codec s a s') (accounted : Accounted codec s) : Accounted codec s' := by
  have load := accounted.load
  obtain ⟨file, tmp, calls⟩ := accounted
  -- the call under way goes on to the next phase
  have onward : ∀ {p p' : Phase} {call}, s.phase = p → p.call = some call → p'.call = some call →
      ∀ c, p'.call = some c → Reached s.tokens c.obj := by
    intro p p' call phase own same c there
    cases same.symm.trans there
    exact calls call (phase ▸ own)
  -- what is written of its object
  have begun : ∀ {p : Phase} {call f n}, s.phase = p → p.call = some call → f.text = (codec.dump call.obj).take n →
      Part codec s.tokens f := fun phase own text => ⟨_, _, calls _ (phase ▸ own), text⟩
  have extended : ∀ {p : Phase} {call f} {g : Option File}, s.phase = p → p.call = some call →
      extend (codec.dump call.obj) g = some f → Part codec s.tokens f := by
    intro p call f g phase own there
    obtain ⟨g, -, rfl⟩ := Option.map_eq_some_iff.mp there
    exact begun phase own rfl
  have tightened : ∀ {f} {g : Option File} (ok : Bool), (∀ f, g = some f → Part codec s.tokens f) →
      (if ok then tighten g else g) = some f → Part codec s.tokens f := by
    intro f g ok parts there
    have text := text_chmod g ok
    rw [there] at text
    obtain ⟨h, own, same⟩ := Option.map_eq_some_iff.mp text.symm
    obtain ⟨obj, n, reached, cut⟩ := parts h own
    exact ⟨obj, n, reached, same.symm.trans cut⟩
  cases move with
  | @noKey uri token _ _ =>
    exact ⟨fun f there => (file f there).skip uri token, fun f there => (tmp f there).skip uri token,
      fun call own => .skip uri token (calls call own)⟩
  | @set uri token r _ _ =>
    refine ⟨fun f there => (file f there).skip uri token, fun f there => (tmp f there).skip uri token, ?_⟩
    rintro call ⟨⟩
    exact .set uri token (load r)
  | absent => exact ⟨file, tmp, calls⟩
  | @erase uri r _ =>
    refine ⟨file, tmp, ?_⟩
    rintro call ⟨⟩
    refine .lose (load r) fun key entry found => ?_
    by_cases own : key = normalizeServerKey uri
    · unfold Object.erase at found
      split at found
      · exact found
      · rw [own, AList.lookup_erase] at found
        cases found
    · rw [← lookup_erase own]
      exact found
  | gaveUp | crash => exact ⟨file, tmp, by rintro call ⟨⟩⟩
  | opened phase =>
    refine ⟨file, ?_, onward phase rfl rfl⟩
    rintro f ⟨⟩
    exact begun (n := 0) phase rfl rfl
  | reopened phase =>
    refine ⟨?_, tmp, onward phase rfl rfl⟩
    rintro f ⟨⟩
    exact begun (n := 0) phase rfl rfl
  | wrote phase => exact ⟨file, fun f there => extended phase rfl there, onward phase rfl rfl⟩
  | rewrote phase => exact ⟨fun f there => extended phase rfl there, tmp, onward phase rfl rfl⟩
  | notReopened phase | closed phase | reclosed phase | notRenamed phase => exact ⟨file, tmp, onward phase rfl rfl⟩
  | @chmodTemp _ ok phase => exact ⟨file, fun f there => tightened ok tmp there, onward phase rfl rfl⟩
  | @chmodFile _ ok _ => exact ⟨fun f there => tightened ok file there, tmp, by rintro call ⟨⟩⟩
  | renamed phase => exact ⟨tmp, by rintro f ⟨⟩, onward phase rfl rfl⟩
  | @removed _ ok phase =>
    refine ⟨file, fun f there => ?_, onward phase rfl rfl⟩
    cases ok with
    | true => cases there
    | false => exact tmp f there

/-- What the file is read as, after any failures and crashes, comes from tokens that were set. -/
theorem reached_of_reach (reach : (secrets codec).Reach s) (r : Bool) : Reached s.tokens (loadObject codec s r) := by
  have accounted : Accounted codec s := by
    refine reach.invariant ?_ ?_
    · rintro s rfl
      exact ⟨by rintro f ⟨⟩, by rintro f ⟨⟩, by rintro call ⟨⟩⟩
    · intro s a _ accounted guard
      exact accounted_step (move_perform guard) accounted
  exact accounted.load r

end

/-- Permissions, complete texts and the tokens of others, each under what it needs, in every run. -/
theorem secrets_discipline (codec : Codec) :
    (∀ s, ((secrets codec).only masked).Reach s → Tight s.file ∧ Tight s.tmp) ∧
    (∀ s a, ((secrets codec).only (whole codec)).Reach s → ((secrets codec).only (whole codec)).guard s a = true →
      (∀ f, s.file = some f → ∃ obj, f.text = codec.dump obj) ∧
      ((perform codec s a).file.map File.text = s.file.map File.text ∨
        ∃ call, s.phase = .renaming call ∧
          (perform codec s a).file.map File.text = some (codec.dump call.obj))) ∧
    (∀ s a key, ((secrets codec).only (careful codec)).Reach s →
      ((secrets codec).only (careful codec)).guard s a = true →
      (∀ call, s.phase.pending = some call → key ≠ call.key) →
      (stored codec (perform codec s a).file).lookup key = (stored codec s.file).lookup key) := by
  refine ⟨?_, ?_, ?_⟩
  · intro s reach
    obtain ⟨file, tmp⟩ := private_of_reach reach
    exact ⟨file, tmp⟩
  · intro s a reach enabled
    have complete := complete_of_reach reach
    obtain ⟨guard, own⟩ := Machine.only_guard.mp enabled
    exact ⟨complete.file, text_step (move_perform guard) own complete⟩
  · intro s a key reach enabled other
    obtain ⟨guard, own⟩ := Machine.only_guard.mp enabled
    exact lookup_step (move_perform guard) own (complete_of_reach (reach_whole reach)) (keeps_of_reach reach) other

/-! ## A library, and runs -/

section
open Lib.Json

def entryOut : Option String → Out
  | some token => .str token
  | none => .bool false

def outEntry : Out → Option String
  | .str token => some token
  | _ => none

def fieldsOf (obj : Object) : List (String × Out) :=
  obj.entries.map fun entry => (String.ofList entry.1, entryOut entry.2)

/-- The object with these fields, if no key is there twice. -/
def objectOf (fields : List (String × Out)) : Option Object :=
  let entries : List (Sigma fun _ : List Char => Option String) :=
    fields.map fun field => ⟨field.1.toList, outEntry field.2⟩
  if nodup : entries.keys.Nodup then some ⟨entries, nodup⟩ else none

lemma objectOf_fieldsOf (obj : Object) : objectOf (fieldsOf obj) = some obj := by
  have entry : ∀ e : Option String, outEntry (entryOut e) = e := by
    intro e
    cases e <;> rfl
  have same : (fieldsOf obj).map (fun field => (⟨field.1.toList, outEntry field.2⟩ :
      Sigma fun _ : List Char => Option String)) = obj.entries := by
    simp only [fieldsOf, List.map_map, Function.comp_def, String.toList_ofList, entry]
    exact List.map_id _
  have nodup : obj.entries.keys.Nodup := obj.nodupKeys
  unfold objectOf
  simp only [same, nodup, dif_pos]

/-- Objects as compact JSON. -/
def jsonCodec : Codec where
  dump obj := dumpChars (fieldsOf obj)
  parse text := match readObject text with
    | some fields => if dumpChars fields = text then objectOf fields else none
    | none => none
  parse_dump := by
    intro obj
    rw [readObject_dumpChars]
    exact (if_pos rfl).trans (objectOf_fieldsOf obj)
  parse_cut := by
    intro obj n cut
    split
    · rename_i fields _
      refine if_neg fun same => ?_
      have whole : dumpChars fields ++ (dumpChars (fieldsOf obj)).drop n = dumpChars (fieldsOf obj) := by
        rw [same, List.take_append_drop]
      exact absurd (List.drop_eq_nil_iff.mp (eq_of_dumpChars_append whole)) (Nat.not_le.mpr cut)
    · rfl

end

def fresh : Secrets := { file := none, tmp := none, phase := .idle, tokens := [] }

/-- A call that puts so many characters on the disk and renames. -/
def setCall (uri : List Char) (token : String) (readable : Bool) (umask : Mode) (chars : Nat) : List Action :=
  [.set uri token readable, .open' true umask] ++ List.replicate chars .write ++
    [.close, .chmod0600 true, .rename true, .chmod0600 true]

theorem written_token_was_set : ∃ s, (secrets jsonCodec).Reach s ∧ (loadObject jsonCodec s true).keys = ["ws://b".toList] ∧
    Reached s.tokens (loadObject jsonCodec s true) := by
  have run : ((secrets jsonCodec).replay fresh (setCall "ws://a".toList "t" true 0 5 ++ setCall "ws://b".toList "u" true 0 14)).any
      (fun s => (loadObject jsonCodec s true).keys = ["ws://b".toList]) = true := by decide +kernel
  obtain ⟨s, reach, keys⟩ := Machine.Reach.replay_any (.init rfl) run
  exact ⟨s, reach, of_decide_eq_true keys, reached_of_reach reach true⟩

/-- A call under umask `077` whose permission bits cannot be changed. -/
theorem private_files :
    ∃ s f, ((secrets jsonCodec).only masked).Reach s ∧ s.tmp = some f ∧ f.text = "\x7b\"ws://a\":\"t\"".toList ∧
      f.mode &&& ~~~ownerOnly = 0 := by
  have first : ((secrets jsonCodec).only masked).Reach fresh := .init rfl
  have run : (((secrets jsonCodec).only masked).replay fresh
      ([.set "ws://a".toList "t" true, .open' true 0o077] ++ List.replicate 13 .write ++
        [.close, .chmod0600 false])).any
      (fun s => s.tmp.map File.text = some "\x7b\"ws://a\":\"t\"".toList) = true := by decide +kernel
  obtain ⟨s, reach, here⟩ := first.replay_any run
  obtain ⟨f, there, text⟩ := Option.map_eq_some_iff.mp (of_decide_eq_true here)
  exact ⟨s, f, reach, there, text, ((secrets_discipline jsonCodec).1 s reach).2 f there⟩

/-- A temporary file that others can read, a file that is cut off and renamed, one that is emptied after a rename
failed, and one that was not read and lost a token. -/
theorem undisciplined_files :
    (((secrets jsonCodec).replay fresh
      ([.set "ws://a".toList "t" true, .open' true 0o022] ++ List.replicate 14 .write)).any fun s =>
        s.tmp = some ⟨"\x7b\"ws://a\":\"t\"\x7d".toList, 0o644⟩) = true ∧
    (((secrets jsonCodec).replay fresh (setCall "ws://a".toList "t" true 0o077 5)).any fun s =>
        s.file = some ⟨"\x7b\"ws:".toList, 0o600⟩) = true ∧
    (((secrets jsonCodec).replay fresh (setCall "ws://a".toList "t" true 0o077 14 ++
      [.set "ws://b".toList "u" true, .open' true 0o077, .close, .chmod0600 true, .rename false,
        .open' true 0o077])).any fun s => s.file = some ⟨[], 0o600⟩) = true ∧
    (((secrets jsonCodec).replay fresh (setCall "ws://a".toList "t" true 0o077 14 ++
      setCall "ws://b".toList "u" false 0o077 14)).any fun s =>
        s.file = some ⟨"\x7b\"ws://b\":\"u\"\x7d".toList, 0o600⟩) = true := by
  decide +kernel

end PjCloud.Trust
