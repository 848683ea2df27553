import PjCloud.Publish.Protocol

/-!
# The gate in front of the swap

A log is `Safe` if nothing is done to the files of a valid served database before a checkpoint of it has left no
frame out, and nothing is renamed over it before the same is reported of the temporary one. The gate takes every
`sqlite3.Error` for a file that is not a database. So a publication is safe unless SQLite raises at the gate of a
valid database.
-/

namespace PjCloud.Publish
open Lib Builder
variable {cfg : PublishSetup} {w w' : PublishWorld} {log : List FileOp} {op : FileOp} {valid : Bool} {α : Type}
  {build : Prog α}

/-! ## Safe logs -/

/-- What is lost with frames that are in the `-wal` only. -/
def FileOp.destroys : FileOp → Bool
  | .removeServedWal => true
  | .replace => true
  | _ => false

/-- An operation is safe after a log. -/
structure Allowed (valid : Bool) (log : List FileOp) (op : FileOp) : Prop where
  gated : op.destroys = true → valid = true → .gated true ∈ log
  checkpointed : op = .replace → .checkpointed true ∈ log

/-- Every operation is safe after those before it. -/
def Safe (valid : Bool) (log : List FileOp) : Prop :=
  ∀ before op after, log = before ++ op :: after → Allowed valid before op

lemma safe_nil : Safe valid [] := by
  intro before op after split
  cases before <;> cases split

lemma safe_snoc : Safe valid (log ++ [op]) ↔ Safe valid log ∧ Allowed valid log op := by
  constructor
  · intro safe
    refine ⟨?_, safe log op [] rfl⟩
    intro before op' after split
    apply safe before op' (after ++ [op])
    rw [split, List.append_assoc, List.cons_append]
  · rintro ⟨safe, allowed⟩ before op' after split
    cases after using List.reverseRecOn with
    | nil =>
      obtain ⟨rfl, last⟩ := List.append_inj' split rfl
      cases last
      exact allowed
    | append_singleton after last =>
      rw [← List.cons_append, ← List.append_assoc] at split
      obtain ⟨rfl, -⟩ := List.append_inj' split rfl
      exact safe before op' after rfl

lemma allowed_report {clean : Bool} : Allowed valid log (.gated clean) ∧ Allowed valid log (.checkpointed clean) := by
  refine ⟨⟨?_, ?_⟩, ⟨?_, ?_⟩⟩ <;> intro h <;> cases h

lemma Safe.append {ops : List FileOp} (safe : Safe valid log) (gated : valid = true → .gated true ∈ log)
    (checkpointed : .checkpointed true ∈ log) : Safe valid (log ++ ops) := by
  induction ops using List.reverseRecOn with
  | nil =>
    rw [List.append_nil]
    exact safe
  | append_singleton ops op ih =>
    rw [← List.append_assoc]
    refine safe_snoc.mpr ⟨ih, ?_, ?_⟩
    · intro _ isValid
      exact List.mem_append_left _ (gated isValid)
    · intro _
      exact List.mem_append_left _ checkpointed

/-! ## The gate -/

variable (cfg) in
/-- SQLite raises at the gate before a checkpoint leaves no frame out and before the time is over. -/
def gateRaises (poll : Nat) : Nat → Bool
  | 0 => match cfg.gateReport poll with
    | .error _ => true
    | .ok _ => false
  | left + 1 => match cfg.gateReport poll with
    | .error _ => true
    | .ok row => !row.clean && gateRaises (poll + 1) left

/-- What the gate leaves alone, and what it logs. -/
structure Polled (valid : Bool) (w w' : PublishWorld) : Prop where
  dir : w'.dir = w.dir
  temp : w'.temp = w.temp
  safe : Safe valid w.log → Safe valid w'.log
  kept : ∀ op ∈ w.log, op ∈ w'.log

/-- The polls so far have left frames. -/
structure Waited (valid : Bool) (w w' : PublishWorld) : Prop extends Polled valid w w' where
  unclean : .gated true ∉ w.log → .gated true ∉ w'.log

lemma polled_log {clean : Bool} : Polled valid w { w with log := w.log ++ [.gated clean] } := by
  refine ⟨rfl, rfl, ?_, ?_⟩
  · intro safe
    exact safe_snoc.mpr ⟨safe, allowed_report.1⟩
  · intro op mem
    exact List.mem_append_left _ mem

lemma Polled.trans {w'' : PublishWorld} (one : Polled valid w w') (two : Polled valid w' w'') :
    Polled valid w w'' :=
  ⟨two.dir.trans one.dir, two.temp.trans one.temp, fun safe => two.safe (one.safe safe),
    fun op mem => two.kept op (one.kept op mem)⟩

lemma waited_refl : Waited valid w w := ⟨⟨rfl, rfl, id, fun _ mem => mem⟩, id⟩

lemma waited_log : Waited valid w { w with log := w.log ++ [.gated false] } := by
  refine ⟨polled_log, ?_⟩
  intro unclean mem
  rcases List.mem_append.mp mem with mem | mem
  · exact unclean mem
  · cases List.mem_singleton.mp mem

lemma Waited.trans {w'' : PublishWorld} (one : Waited valid w w') (two : Waited valid w' w'') :
    Waited valid w w'' :=
  ⟨one.toPolled.trans two.toPolled, fun unclean => two.unclean (one.unclean unclean)⟩

/-- How the gate ends where it does not return. -/
def GateError (raises : Bool) (valid : Bool) (w : PublishWorld) (e : PublishError) (w' : PublishWorld) : Prop :=
  Waited valid w w' ∧ ((raises = true ∧ ∃ exn, e = .sqlite exn) ∨ (raises = false ∧ ∃ text, e = .busy text))

lemma ends_pollGate {poll : Nat} {Q : Checkpoint → PublishWorld → Prop} {E : PublishError → PublishWorld → Prop}
    (raised : ∀ e, cfg.gateReport poll = .error e → E (.sqlite e) w)
    (reported : ∀ row, cfg.gateReport poll = .ok row → Q row { w with log := w.log ++ [.gated row.clean] }) :
    (pollGate cfg poll).Ends Q E w := by
  unfold pollGate
  cases report : cfg.gateReport poll with
  | error e => exact raised e report
  | ok row =>
    dsimp only
    rw [Eff.ends_bind]
    exact reported row report

lemma clean_report {row : Checkpoint} (clean : row.clean = true) :
    Polled valid w { w with log := w.log ++ [.gated row.clean] } ∧ .gated true ∈ w.log ++ [.gated row.clean] := by
  refine ⟨polled_log, ?_⟩
  rw [clean]
  exact List.mem_append_right _ (List.mem_singleton_self _)

lemma unclean_report {row : Checkpoint} (unclean : ¬ row.clean = true) :
    Waited valid w { w with log := w.log ++ [.gated row.clean] } := by
  rw [Bool.not_eq_true] at unclean
  rw [unclean]
  exact waited_log

variable (valid) in
/-- The gate returns after a checkpoint that leaves no frame out, and raises a `sqlite3.Error` just when SQLite
does. -/
lemma ends_gate {poll left : Nat} :
    (gateOldServedDb cfg poll left).Ends
      (fun _ w' => Polled valid w w' ∧ .gated true ∈ w'.log ∧ gateRaises cfg poll left = false)
      (GateError (gateRaises cfg poll left) valid w) w := by
  induction left generalizing w poll with
  | zero =>
    unfold gateOldServedDb gateRaises
    rw [Eff.ends_bind]
    apply ends_pollGate
    · intro e report
      rw [report]
      exact ⟨waited_refl, .inl ⟨rfl, e, rfl⟩⟩
    · intro row report
      rw [report]
      split
      · rename_i clean
        obtain ⟨polled, mem⟩ := clean_report (w := w) clean
        exact ⟨polled, mem, rfl⟩
      · rename_i unclean
        exact ⟨unclean_report unclean, .inr ⟨rfl, _, rfl⟩⟩
  | succ left ih =>
    unfold gateOldServedDb gateRaises
    rw [Eff.ends_bind]
    apply ends_pollGate
    · intro e report
      rw [report]
      exact ⟨waited_refl, .inl ⟨rfl, e, rfl⟩⟩
    · intro row report
      rw [report]
      dsimp only
      split
      · rename_i clean
        obtain ⟨polled, mem⟩ := clean_report (w := w) clean
        refine ⟨polled, mem, ?_⟩
        rw [clean]
        rfl
      · -- the gate goes on as it does from the next poll
        rename_i unclean
        have waited : Waited valid w { w with log := w.log ++ [.gated row.clean] } := unclean_report unclean
        rw [Bool.not_eq_true] at unclean
        have goesOn : (!row.clean && gateRaises cfg (poll + 1) left) = gateRaises cfg (poll + 1) left := by
          rw [unclean, Bool.not_false, Bool.true_and]
        rw [goesOn]
        refine ih.mono ?_ ?_
        · rintro _ w'' ⟨polled, mem, calm⟩
          exact ⟨waited.toPolled.trans polled, mem, calm⟩
        · rintro e w'' ⟨later, how⟩
          exact ⟨waited.trans later, how⟩

/-! ## The build -/

lemma ends_onTemp {program : Prog α} {Q : α → PublishWorld → Prop} {E : PublishError → PublishWorld → Prop} :
    (onTemp program).Ends Q E w ↔
      program.Ends (fun a temp => Q a { w with temp := temp }) (fun e temp => E (.raised e) { w with temp := temp })
        w.temp := by
  unfold Eff.Ends onTemp
  generalize program w.temp = r
  obtain ⟨_ | _, _⟩ := r <;> rfl

/-- Only the temporary database is worked on. -/
structure OnlyTemp (w w' : PublishWorld) : Prop where
  dir : w'.dir = w.dir
  log : w'.log = w.log

lemma OnlyTemp.trans {w'' : PublishWorld} (one : OnlyTemp w w') (two : OnlyTemp w' w'') : OnlyTemp w w'' :=
  ⟨two.dir.trans one.dir, two.log.trans one.log⟩

lemma onlyTemp_program {program : Prog α} :
    (onTemp program).Ends (fun _ => OnlyTemp w) (fun _ => OnlyTemp w) w := by
  rw [ends_onTemp]
  unfold Eff.Ends
  generalize program w.temp = r
  obtain ⟨_ | _, _⟩ := r <;> exact ⟨rfl, rfl⟩

lemma onlyTemp_seedFloor : (seedFloor cfg).Ends (fun _ => OnlyTemp w) (fun _ => OnlyTemp w) w := by
  unfold seedFloor readOldBuildId
  rw [Eff.ends_bind, Eff.ends_gets]
  split
  · exact onlyTemp_program
  · exact ⟨rfl, rfl⟩

lemma onlyTemp_stamped : (ensureBuildStamped cfg).Ends (fun _ => OnlyTemp w) (fun _ => OnlyTemp w) w := by
  unfold ensureBuildStamped
  rw [Eff.ends_bind]
  refine onlyTemp_program.mono ?_ fun _ _ only => only
  intro row w' only
  split <;> exact only

lemma onlyTemp_carry : (carryForward cfg).Ends (fun _ => OnlyTemp w) (fun _ => OnlyTemp w) w := by
  unfold carryForward
  rw [Eff.ends_bind, Eff.ends_gets]
  split
  · exact ⟨rfl, rfl⟩
  · exact onlyTemp_program

lemma OnlyTemp.bind {β : Type} {x : Publishing α} {f : α → Publishing β} {Q : β → PublishWorld → Prop}
    (only : OnlyTemp w w') (quiet : x.Ends (fun _ => OnlyTemp w') (fun _ => OnlyTemp w') w')
    (next : ∀ a w'', OnlyTemp w w'' → (f a).Ends Q (fun _ => OnlyTemp w) w'') :
    (x >>= f).Ends Q (fun _ => OnlyTemp w) w' := by
  rw [Eff.ends_bind]
  refine quiet.mono ?_ fun _ _ => only.trans
  intro a w'' later
  exact next a w'' (only.trans later)

lemma ends_buildTemp :
    (buildTemp cfg build).Ends
      (fun x w' => w'.dir = w.dir ∧ w'.log = w.log ++ [.checkpointed x.2.clean] ∧ w'.temp.conn.txn = none)
      (fun _ => OnlyTemp w) w := by
  unfold buildTemp
  refine OnlyTemp.bind ⟨rfl, rfl⟩ onlyTemp_program fun _ w₁ only₁ => ?_
  refine only₁.bind onlyTemp_seedFloor fun _ w₂ only₂ => ?_
  refine only₂.bind onlyTemp_program fun result w₃ only₃ => ?_
  refine only₃.bind onlyTemp_stamped fun _ w₄ only₄ => ?_
  refine only₄.bind onlyTemp_carry fun _ w₅ only₅ => ?_
  unfold checkpointTemp
  rw [Eff.ends_bind, Eff.ends_bind, Eff.ends_gets]
  split
  · exact only₅
  · rename_i idle
    rw [Bool.not_eq_true, Option.isSome_eq_false_iff, Option.isNone_iff_eq_none] at idle
    split
    · exact only₅
    · rw [Eff.ends_bind]
      refine ⟨only₅.dir, ?_, idle⟩
      rw [← only₅.log]

/-! ## The swap -/

def PublishWorld.opened (w : PublishWorld) : PublishWorld :=
  { w with dir := { w.dir with temp := ⟨true, true, true⟩ }, temp := { w.temp with conn := {} } }

variable (cfg) in
/-- The temporary database is built, and its checkpoint leaves no frame out. -/
def Built (build : Prog α) (w : PublishWorld) : Prop :=
  cfg.openFault = none ∧ ∃ x w', buildTemp cfg build w.opened = (.ok x, w') ∧ x.2.clean = true

def Dir.hasDatabase (dir : Dir) : Bool := dir.served.any Served.valid

variable (cfg) in
/-- SQLite raises at the gate of a valid database. -/
def GateMistakes (dir : Dir) : Prop := dir.hasDatabase = true ∧ gateRaises cfg 0 cfg.polls = true

variable (cfg) in
/-- A log is safe just when SQLite does not raise at the gate of a valid database. -/
def SafeUnlessMistaken (dir : Dir) (w : PublishWorld) : Prop :=
  Safe dir.hasDatabase w.log ↔ ¬ GateMistakes cfg dir

lemma safe_swapped {ops : List FileOp} (calm : ¬ GateMistakes cfg w.dir) (safe : Safe w.dir.hasDatabase log)
    (gated : w.dir.hasDatabase = true → .gated true ∈ log) (checkpointed : .checkpointed true ∈ log) :
    Safe w.dir.hasDatabase (log ++ ops) ↔ ¬ GateMistakes cfg w.dir :=
  ⟨fun _ => calm, fun _ => safe.append gated checkpointed⟩

/-- After a gate that has raised, the `-wal` goes. -/
lemma safe_mistaken {ops : List FileOp} (raises : gateRaises cfg 0 cfg.polls = true)
    (safe : Safe w.dir.hasDatabase log) (unclean : .gated true ∉ log) (checkpointed : .checkpointed true ∈ log) :
    Safe w.dir.hasDatabase (log ++ .removeServedWal :: ops) ↔ ¬ GateMistakes cfg w.dir := by
  constructor
  · rintro all ⟨isValid, -⟩
    exact unclean ((all log .removeServedWal ops rfl).gated rfl isValid)
  · intro calm
    refine safe.append ?_ checkpointed
    intro isValid
    exact absurd ⟨isValid, raises⟩ calm

lemma ends_swap {row : Checkpoint} (clean : row.clean = true) (start : w.log = [.checkpointed true]) :
    (swap cfg row).Ends (fun _ => SafeUnlessMistaken cfg w.dir) (fun _ => SafeUnlessMistaken cfg w.dir) w := by
  have first : Safe w.dir.hasDatabase [.checkpointed true] := safe_snoc.mpr ⟨safe_nil, allowed_report.2⟩
  unfold swap gateServed replaceServed removeServedSidecars logOp
  rw [if_pos clean, Eff.ends_bind, Eff.ends_modify, Eff.ends_bind, Eff.ends_bind, Eff.ends_gets]
  split
  · rw [Eff.ends_bind, Eff.ends_attempt]
    refine (ends_gate w.dir.hasDatabase).mono ?_ ?_
    · rintro _ w₁ ⟨polled, gated, calm⟩
      have noMistake : ¬ GateMistakes cfg w.dir := fun mistake => by
        rw [GateMistakes, calm] at mistake
        cases mistake.2
      unfold SafeUnlessMistaken
      simp only [Eff.ends_pure, Eff.ends_bind, Eff.ends_modify, List.append_assoc]
      refine safe_swapped noMistake (polled.safe ?_) (fun _ => gated) (polled.kept _ ?_)
      · rw [start]
        exact first
      · rw [start]
        exact List.mem_singleton_self _
    · rintro e w₁ ⟨waited, ⟨raises, exn, rfl⟩ | ⟨calm, text, rfl⟩⟩
      · unfold SafeUnlessMistaken
        simp only [Eff.ends_bind, Eff.ends_modify, List.append_assoc, List.cons_append, List.nil_append]
        refine safe_mistaken raises (waited.safe ?_) (waited.unclean ?_) (waited.kept _ ?_)
        · rw [start]
          exact first
        · rw [start]
          intro mem
          cases List.mem_singleton.mp mem
        · rw [start]
          exact List.mem_singleton_self _
      · -- the gate was busy: nothing is done to the served files
        refine ⟨fun _ mistake => ?_, fun _ => waited.safe ?_⟩
        · rw [GateMistakes, calm] at mistake
          cases mistake.2
        · rw [start]
          exact first
  · rename_i absent
    have noDatabase : w.dir.hasDatabase = false := by
      unfold Dir.hasDatabase
      rw [Bool.not_eq_true, Option.isSome_eq_false_iff, Option.isNone_iff_eq_none] at absent
      rw [absent]
      rfl
    have noMistake : ¬ GateMistakes cfg w.dir := fun mistake => by
      rw [GateMistakes, noDatabase] at mistake
      cases mistake.1
    unfold SafeUnlessMistaken
    simp only [Eff.ends_bind, Eff.ends_modify, List.append_assoc, start]
    refine safe_swapped noMistake first (fun isValid => ?_) (List.mem_singleton_self _)
    rw [noDatabase] at isValid
    cases isValid

/-- A publication is safe unless SQLite raises at the gate of a valid database, whatever else SQLite does. -/
theorem swap_is_gated (build : Prog α) (w : PublishWorld) :
    Safe w.dir.hasDatabase (buildAndPublish cfg build { w with log := [] }).2.log ↔
      ¬ (Built cfg build { w with log := [] } ∧ GateMistakes cfg w.dir) := by
  have quiet : ∀ {log : List FileOp}, Safe w.dir.hasDatabase log →
      ¬ Built cfg build { w with log := [] } →
        (Safe w.dir.hasDatabase log ↔ ¬ (Built cfg build { w with log := [] } ∧ GateMistakes cfg w.dir)) :=
    fun safe not => ⟨fun _ both => not both.1, fun _ => safe⟩
  refine Eff.Ends.state (P := fun w' : PublishWorld => Safe w.dir.hasDatabase w'.log ↔
    ¬ (Built cfg build { w with log := [] } ∧ GateMistakes cfg w.dir)) ?_
  unfold buildAndPublish cleanupTemp setTempFiles openDb
  rw [Eff.ends_bind, Eff.ends_modify, Eff.ends_bind]
  cases fault : cfg.openFault with
  | some fault' =>
    refine quiet safe_nil ?_
    rintro ⟨opened, -⟩
    rw [fault] at opened
    cases opened
  | none =>
    dsimp only
    unfold setTempFiles
    rw [Eff.ends_bind, Eff.ends_modify, Eff.ends_modify, Eff.ends_bind, Eff.ends_attempt]
    refine (ends_buildTemp.and Eff.ends_self).mono ?_ ?_
    · rintro ⟨result, row⟩ w₁ ⟨⟨dir, log, -⟩, ran⟩
      unfold closeTemp
      rw [Eff.ends_bind, Eff.ends_modify]
      dsimp only at log ⊢
      rw [Eff.ends_bind]
      by_cases clean : row.clean = true
      · have built : Built cfg build { w with log := [] } := ⟨fault, (result, row), w₁, ran, clean⟩
        have served : w₁.dir.hasDatabase = w.dir.hasDatabase := by
          rw [dir]
          rfl
        have same : GateMistakes cfg w₁.dir ↔ GateMistakes cfg w.dir := by
          unfold GateMistakes
          rw [served]
        have both : ∀ w' : PublishWorld, SafeUnlessMistaken cfg w₁.dir w' →
            (Safe w.dir.hasDatabase w'.log ↔
              ¬ (Built cfg build { w with log := [] } ∧ GateMistakes cfg w.dir)) := by
          intro w' safe
          rw [SafeUnlessMistaken, served, same] at safe
          rw [safe]
          exact ⟨fun calm mistake => calm mistake.2, fun not mistake => not ⟨built, mistake⟩⟩
        refine (ends_swap clean ?_).mono (fun _ => both) fun _ => both
        rw [log, clean]
        rfl
      · have notBuilt : ¬ Built cfg build { w with log := [] } := by
          rintro ⟨-, x, w₂, ran', clean'⟩
          cases ran.symm.trans ran'
          exact clean clean'
        unfold swap
        rw [if_neg clean]
        refine quiet ?_ notBuilt
        change Safe _ w₁.log
        rw [log]
        exact safe_snoc.mpr ⟨safe_nil, allowed_report.2⟩
    · rintro e w₁ ⟨only, ran⟩
      refine quiet ?_ ?_
      · change Safe _ w₁.log
        rw [only.log]
        exact safe_nil
      · rintro ⟨-, x, w₂, ran', -⟩
        cases ran.symm.trans ran'

/-- SQLite without a failure, up to the reports of the gate. -/
def calmPublish (gateReport : Nat → Except Exn Checkpoint) : PublishSetup where
  builder := { calmSetup with clock := fun n => n + 1 }
  servedPath := "catalog.db"
  openFault := none
  floorFault := none
  overridesFault := none
  tempCheckpoint := .ok ⟨0, 0, 0⟩
  gateReport := gateReport
  polls := 50

def stampOnly : Prog Unit := recordBuild (calmPublish fun _ => .ok ⟨0, 0, 0⟩).builder 0 0 "ok"

def servedWorld (t : Tables) : PublishWorld := ⟨{}, ⟨some ⟨t, true⟩, .gone⟩, []⟩

/-- The database is locked when the gate looks at it, so its `-wal` is removed and it is replaced, without a
checkpoint of it. -/
theorem locked_is_not_gated :
    (buildAndPublish (calmPublish fun _ => .error (.error "OperationalError" "database is locked")) stampOnly
      (servedWorld {})).2.log = [.checkpointed true, .removeServedWal, .replace, .removeServedWal] ∧
      ¬ Safe true [.checkpointed true, .removeServedWal, .replace, .removeServedWal] := by
  refine ⟨by decide +kernel, ?_⟩
  intro safe
  have gated := (safe [.checkpointed true] .removeServedWal [.replace, .removeServedWal] rfl).gated rfl rfl
  cases List.mem_singleton.mp gated

end PjCloud.Publish
