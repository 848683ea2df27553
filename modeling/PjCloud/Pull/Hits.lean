import PjCloud.Lib.Machine
import PjCloud.Pull.Ending
import PjCloud.Pull.Memory

/-!
# Hits in memory

`serveFromMemoryCache` of `fetch_worker.cpp` and the two pulls that store what it serves. A pull tells of each topic how
it went, and it stores its session if no message failed to decode; a hit tells of every topic that it is there. Pulls
and lookups go on side by side, and the host is asked for a dataset while the cache is not locked.
-/

namespace PjCloud.Pull
open Lib Descriptor

/-- `name_by_id.emplace` -/
def emplaceName (names : List (Nat × String)) (t : SessionTopic) : List (Nat × String) :=
  if t.topicId ∈ names.map Prod.fst then names else names ++ [(t.topicId, t.topicName)]

namespace Fetch

/-- `cancelled` of `pullTopicsAsync` -/
def cancelled (s : Fetch) : Bool := decide (s.eos = .cancelled) || decide (s.snapshot = some true)

def sessionFailed (s : Fetch) : Bool := decide (s.eos = .error) || decide (s.eos = .unset)

end Fetch

/-- A pull that came to its end: one for the panel, or one for a job, which is `direct`. `nameById` has the names of the
session in the order in which the loops go through them, and `error` is `stats.error`. -/
structure Completed where
  selection : Selection
  direct : Bool := false
  request : Request := {}
  fetch : Fetch
  error : String := ""
  nameById : List (Nat × String)
  reach : (pulls request).Reach fetch
  done : fetch.pc = .done
  whole : fetch.left = none
  named : nameById.Perm (fetch.info.topics.foldl emplaceName [])
  asked : direct = true ∨ request = {} ∧ selection.Interactive

namespace Completed

def tidOf (p : Completed) (t : String) : Option Nat := (p.nameById.find? (·.2 = t)).map Prod.fst

/-- What `pullTopicsAsync` tells of a topic. -/
def verdict (p : Completed) (t : String) : Except String Unit :=
  if p.fetch.cancelled then .error "cancelled"
  else
    match p.tidOf t with
    | none => .error "no messages in the selected time range"
    | some tid =>
      match (p.fetch.driver.topicWith tid).filter (!·.decodable) with
      | some it => .error it.skipReason
      | none =>
        if p.fetch.sessionFailed then
          .error (if p.error = "" then "session ended without terminal Eos" else p.error)
        else if 0 < p.fetch.driver.errorsOf tid then
          .error (toString (p.fetch.driver.errorsOf tid) ++ " message(s) failed to decode (partial import of " ++
            toString (p.fetch.driver.rowsOf tid) ++ " ok)")
        else .ok ()

/-- Whether the session is stored. -/
def stores (p : Completed) : Bool :=
  (if p.direct then decide (p.fetch.terminal = .complete)
    else decide (p.fetch.eos = .complete) && !p.fetch.cancelled && !p.fetch.sessionFailed) &&
  decide (p.fetch.driver.totalDecodeErrors = 0) && p.fetch.driver.hasDecodable

/-- `count_by_name`: the last of the topics with a name counts. -/
def countByName (p : Completed) (t : String) : Nat :=
  ((p.nameById.reverse.find? (·.2 = t)).map fun named => p.fetch.driver.rowsOf named.1).getD 0

/-- `storeCompletedSessionEntry` -/
def entry (sha256Hex : String → String) (p : Completed) (refetched : Bool) : CachedSession where
  displayName := p.selection.groupName
  serverUri := p.selection.serverUri
  countsByTopic := p.selection.topicNames.map fun t => (t, p.countByName t)
  totalMessages := (p.selection.topicNames.map p.countByName).sum
  datasetId := p.fetch.dataset.getD 0
  cacheIdentity := if p.fetch.teeOutcome = .finalized then p.selection.identity sha256Hex else ""
  teeOutcome := p.fetch.teeOutcome
  lastHitCase := if refetched then .refetchedDiskMiss else .none

end Completed

/-- How far `serveFromMemoryCache` is: the host is asked for the dataset of the copy, or the entry was found. -/
inductive Phase where
  | copied (candidate : CachedSession)
  | found (cached : CachedSession)

structure Call where
  selection : Selection
  phase : Phase

/-- A pull that was served, with the entry that it was served from. -/
structure Hit where
  selection : Selection
  cached : CachedSession

/-- What `pullProgress` and `pullFinished` tell of a hit. -/
def Hit.report (h : Hit) : List (String × Nat × Bool) :=
  h.selection.topicNames.map fun t => (t, (h.cached.countsByTopic.lookup t).getD 0, true)

/-- The cache with the lookups that go on. `history` has the pulls that stored a session, each at the place that its
generation says, and `hits` those that were served. -/
structure Memory where
  cache : SessionCache := {}
  calls : Nat → Option Call := fun _ => none
  history : List Completed := []
  hits : List Hit := []

inductive Move where
  | store (p : Completed) (refetched : Bool)
  | peek (caller : Nat) (selection : Selection)
  | answer (caller : Nat) (present : Bool)
  | disk (caller : Nat) (valid : Bool)
  | beginPromotion (key : SessionKey) (datasetId : Nat)
  | settlePromotion (key : SessionKey) (datasetId generation : Nat) (state : PromotionState)

namespace Memory

@[simp] def setCall (w : Memory) (caller : Nat) (call : Option Call) : Memory :=
  { w with calls := Function.update w.calls caller call }

@[simp] def setCache (w : Memory) (cache : SessionCache) : Memory := { w with cache }

/-- The entry that was found is served, unless the file is not there or is not that of this request. Without a runtime
there is no file. -/
def serve (sha256Hex : String → String) (runtime : Bool) (w : Memory) (caller : Nat) (q : Selection)
    (cached : CachedSession) (valid : Bool) : Memory :=
  let ended := w.setCall caller none
  if runtime && (!valid || cached.cacheIdentity ≠ q.identity sha256Hex) then ended.setCache (w.cache.evict q.key)
  else
    let cache := if runtime then w.cache.recordHitCase q.key .servedValidDisk else w.cache
    { ended.setCache cache with hits := w.hits ++ [⟨q, cached⟩] }

def next (sha256Hex : String → String) (runtime : Bool) (w : Memory) : Move → Option Memory
  | .store p refetched =>
    if p.stores then
      some { w.setCache (w.cache.store p.selection.key (p.entry sha256Hex refetched)) with history := w.history ++ [p] }
    else none
  | .peek caller q =>
    if q.Interactive ∧ (w.calls caller).isNone then
      match w.cache.find q.key with
      | none => some w
      | some candidate => some (w.setCall caller (some ⟨q, .copied candidate⟩))
    else none
  | .answer caller present =>
    match w.calls caller with
    | some ⟨q, .copied candidate⟩ =>
      match w.cache.verdict q.key candidate present with
      | (none, cache) => some ((w.setCall caller none).setCache cache)
      | (some cached, cache) => some ((w.setCall caller (some ⟨q, .found cached⟩)).setCache cache)
    | _ => none
  | .disk caller valid =>
    match w.calls caller with
    | some ⟨q, .found cached⟩ => some (w.serve sha256Hex runtime caller q cached valid)
    | _ => none
  | .beginPromotion key datasetId => some (w.setCache (w.cache.beginPromotion key datasetId).2)
  | .settlePromotion key datasetId generation state =>
    some (w.setCache (w.cache.settlePromotion key datasetId generation state))

end Memory

def memory (sha256Hex : String → String) (runtime : Bool) : Machine Memory Move :=
  .ofNext (fun w => ∃ maxEntries, 0 < maxEntries ∧ w = { cache := { maxEntries } }) (Memory.next sha256Hex runtime)

/-! ## Who stored an entry -/

/-- `value` was stored by `p`, under a key like `key`. -/
structure Recorded (sha256Hex : String → String) (history : List Completed) (key : SessionKey) (value : CachedSession)
    (p : Completed) : Prop where
  place : history[value.generation - 1]? = some p
  positive : 0 < value.generation
  stored : p.stores = true
  key : p.selection.key.same key = true
  core : value.core = (p.entry sha256Hex false).core

structure Honest (sha256Hex : String → String) (w : Memory) : Prop where
  generation : w.cache.nextGeneration = w.history.length
  entries : ∀ e ∈ w.cache.entries, ∃ p, Recorded sha256Hex w.history e.1 e.2 p
  asked : ∀ caller call, w.calls caller = some call → call.selection.Interactive
  found : ∀ caller q cached, w.calls caller = some ⟨q, .found cached⟩ → ∃ p, Recorded sha256Hex w.history q.key cached p
  hits : ∀ h ∈ w.hits, h.selection.Interactive ∧ ∃ p, Recorded sha256Hex w.history h.selection.key h.cached p

section
variable {sha256Hex : String → String} {runtime : Bool} {w w' : Memory} {history : List Completed} {key : SessionKey}
  {value : CachedSession} {p : Completed}

lemma Memory.calls_setCall (w : Memory) (caller other : Nat) (call : Option Call) :
    (w.setCall caller call).calls other = if other = caller then call else w.calls other :=
  Function.update_apply _ _ _ _

lemma Recorded.append (recorded : Recorded sha256Hex history key value p) (more : List Completed) :
    Recorded sha256Hex (history ++ more) key value p := by
  have inside : value.generation - 1 < history.length := (List.getElem?_eq_some_iff.mp recorded.place).1
  exact { recorded with place := (List.getElem?_append_left inside).trans recorded.place }

lemma Recorded.of_find (honest : Honest sha256Hex w) (there : w.cache.find key = some value) :
    ∃ p, Recorded sha256Hex w.history key value p := by
  obtain ⟨own, mem, same⟩ := SessionCache.mem_of_find there
  obtain ⟨p, recorded⟩ := honest.entries _ mem
  exact ⟨p, { recorded with key := SessionKey.same_trans recorded.key same }⟩

namespace Honest

lemma setCache (honest : Honest sha256Hex w) {cache : SessionCache} (keeps : w.cache.Keeps cache) :
    Honest sha256Hex (w.setCache cache) := by
  refine { honest with generation := keeps.generation.trans honest.generation, entries := fun e mem => ?_ }
  obtain ⟨old, there, core, generation⟩ := keeps.entries e mem
  obtain ⟨p, recorded⟩ := honest.entries _ there
  refine ⟨p, ?_, ?_, recorded.stored, recorded.key, core.trans recorded.core⟩
  · rw [generation]
    exact recorded.place
  · rw [generation]
    exact recorded.positive

lemma setCall (honest : Honest sha256Hex w) {caller : Nat} {call : Option Call}
    (asked : ∀ c, call = some c → c.selection.Interactive)
    (found : ∀ q cached, call = some ⟨q, .found cached⟩ → w.cache.find q.key = some cached) :
    Honest sha256Hex (w.setCall caller call) := by
  refine { honest with asked := fun other c there => ?_, found := fun other q cached there => ?_ }
  · rw [Memory.calls_setCall] at there
    split at there
    · exact asked c there
    · exact honest.asked other c there
  · rw [Memory.calls_setCall] at there
    split at there
    · have now := Recorded.of_find honest (found q cached there)
      exact now
    · exact honest.found other q cached there

lemma endCall (honest : Honest sha256Hex w) (caller : Nat) : Honest sha256Hex (w.setCall caller none) :=
  honest.setCall (fun _ none => nomatch none) (fun _ _ none => nomatch none)

lemma store (honest : Honest sha256Hex w) (stored : p.stores = true) (refetched : Bool) :
    Honest sha256Hex { w.setCache (w.cache.store p.selection.key (p.entry sha256Hex refetched)) with
      history := w.history ++ [p] } where
  generation := by
    change (w.cache.store _ _).nextGeneration = (w.history ++ [p]).length
    rw [SessionCache.generation_store, honest.generation, List.length_append, List.length_singleton]
  entries := by
    intro e mem
    rcases SessionCache.mem_store mem with ⟨new, same⟩ | old
    · refine ⟨p, ?_, ?_, stored, SessionKey.same_symm same, ?_⟩
      · change (w.history ++ [p])[e.2.generation - 1]? = some p
        rw [new]
        change (w.history ++ [p])[w.cache.nextGeneration + 1 - 1]? = some p
        rw [honest.generation, Nat.add_sub_cancel, List.getElem?_concat_length]
      · rw [new]
        exact Nat.succ_pos _
      · rw [new]
        rfl
    · obtain ⟨other, recorded⟩ := honest.entries e old
      exact ⟨other, recorded.append _⟩
  asked := honest.asked
  found caller q cached there := by
    obtain ⟨other, recorded⟩ := honest.found caller q cached there
    exact ⟨other, recorded.append _⟩
  hits h mem := by
    obtain ⟨asked, other, recorded⟩ := honest.hits h mem
    exact ⟨asked, other, recorded.append _⟩

lemma serve (honest : Honest sha256Hex w) {caller : Nat} {q : Selection} {cached : CachedSession} (valid : Bool)
    (there : w.calls caller = some ⟨q, .found cached⟩) :
    Honest sha256Hex (w.serve sha256Hex runtime caller q cached valid) := by
  have ended := honest.endCall caller
  unfold Memory.serve
  dsimp only
  split
  · exact ended.setCache (SessionCache.keeps_evict _)
  · have keeps : w.cache.Keeps (if runtime then w.cache.recordHitCase q.key .servedValidDisk else w.cache) := by
      split
      · exact SessionCache.keeps_update _ fun _ => ⟨rfl, rfl⟩
      · exact SessionCache.keeps_refl _
    refine { ended.setCache keeps with hits := fun h mem => ?_ }
    rcases List.mem_append.mp mem with old | new
    · exact honest.hits h old
    · obtain rfl := List.mem_singleton.mp new
      exact ⟨honest.asked caller _ there, honest.found caller q cached there⟩

lemma next (honest : Honest sha256Hex w) {m : Move} (step : w.next sha256Hex runtime m = some w') :
    Honest sha256Hex w' := by
  cases m with
  | store p refetched =>
    rw [Memory.next] at step
    split at step
    · rename_i stored
      cases step
      exact honest.store stored refetched
    · cases step
  | peek caller q =>
    rw [Memory.next] at step
    split at step
    · rename_i asks
      split at step
      · cases step
        exact honest
      · cases step
        refine honest.setCall ?_ ?_
        · rintro _ ⟨⟩
          exact asks.1
        · rintro _ _ ⟨⟩
    · cases step
  | answer caller present =>
    rw [Memory.next] at step
    split at step
    · rename_i q candidate there
      have keeps : w.cache.Keeps (w.cache.verdict q.key candidate present).2 := SessionCache.keeps_verdict _ _ _
      have current : ∀ value, (w.cache.verdict q.key candidate present).1 = some value →
          w.cache.find q.key = some value := fun _ => SessionCache.of_verdict
      split at step
      · rename_i cache answer
        cases step
        rw [answer] at keeps
        exact Honest.setCache (honest.endCall caller) keeps
      · rename_i cached cache answer
        cases step
        rw [answer] at keeps current
        refine Honest.setCache (honest.setCall ?_ ?_) keeps
        · rintro _ ⟨⟩
          have asked := honest.asked caller _ there
          exact asked
        · rintro _ _ ⟨⟩
          exact current cached rfl
    · cases step
  | disk caller valid =>
    rw [Memory.next] at step
    split at step
    · rename_i q cached there
      cases step
      exact honest.serve valid there
    · cases step
  | beginPromotion key datasetId =>
    cases step
    exact honest.setCache (SessionCache.keeps_beginPromotion key datasetId)
  | settlePromotion key datasetId generation state =>
    cases step
    exact honest.setCache (SessionCache.keeps_settlePromotion key datasetId generation state)

end Honest

lemma honest_of_reach (reach : (memory sha256Hex runtime).Reach w) : Honest sha256Hex w := by
  refine reach.invariant_next ?_ ?_
  · rintro _ ⟨maxEntries, -, rfl⟩
    exact ⟨rfl, nofun, nofun, nofun, nofun⟩
  · exact fun _ _ _ _ honest step => honest.next step

end

/-! ## What a hit hides -/

namespace Completed
variable {p : Completed}

/-- The session has the topic, and the driver did not give it up. -/
def Imports (p : Completed) (t : String) : Prop :=
  ∃ tid, p.tidOf t = some tid ∧ ∀ it, p.fetch.driver.topicWith tid = some it → it.decodable = true

def deliveredFor (p : Completed) (tid : Nat) : Nat := (p.fetch.delivered.map Message.topicId).count tid

lemma eos_of_stores (stored : p.stores = true) : p.fetch.eos = .complete := by
  unfold stores at stored
  rw [Bool.and_eq_true, Bool.and_eq_true] at stored
  have ended := stored.1.1
  split at ended
  · have terminal := of_decide_eq_true ended
    exact (Fetch.of_terminal (course_of_reach p.reach).cut terminal).2.1
  · rw [Bool.and_eq_true, Bool.and_eq_true] at ended
    exact of_decide_eq_true ended.1.1

lemma errors_of_stores (stored : p.stores = true) {it : IngestTopic} (mem : it ∈ p.fetch.driver.topics) :
    it.decodeErrors = 0 := by
  unfold stores at stored
  rw [Bool.and_eq_true, Bool.and_eq_true] at stored
  have none : p.fetch.driver.totalDecodeErrors = 0 := of_decide_eq_true stored.1.2
  exact List.sum_eq_zero_iff_forall_eq_nat.mp none _ (List.mem_map_of_mem mem)

lemma errorsOf_of_stores (stored : p.stores = true) (tid : Nat) : p.fetch.driver.errorsOf tid = 0 := by
  unfold Driver.errorsOf
  cases there : p.fetch.driver.topicWith tid with
  | none => rfl
  | some it => exact errors_of_stores stored (List.mem_of_find?_eq_some there)

/-- A pull that stores its session told of a topic that it went well if and only if it did. -/
lemma verdict_iff (stored : p.stores = true) (panel : p.direct = false) {t : String} :
    p.verdict t = .ok () ↔ p.Imports t := by
  have errors := errorsOf_of_stores stored
  have ended : p.fetch.cancelled = false ∧ p.fetch.sessionFailed = false := by
    unfold stores at stored
    rw [panel] at stored
    simp only [Bool.false_eq_true, if_false, Bool.and_eq_true, Bool.not_eq_true'] at stored
    exact ⟨stored.1.1.1.2, stored.1.1.2⟩
  unfold verdict Imports
  rw [ended.1, ended.2, if_neg Bool.false_ne_true]
  cases p.tidOf t with
  | none =>
    constructor
    · nofun
    · rintro ⟨tid, ⟨⟩, -⟩
  | some tid =>
    dsimp only
    rw [errors tid, if_neg Bool.false_ne_true, if_neg (Nat.lt_irrefl 0)]
    cases topic : p.fetch.driver.topicWith tid with
    | none => exact ⟨fun _ => ⟨tid, rfl, fun _ there => nomatch topic.symm.trans there⟩, fun _ => rfl⟩
    | some it =>
      cases decodable : it.decodable with
      | true =>
        rw [Option.filter_some_neg (by rw [decodable]; rfl)]
        refine ⟨fun _ => ⟨tid, rfl, fun other there => ?_⟩, fun _ => rfl⟩
        cases topic.symm.trans there
        exact decodable
      | false =>
        rw [Option.filter_some_pos (by rw [decodable]; rfl)]
        constructor
        · nofun
        · rintro ⟨_, ⟨⟩, all⟩
          exact absurd (decodable.symm.trans (all it topic)) nofun

lemma rows_iff (stored : p.stores = true) {it : IngestTopic} (mem : it ∈ p.fetch.driver.topics) :
    it.rows = p.deliveredFor it.topicId ↔ it.decodable = true ∨ p.deliveredFor it.topicId = 0 := by
  have whole : p.fetch.eos ≠ .cancelled := by rw [eos_of_stores stored]; nofun
  obtain ⟨seen, accounts, same⟩ := ((course_of_reach p.reach).onward p.whole).accounts whole
  rw [p.done, show Pc.done.inHand = [] from rfl, List.append_nil] at same
  rw [same] at accounts
  cases decodable : it.decodable with
  | true => exact ⟨fun _ => .inl rfl, fun _ => accounts.rows mem decodable (errors_of_stores stored mem)⟩
  | false =>
    have each := accounts.each it mem
    rw [(each.unbound (each.skipped decodable)).1]
    exact ⟨fun none => .inr none.symm, fun none => (none.resolve_left nofun).symm⟩

end Completed

lemma Hit.mem_report {h : Hit} {t : String} : (∃ n, (t, n, true) ∈ h.report) ↔ t ∈ h.selection.topicNames := by
  unfold Hit.report
  simp only [List.mem_map, Prod.mk.injEq, and_true]
  constructor
  · rintro ⟨n, t, mem, rfl, -⟩
    exact mem
  · exact fun mem => ⟨_, t, mem, rfl, rfl⟩

/-- What a hit says of a session, against what was said of it by the pull that stored it and against the rows that the
host has. -/
theorem hit_is_honest_iff (sha256Hex : String → String) (runtime : Bool) (w : Memory)
    (reach : (memory sha256Hex runtime).Reach w) (h : Hit) (served : h ∈ w.hits) :
    ∃ p, w.history[h.cached.generation - 1]? = some p ∧ p.selection.key.same h.selection.key = true ∧
      (p.direct = false →
        ((∀ t n, (t, n, true) ∈ h.report → p.verdict t = .ok ()) ↔ ∀ t ∈ p.selection.topicNames, p.Imports t)) ∧
      ((∀ it ∈ p.fetch.driver.topics, (∃ n, (it.topicName, n, true) ∈ h.report) → it.rows = p.deliveredFor it.topicId) ↔
        ∀ it ∈ p.fetch.driver.topics, it.topicName ∈ p.selection.topicNames →
          it.decodable = true ∨ p.deliveredFor it.topicId = 0) := by
  obtain ⟨asked, p, recorded⟩ := (honest_of_reach reach).hits h served
  have topics (t : String) : (∃ n, (t, n, true) ∈ h.report) ↔ t ∈ p.selection.topicNames :=
    Hit.mem_report.trans (Selection.mem_topics_of_same asked.2.2.2 recorded.key).symm
  refine ⟨p, recorded.place, recorded.key, fun panel => ?_, ?_⟩
  · constructor
    · intro all t mem
      obtain ⟨n, told⟩ := (topics t).mpr mem
      exact (Completed.verdict_iff recorded.stored panel).mp (all t n told)
    · intro all t n told
      exact (Completed.verdict_iff recorded.stored panel).mpr (all t ((topics t).mp ⟨n, told⟩))
  · refine forall_congr' fun it => forall_congr' fun mem => ?_
    rw [topics, Completed.rows_iff recorded.stored mem]

/-! ## Two topics -/

def twoTopics : SessionInfo := ⟨100, [⟨1, "imu", 1⟩, ⟨2, "gps", 2⟩], [⟨1, "Imu"⟩, ⟨2, "Gps"⟩]⟩

/-- A message of each topic. The host answers `binding` for the parser of the second one. -/
def twoTopicPull (binding : Except String Unit) : List Event :=
  [.openSession twoTopics, .openWriter true, .create 7, .announce, .bind (.ok ())] ++
    handle (reading 1) ++ [.take, .wrote true] ++
    [.deliver (reading 2), .check 60 15, .offer, .decode binding true, .tick true, .take, .wrote true] ++ publishing

def twoTopicSelection (topicNames : List String) : Selection :=
  ⟨"wss://host", ["a.mcap"], topicNames, 0, 0, true, "", "a.mcap"⟩

def twoTopicFetch (binding : Except String Unit) : Fetch :=
  ((pulls {}).replay { tee := some {}, hook := true } (twoTopicPull binding)).getD {}

/-- The pull of both topics, for a binding with which it comes to its end. -/
def twoTopicCompleted (binding : Except String Unit)
    (runs : ((pulls {}).replay { tee := some {}, hook := true } (twoTopicPull binding)).isSome = true)
    (done : (twoTopicFetch binding).pc = .done) (whole : (twoTopicFetch binding).left = none) : Completed where
  selection := twoTopicSelection ["imu", "gps"]
  fetch := twoTopicFetch binding
  nameById := (twoTopicFetch binding).info.topics.foldl emplaceName []
  reach := by
    have start : (pulls {}).Reach { tee := some {}, hook := true } := .init ⟨false, .inr (.inr rfl)⟩
    obtain ⟨s, run⟩ := Option.isSome_iff_exists.mp runs
    unfold twoTopicFetch
    rw [run]
    exact start.replay run
  done
  whole
  named := .refl _
  asked := .inr ⟨rfl, by decide⟩

def parsed : Completed := twoTopicCompleted (.ok ()) (by decide +kernel) (by decide +kernel) (by decide +kernel)

def unparsed : Completed :=
  twoTopicCompleted (.error "no parser") (by decide +kernel) (by decide +kernel) (by decide +kernel)

def lookup (caller : Nat) (q : Selection) : List Move := [.peek caller q, .answer caller true, .disk caller true]

lemma memory_start : (memory id true).Reach {} := .init ⟨8, by decide, rfl⟩

theorem hit_is_honest_with_parsers :
    ∃ w h p, (memory id true).Reach w ∧ h ∈ w.hits ∧ w.history[h.cached.generation - 1]? = some p ∧
      p.direct = false ∧ (∀ t ∈ p.selection.topicNames, p.Imports t) ∧
      ∀ t n, (t, n, true) ∈ h.report → p.verdict t = .ok () := by
  have run : ((memory id true).replay {} (.store parsed false :: lookup 0 (twoTopicSelection ["imu", "gps"]))).any
      (fun w => w.hits.any fun h => w.history[h.cached.generation - 1]?.any fun p =>
        decide (p.direct = false ∧ ∀ told ∈ h.report, p.verdict told.1 = .ok ())) = true := by decide +kernel
  obtain ⟨w, reach, served⟩ := memory_start.replay_any run
  obtain ⟨h, mem, there⟩ := List.any_eq_true.mp served
  obtain ⟨p, place, facts⟩ := (Option.any_eq_true _ _).mp there
  obtain ⟨panel, told⟩ := of_decide_eq_true facts
  have well : ∀ t n, (t, n, true) ∈ h.report → p.verdict t = .ok () := fun _ _ mem => told _ mem
  obtain ⟨p', place', -, honest, -⟩ := hit_is_honest_iff id true w reach h mem
  cases place.symm.trans place'
  exact ⟨w, h, p, reach, mem, place, panel, (honest panel).mp well, well⟩

theorem missing_parser_is_hidden :
    ∃ w h p, (memory id true).Reach w ∧ h ∈ w.hits ∧ w.history[h.cached.generation - 1]? = some p ∧
      p.direct = false ∧ ("gps", 0, true) ∈ h.report ∧ p.verdict "gps" = .error "no parser" ∧
      p.deliveredFor 2 = 1 ∧ p.fetch.driver.rowsOf 2 = 0 := by
  have run : ((memory id true).replay {} (.store unparsed false :: lookup 0 (twoTopicSelection ["imu", "gps"]))).any
      (fun w => w.hits.any fun h => w.history[h.cached.generation - 1]?.any fun p =>
        decide (p.direct = false ∧ ("gps", 0, true) ∈ h.report ∧ p.verdict "gps" = .error "no parser" ∧
          p.deliveredFor 2 = 1 ∧ p.fetch.driver.rowsOf 2 = 0)) = true := by decide +kernel
  obtain ⟨w, reach, served⟩ := memory_start.replay_any run
  obtain ⟨h, mem, there⟩ := List.any_eq_true.mp served
  obtain ⟨p, place, facts⟩ := (Option.any_eq_true _ _).mp there
  exact ⟨w, h, p, reach, mem, place, of_decide_eq_true facts⟩

/-! ## Names in another order -/

section
variable {sha256Hex : String → String} {w : Memory} {caller : Nat} {q : Selection} {cached : CachedSession} {p : Completed}

lemma identity_ne (sha256Hex : String → String) (q : Selection) : q.identity sha256Hex ≠ "" := by
  unfold Selection.identity descriptorIdentity
  intro none
  exact absurd (String.append_eq_empty_iff.mp none).1 (by decide)

/-- The identity of an entry is that of a request if and only if its file was published for it. -/
lemma Recorded.identity_iff (recorded : Recorded sha256Hex w.history q.key cached p) (other : Selection) :
    cached.cacheIdentity = other.identity sha256Hex ↔
      p.fetch.teeOutcome = .finalized ∧ other.identity sha256Hex = p.selection.identity sha256Hex := by
  have same : cached.cacheIdentity = if p.fetch.teeOutcome = .finalized then p.selection.identity sha256Hex else "" :=
    congrArg CachedSession.cacheIdentity recorded.core
  rw [same]
  split
  · rename_i finalized
    exact ⟨fun same => ⟨finalized, same.symm⟩, fun both => both.2.symm⟩
  · rename_i unpublished
    exact ⟨fun none => absurd none.symm (identity_ne sha256Hex other), fun both => absurd both.1 unpublished⟩

lemma replay_lookup (free : w.calls caller = none) (asks : q.Interactive) (there : w.cache.find q.key = some cached)
    (valid : Bool) :
    ∃ w₂ : Memory, w₂.hits = w.hits ∧ w₂.cache.find q.key = some cached ∧
      (memory sha256Hex true).replay w [.peek caller q, .answer caller true, .disk caller valid] =
        some (w₂.serve sha256Hex true caller q cached valid) := by
  let w₁ := w.setCall caller (some ⟨q, .copied cached⟩)
  let w₂ := (w₁.setCall caller (some ⟨q, .found cached⟩)).setCache (w.cache.promote q.key)
  have peeked : w.next sha256Hex true (.peek caller q) = some w₁ := by
    have enabled : q.Interactive ∧ (w.calls caller).isNone = true := ⟨asks, by rw [free]; rfl⟩
    rw [Memory.next, if_pos enabled, there]
  have answered : w₁.next sha256Hex true (.answer caller true) = some w₂ := by
    have call : w₁.calls caller = some ⟨q, .copied cached⟩ := by
      rw [Memory.calls_setCall, if_pos rfl]
    have verdict : w₁.cache.verdict q.key cached true = (some cached, w.cache.promote q.key) := by
      change w.cache.verdict q.key cached true = _
      rw [SessionCache.verdict, there]
      rfl
    rw [Memory.next, call]
    dsimp only
    rw [verdict]
  have served : w₂.next sha256Hex true (.disk caller valid) = some (w₂.serve sha256Hex true caller q cached valid) := by
    have call : w₂.calls caller = some ⟨q, .found cached⟩ := by
      change (w₁.setCall caller _).calls caller = _
      rw [Memory.calls_setCall, if_pos rfl]
    rw [Memory.next, call]
  refine ⟨w₂, rfl, SessionCache.find_promote there, ?_⟩
  unfold memory
  rw [Machine.replay_next peeked, Machine.replay_next answered, Machine.replay_next served]
  rfl

end

/-- A pull with the names of a session in another order, for a dataset that is there and a file that is valid: it is
served, and the entry stays, if and only if the file was published for the identity that the order gives. -/
theorem reordered_selection_is_served_iff (sha256Hex : String → String) (valid : String → Bool) (w : Memory)
    (reach : (memory sha256Hex true).Reach w) (p : Completed) (cached : CachedSession)
    (there : w.cache.find p.selection.key = some cached) (stored : w.history[cached.generation - 1]? = some p)
    (artifact : valid (p.selection.identity sha256Hex) = true) (names topics : List String) (groupName : String)
    (perm : names.Perm p.selection.sequenceNames) (permTopics : topics.Perm p.selection.topicNames) (q : Selection)
    (asks : q = { p.selection with sequenceNames := names, topicNames := topics, groupName } ∧ q.Interactive)
    (caller : Nat) (free : w.calls caller = none) :
    (∃ w', (memory sha256Hex true).replay w
        [.peek caller q, .answer caller true, .disk caller (valid (q.identity sha256Hex))] = some w' ∧
      (w'.hits = w.hits ++ [⟨q, cached⟩] ∧ (w'.cache.find q.key).map CachedSession.generation = some cached.generation ↔
        p.fetch.teeOutcome = .finalized ∧ q.identity sha256Hex = p.selection.identity sha256Hex)) ∧
    (canonicalSourceDescriptorJson q.descriptor = canonicalSourceDescriptorJson p.selection.descriptor ↔
      names = p.selection.sequenceNames ∧ topics = p.selection.topicNames) := by
  obtain ⟨rfl, asks⟩ := asks
  have own : p.selection.selectionId = "" := asks.2.2.2
  refine ⟨?_, Selection.canonical_iff own⟩
  have key := Selection.key_of_perm perm permTopics groupName
  set q : Selection := { p.selection with sequenceNames := names, topicNames := topics, groupName }
  rw [← key] at there
  obtain ⟨p', recorded⟩ := Recorded.of_find (honest_of_reach reach) there
  obtain rfl : p' = p := Option.some.inj (recorded.place.symm.trans stored)
  obtain ⟨w₂, hits, found, run⟩ := replay_lookup free asks there (valid (q.identity sha256Hex))
  refine ⟨_, run, ?_⟩
  rw [← recorded.identity_iff q]
  unfold Memory.serve
  dsimp only
  split
  · rename_i refetched
    rw [Bool.true_and, Bool.or_eq_true, Bool.not_eq_true', decide_eq_true_iff] at refetched
    constructor
    · rintro ⟨served, -⟩
      change w₂.hits = w.hits ++ [⟨q, cached⟩] at served
      rw [hits] at served
      exact absurd (List.self_eq_append_right.mp served) (List.cons_ne_nil _ _)
    · intro same
      obtain ⟨-, identity⟩ := (recorded.identity_iff q).mp same
      rw [identity, artifact] at refetched
      exact absurd same (identity ▸ refetched.resolve_left nofun)
  · rename_i kept
    rw [Bool.true_and, Bool.or_eq_true, Bool.not_eq_true', decide_eq_true_iff] at kept
    have same : cached.cacheIdentity = q.identity sha256Hex := by
      by_contra other
      exact kept (.inr other)
    refine ⟨fun _ => same, fun _ => ⟨congrArg (· ++ _) hits, ?_⟩⟩
    change ((w₂.cache.recordHitCase q.key .servedValidDisk).find q.key).map _ = _
    rw [SessionCache.recordHitCase, SessionCache.find_update found]
    rfl

lemma two_topics_stored : ∃ w, (memory id true).Reach w ∧
    (w.cache.find (twoTopicSelection ["imu", "gps"]).key).any (fun cached =>
      w.history[cached.generation - 1]?.any fun p =>
        decide (p.selection = twoTopicSelection ["imu", "gps"] ∧ p.fetch.teeOutcome = .finalized)) = true ∧
    (w.calls 0).isNone = true ∧
    ((memory id true).replay w (lookup 0 (twoTopicSelection ["gps", "imu"]))).any
      (fun w' => w'.hits.isEmpty && (w'.cache.find (twoTopicSelection ["gps", "imu"]).key).isNone) = true := by
  have run : ((memory id true).replay {} [.store parsed false]).any (fun w =>
      (w.cache.find (twoTopicSelection ["imu", "gps"]).key).any (fun cached =>
        w.history[cached.generation - 1]?.any fun p =>
          decide (p.selection = twoTopicSelection ["imu", "gps"] ∧ p.fetch.teeOutcome = .finalized)) &&
      ((w.calls 0).isNone &&
        ((memory id true).replay w (lookup 0 (twoTopicSelection ["gps", "imu"]))).any
          fun w' => w'.hits.isEmpty && (w'.cache.find (twoTopicSelection ["gps", "imu"]).key).isNone)) = true := by
    decide +kernel
  obtain ⟨w, reach, facts⟩ := memory_start.replay_any run
  rw [Bool.and_eq_true, Bool.and_eq_true] at facts
  exact ⟨w, reach, facts⟩

theorem same_order_is_served :
    ∃ w w' cached, (memory id true).Reach w ∧
      (memory id true).replay w (lookup 0 (twoTopicSelection ["imu", "gps"])) = some w' ∧
      w'.hits = w.hits ++ [⟨twoTopicSelection ["imu", "gps"], cached⟩] := by
  obtain ⟨w, reach, stored, free, -⟩ := two_topics_stored
  obtain ⟨cached, there, stored⟩ := (Option.any_eq_true _ _).mp stored
  obtain ⟨p, place, facts⟩ := (Option.any_eq_true _ _).mp stored
  obtain ⟨selection, finalized⟩ := of_decide_eq_true facts
  rw [← selection] at there
  obtain ⟨⟨w', run, served⟩, -⟩ := reordered_selection_is_served_iff id (fun _ => true) w reach p cached there place rfl
    p.selection.sequenceNames p.selection.topicNames p.selection.groupName (.refl _) (.refl _) p.selection
    ⟨rfl, by rw [selection]; decide⟩ 0 (Option.isNone_iff_eq_none.mp free)
  rw [← selection]
  exact ⟨w, w', cached, reach, run, (served.mpr ⟨finalized, rfl⟩).1⟩

theorem reordered_topics_are_refetched :
    ∃ w w' cached p, (memory id true).Reach w ∧ w.cache.find p.selection.key = some cached ∧
      w.history[cached.generation - 1]? = some p ∧ p.fetch.teeOutcome = .finalized ∧
      p.selection = twoTopicSelection ["imu", "gps"] ∧
      (memory id true).replay w (lookup 0 (twoTopicSelection ["gps", "imu"])) = some w' ∧ w'.hits = [] ∧
      w'.cache.find (twoTopicSelection ["gps", "imu"]).key = none := by
  obtain ⟨w, reach, stored, -, refetched⟩ := two_topics_stored
  obtain ⟨cached, there, stored⟩ := (Option.any_eq_true _ _).mp stored
  obtain ⟨p, place, facts⟩ := (Option.any_eq_true _ _).mp stored
  obtain ⟨selection, finalized⟩ := of_decide_eq_true facts
  obtain ⟨w', run, gone⟩ := (Option.any_eq_true _ _).mp refetched
  rw [Bool.and_eq_true] at gone
  rw [← selection] at there
  exact ⟨w, w', cached, p, reach, there, place, finalized, selection, run, List.isEmpty_iff.mp gone.1,
    Option.isNone_iff_eq_none.mp gone.2⟩

end PjCloud.Pull
