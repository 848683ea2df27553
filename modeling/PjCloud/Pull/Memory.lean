import PjCloud.Pull.Keys
import PjCloud.Pull.Run

/-!
# The sessions in memory

`SessionCache` of `session_cache.hpp`: what is known of the sessions that were completed, the one that was used last in
front. The rows themselves are in the datasets of the host. The index from a hash to its entries is left out, and an
entry is found by its hash and its key.
-/

namespace PjCloud.Pull

inductive MemoryHitCase where
  | none
  | servedValidDisk
  | refetchedDiskMiss
  deriving DecidableEq, Repr

inductive PromotionState where
  | none
  | pending
  | promoted
  | eagerOnly
  deriving DecidableEq, Repr

structure CachedSession where
  displayName : String
  serverUri : String
  countsByTopic : List (String × Nat)
  totalMessages : Nat
  datasetId : Nat
  cacheIdentity : String
  teeOutcome : TeeOutcome
  lastHitCase : MemoryHitCase
  promotionState : PromotionState := .none
  generation : Nat := 0
  deriving DecidableEq, Repr

abbrev Entry := SessionKey × CachedSession

structure SessionCache where
  maxEntries : Nat := 8
  nextGeneration : Nat := 0
  entries : List Entry := []

inductive PromotionBegin where
  | noEntry
  | alreadyPending
  | datasetMismatch
  | begun (generation : Nat)
  deriving DecidableEq, Repr

namespace SessionCache

def finds (key : SessionKey) (e : Entry) : Bool := decide (e.1.hash = key.hash) && e.1.same key

/-- `findLocked` -/
def find (c : SessionCache) (key : SessionKey) : Option CachedSession := (c.entries.find? (finds key)).map Prod.snd

/-- `promoteLocked` -/
def promote (c : SessionCache) (key : SessionKey) : SessionCache :=
  match c.entries.find? (finds key) with
  | none => c
  | some e => { c with entries := e :: c.entries.eraseP (finds key) }

def evict (c : SessionCache) (key : SessionKey) : SessionCache := { c with entries := c.entries.eraseP (finds key) }

def store (c : SessionCache) (key : SessionKey) (value : CachedSession) : SessionCache :=
  let generation := c.nextGeneration + 1
  match c.entries.find? (finds key) with
  | some e =>
    { c with
      nextGeneration := generation
      entries := (e.1, { value with generation }) :: c.entries.eraseP (finds key) }
  | none =>
    let entries := (key, { value with generation }) :: c.entries
    { c with
      nextGeneration := generation
      entries := if c.maxEntries < entries.length then entries.dropLast else entries }

def updateEntries (key : SessionKey) (f : CachedSession → CachedSession) : List Entry → List Entry
  | [] => []
  | e :: rest => if finds key e then (e.1, f e.2) :: rest else e :: updateEntries key f rest

def update (c : SessionCache) (key : SessionKey) (f : CachedSession → CachedSession) : SessionCache :=
  { c with entries := updateEntries key f c.entries }

def recordHitCase (c : SessionCache) (key : SessionKey) (hitCase : MemoryHitCase) : SessionCache :=
  c.update key ({ · with lastHitCase := hitCase })

def beginPromotion (c : SessionCache) (key : SessionKey) (datasetId : Nat) : PromotionBegin × SessionCache :=
  match c.find key with
  | none => (.noEntry, c)
  | some value =>
    if value.datasetId ≠ datasetId then (.datasetMismatch, c)
    else if value.promotionState = .pending then (.alreadyPending, c)
    else (.begun value.generation, c.update key ({ · with promotionState := .pending }))

def settlePromotion (c : SessionCache) (key : SessionKey) (datasetId generation : Nat) (state : PromotionState) :
    SessionCache :=
  match c.find key with
  | none => c
  | some value =>
    if value.datasetId ≠ datasetId ∨ value.generation ≠ generation ∨ value.promotionState ≠ .pending then c
    else c.update key ({ · with promotionState := state })

/-- The end of `lookup`. The `candidate` was copied before `present` was asked for, without the lock. -/
def verdict (c : SessionCache) (key : SessionKey) (candidate : CachedSession) (present : Bool) :
    Option CachedSession × SessionCache :=
  match c.find key with
  | none => (none, c)
  | some value =>
    if present then (some value, c.promote key)
    else if value.datasetId = candidate.datasetId ∧ value.displayName = candidate.displayName then (none, c.evict key)
    else (none, c)

/-! ## Entries -/

variable {c : SessionCache} {key : SessionKey} {value : CachedSession} {e : Entry}

lemma same_of_finds (found : finds key e = true) : e.1.same key = true := (Bool.and_eq_true_iff.mp found).2

lemma mem_of_find (found : c.find key = some value) : ∃ own, (own, value) ∈ c.entries ∧ own.same key = true := by
  obtain ⟨e, there, rfl⟩ := Option.map_eq_some_iff.mp found
  exact ⟨e.1, List.mem_of_find?_eq_some there, same_of_finds (List.find?_some there)⟩

lemma mem_evict (mem : e ∈ (c.evict key).entries) : e ∈ c.entries := List.mem_of_mem_eraseP mem

lemma mem_promote (mem : e ∈ (c.promote key).entries) : e ∈ c.entries := by
  unfold promote at mem
  split at mem
  · exact mem
  · rename_i there
    rcases List.mem_cons.mp mem with rfl | mem
    · exact List.mem_of_find?_eq_some there
    · exact List.mem_of_mem_eraseP mem

lemma mem_store (mem : e ∈ (c.store key value).entries) :
    e.2 = { value with generation := c.nextGeneration + 1 } ∧ e.1.same key = true ∨ e ∈ c.entries := by
  unfold store at mem
  dsimp only at mem
  split at mem
  · rename_i there
    have own := same_of_finds (List.find?_some there)
    rcases List.mem_cons.mp mem with rfl | mem
    · exact .inl ⟨rfl, own⟩
    · exact .inr (List.mem_of_mem_eraseP mem)
  · have kept : e ∈ (key, { value with generation := c.nextGeneration + 1 }) :: c.entries := by
      dsimp only at mem
      split at mem
      · exact List.dropLast_subset _ mem
      · exact mem
    rcases List.mem_cons.mp kept with rfl | old
    · exact .inl ⟨rfl, SessionKey.same_refl key⟩
    · exact .inr old

lemma mem_updateEntries {f : CachedSession → CachedSession} {entries : List Entry}
    (mem : e ∈ updateEntries key f entries) : ∃ old, (e.1, old) ∈ entries ∧ (e.2 = old ∨ e.2 = f old) := by
  induction entries with
  | nil => cases mem
  | cons head rest ih =>
    unfold updateEntries at mem
    split at mem
    · rcases List.mem_cons.mp mem with rfl | mem
      · exact ⟨head.2, List.mem_cons_self, .inr rfl⟩
      · exact ⟨e.2, List.mem_cons_of_mem _ mem, .inl rfl⟩
    · rcases List.mem_cons.mp mem with rfl | mem
      · exact ⟨e.2, List.mem_cons_self, .inl rfl⟩
      · obtain ⟨old, there, same⟩ := ih mem
        exact ⟨old, List.mem_cons_of_mem _ there, same⟩

lemma generation_store : (c.store key value).nextGeneration = c.nextGeneration + 1 := by
  unfold store
  dsimp only
  split <;> rfl

lemma generation_promote : (c.promote key).nextGeneration = c.nextGeneration := by
  unfold promote
  split <;> rfl

lemma find_promote (found : c.find key = some value) : (c.promote key).find key = some value := by
  obtain ⟨e, there, rfl⟩ := Option.map_eq_some_iff.mp found
  unfold promote find
  rw [there]
  dsimp only
  rw [List.find?_cons_of_pos (List.find?_some there)]
  rfl

lemma find?_updateEntries {f : CachedSession → CachedSession} {entries : List Entry}
    (there : entries.find? (finds key) = some e) :
    (updateEntries key f entries).find? (finds key) = some (e.1, f e.2) := by
  induction entries with
  | nil => cases there
  | cons head rest ih =>
    unfold updateEntries
    split
    · rename_i own
      rw [List.find?_cons_of_pos own] at there
      cases there
      rw [List.find?_cons_of_pos (by exact own)]
    · rename_i other
      rw [List.find?_cons_of_neg other] at there ⊢
      exact ih there

lemma find_update {f : CachedSession → CachedSession} (found : c.find key = some value) :
    (c.update key f).find key = some (f value) := by
  obtain ⟨e, there, rfl⟩ := Option.map_eq_some_iff.mp found
  unfold update find
  rw [find?_updateEntries there]
  rfl

end SessionCache

/-! ## What stays -/

def CachedSession.core (value : CachedSession) : CachedSession :=
  { value with lastHitCase := .none, promotionState := .none, generation := 0 }

namespace SessionCache

/-- Nothing was stored: what is there was there, but for how it was used. -/
structure Keeps (c c' : SessionCache) : Prop where
  generation : c'.nextGeneration = c.nextGeneration
  entries : ∀ e ∈ c'.entries, ∃ old, (e.1, old) ∈ c.entries ∧ e.2.core = old.core ∧ e.2.generation = old.generation

variable {c : SessionCache}

lemma keeps_refl (c : SessionCache) : c.Keeps c := ⟨rfl, fun e mem => ⟨e.2, mem, rfl, rfl⟩⟩

lemma keeps_evict (key : SessionKey) : c.Keeps (c.evict key) :=
  ⟨rfl, fun e mem => ⟨e.2, mem_evict mem, rfl, rfl⟩⟩

lemma keeps_promote (key : SessionKey) : c.Keeps (c.promote key) :=
  ⟨generation_promote, fun e mem => ⟨e.2, mem_promote mem, rfl, rfl⟩⟩

lemma keeps_update (key : SessionKey) {f : CachedSession → CachedSession}
    (used : ∀ v, (f v).core = v.core ∧ (f v).generation = v.generation) : c.Keeps (c.update key f) := by
  refine ⟨rfl, fun e mem => ?_⟩
  obtain ⟨old, there, same | same⟩ := mem_updateEntries mem
  · exact ⟨old, there, congrArg _ same, congrArg _ same⟩
  · exact ⟨old, there, same ▸ (used old).1, same ▸ (used old).2⟩

lemma keeps_verdict (key : SessionKey) (candidate : CachedSession) (present : Bool) :
    c.Keeps (c.verdict key candidate present).2 := by
  unfold verdict
  split
  · exact keeps_refl c
  · split
    · exact keeps_promote key
    · split
      · exact keeps_evict key
      · exact keeps_refl c

lemma keeps_beginPromotion (key : SessionKey) (datasetId : Nat) : c.Keeps (c.beginPromotion key datasetId).2 := by
  unfold beginPromotion
  split
  · exact keeps_refl c
  · split
    · exact keeps_refl c
    · split
      · exact keeps_refl c
      · exact keeps_update key fun _ => ⟨rfl, rfl⟩

lemma keeps_settlePromotion (key : SessionKey) (datasetId generation : Nat) (state : PromotionState) :
    c.Keeps (c.settlePromotion key datasetId generation state) := by
  unfold settlePromotion
  split
  · exact keeps_refl c
  · split
    · exact keeps_refl c
    · exact keeps_update key fun _ => ⟨rfl, rfl⟩

/-- What `lookup` returns is the entry as it is then. -/
lemma of_verdict {key : SessionKey} {candidate value : CachedSession} {present : Bool}
    (found : (c.verdict key candidate present).1 = some value) : c.find key = some value := by
  unfold verdict at found
  split at found
  · cases found
  · rename_i there
    split at found
    · exact there.trans found
    · split at found <;> cases found

end SessionCache
end PjCloud.Pull
