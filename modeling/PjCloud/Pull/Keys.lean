import Mathlib.Data.List.Sort
import Mathlib.Data.String.Basic
import PjCloud.Descriptor.Codec

/-!
# The two names of a session

`session_key.hpp` of the plugin. A completed session is found in memory by its `SessionKey`, which sorts the names and
drops those that repeat, and on the disk by the identity of its descriptor, which takes the names in the order given.
-/

namespace PjCloud.Pull
open Lib Json Descriptor

/-- `std::unique` and `erase` -/
def unique : List String → List String
  | [] => []
  | [a] => [a]
  | a :: b :: rest => if a = b then unique (b :: rest) else a :: unique (b :: rest)

def normalize (names : List String) : List String := unique (names.insertionSort (· ≤ ·))

def kFnvOffset : UInt64 := 1469598103934665603

def kFnvPrime : UInt64 := 1099511628211

def fnvBytes (h : UInt64) (bytes : List UInt8) : UInt64 :=
  bytes.foldl (fun h b => (h ^^^ b.toUInt64) * kFnvPrime) h

def fnvU64 (h v : UInt64) : UInt64 :=
  fnvBytes h ((List.range 8).map fun i => (v >>> (8 * i).toUInt64).toUInt8)

def fnvI64 (h : UInt64) (v : Int) : UInt64 := fnvU64 h (UInt64.ofInt v)

def fnvStr (h : UInt64) (s : String) : UInt64 :=
  fnvBytes (fnvU64 h s.utf8ByteSize.toUInt64) s.toUTF8.data.toList

structure SessionKey where
  serverUri : String
  sequenceNames : List String
  topics : List String
  startNs : Int
  endNs : Int
  includeLatched : Bool
  selectionId : String := ""
  hash : UInt64
  deriving DecidableEq

/-- `operator==`: the hash is not compared. -/
def SessionKey.same (a b : SessionKey) : Bool :=
  decide (a.serverUri = b.serverUri) && decide (a.sequenceNames = b.sequenceNames) && decide (a.topics = b.topics) &&
    decide (a.startNs = b.startNs) && decide (a.endNs = b.endNs) && decide (a.includeLatched = b.includeLatched) &&
    decide (a.selectionId = b.selectionId)

def computeSessionKey (serverUri : String) (sequenceNames topics : List String) (startNs endNs : Int)
    (includeLatched : Bool) : SessionKey :=
  let sequenceNames := normalize sequenceNames
  let topics := normalize topics
  let h := fnvStr kFnvOffset serverUri
  let h := sequenceNames.foldl fnvStr (fnvU64 h sequenceNames.length.toUInt64)
  let h := topics.foldl fnvStr (fnvU64 h topics.length.toUInt64)
  let h := fnvU64 (fnvI64 (fnvI64 h startNs) endNs) (if includeLatched then 1 else 0)
  { serverUri, sequenceNames, topics, startNs, endNs, includeLatched, hash := h }

def computeSelectionSessionKey (serverUri selectionId : String) : SessionKey :=
  let key := computeSessionKey serverUri [] [] 0 0 false
  { key with selectionId, hash := fnvStr key.hash selectionId }

/-- What a pull asks for. The server knows the names behind a `selectionId` that is not empty. -/
structure Selection where
  serverUri : String
  sequenceNames : List String
  topicNames : List String
  startNs : Int
  endNs : Int
  includeLatched : Bool
  selectionId : String := ""
  groupName : String
  deriving DecidableEq, Repr

namespace Selection

def descriptor (q : Selection) : SourceDescriptor where
  kind := if q.selectionId = "" then kSessionKind else kSelectionKind
  serverUri := q.serverUri
  s3Keys := q.sequenceNames
  topics := q.topicNames
  startNs := q.startNs
  endNs := q.endNs
  includeLatched := q.includeLatched
  selectionId := q.selectionId
  displayName := q.groupName

def key (q : Selection) : SessionKey :=
  if q.selectionId = "" then
    computeSessionKey q.serverUri q.sequenceNames q.topicNames q.startNs q.endNs q.includeLatched
  else computeSelectionSessionKey q.serverUri q.selectionId

/-- `tee_identity` -/
def identity (sha256Hex : String → String) (q : Selection) : String := descriptorIdentity sha256Hex q.descriptor

/-- What `pullTopicsAsync` looks up: it names files and topics, and it asks for what is latched. -/
def Interactive (q : Selection) : Prop :=
  q.sequenceNames ≠ [] ∧ q.topicNames ≠ [] ∧ q.includeLatched = true ∧ q.selectionId = ""

instance (q : Selection) : Decidable q.Interactive := inferInstanceAs (Decidable (_ ∧ _ ∧ _ ∧ _))

end Selection

/-! ## Keys -/

lemma mem_unique {a : String} {names : List String} : a ∈ unique names ↔ a ∈ names := by
  induction names using unique.induct with
  | case1 => rfl
  | case2 b => rfl
  | case3 b rest ih =>
    rw [unique, if_pos rfl, ih]
    simp only [List.mem_cons, or_self_left]
  | case4 b c rest other ih => rw [unique, if_neg other, List.mem_cons, ih, ← List.mem_cons]

lemma mem_normalize {a : String} {names : List String} : a ∈ normalize names ↔ a ∈ names :=
  mem_unique.trans (List.mem_insertionSort _)

lemma normalize_of_perm {names names' : List String} (perm : names'.Perm names) : normalize names' = normalize names := by
  have sorted : (names'.insertionSort (· ≤ ·)).Perm (names.insertionSort (· ≤ ·)) :=
    (List.perm_insertionSort _ names').trans (perm.trans (List.perm_insertionSort _ names).symm)
  exact congrArg unique (sorted.eq_of_sortedLE List.sortedLE_insertionSort List.sortedLE_insertionSort)

namespace SessionKey
variable {a b c : SessionKey}

lemma same_iff : a.same b = true ↔ { a with hash := 0 } = { b with hash := 0 } := by
  unfold same
  rw [SessionKey.mk.injEq]
  simp only [Bool.and_eq_true, decide_eq_true_eq, and_true]
  tauto

lemma same_refl (a : SessionKey) : a.same a = true := same_iff.mpr rfl

lemma same_symm (same : a.same b = true) : b.same a = true := same_iff.mpr (same_iff.mp same).symm

lemma same_trans (first : a.same b = true) (second : b.same c = true) : a.same c = true :=
  same_iff.mpr ((same_iff.mp first).trans (same_iff.mp second))

end SessionKey

namespace Selection
variable {p q : Selection}

lemma key_of_perm {names topics : List String} (perm : names.Perm p.sequenceNames) (permTopics : topics.Perm p.topicNames)
    (groupName : String) :
    ({ p with sequenceNames := names, topicNames := topics, groupName } : Selection).key = p.key := by
  unfold key computeSessionKey
  rw [normalize_of_perm perm, normalize_of_perm permTopics]

lemma mem_topics_of_same (own : q.selectionId = "") (same : p.key.same q.key = true) {t : String} :
    t ∈ p.topicNames ↔ t ∈ q.topicNames := by
  have fields := SessionKey.same_iff.mp same
  unfold key at fields
  rw [if_pos own] at fields
  split at fields
  · have topics : normalize p.topicNames = normalize q.topicNames := congrArg SessionKey.topics fields
    calc t ∈ p.topicNames ↔ t ∈ normalize p.topicNames := mem_normalize.symm
      _ ↔ t ∈ normalize q.topicNames := by rw [topics]
      _ ↔ t ∈ q.topicNames := mem_normalize
  · rename_i selection
    have id := congrArg SessionKey.selectionId fields
    exact absurd id selection

lemma canonical_iff (own : p.selectionId = "") {names topics : List String} {groupName : String} :
    canonicalSourceDescriptorJson
        ({ p with sequenceNames := names, topicNames := topics, groupName } : Selection).descriptor =
      canonicalSourceDescriptorJson p.descriptor ↔ names = p.sequenceNames ∧ topics = p.topicNames := by
  constructor
  · intro same
    have session : kSessionKind ≠ kSelectionKind := by decide
    have fields := dump_injective same
    simp only [canonicalOut, descriptor, own, if_true, session, if_false, sessionOut, List.cons.injEq, Prod.mk.injEq,
      Out.strings.injEq, true_and, and_true] at fields
    exact fields
  · rintro ⟨rfl, rfl⟩
    rfl

end Selection
end PjCloud.Pull
