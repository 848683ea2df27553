import Mathlib.Data.List.Induction
import Mathlib.Algebra.BigOperators.Group.List.Basic
import Mathlib.Algebra.Order.Ring.Int
import PjCloud.Lib.Numbered

/-!
# Retain buffer and counter ledger

The retain buffer of `server/internal/session/retain.go` and the cumulative ledger of
`SessionState` (`registry.go`). A `BatchEnvelope` carries the messages its marshaled payload decodes
to, since marshaling and compression are taken as lossless.

`Append` and `Next` block in the source. Here `full` is the wait condition of `Append`, so that
`append` is what happens once the wait is over, and `next?` is the scan that `Next` repeats.
-/

namespace PjCloud.Session
open PjCloud.Lib

/-- One retained batch (`BatchEnvelope`). -/
structure BatchEnvelope (μ : Type) where
  seq : Nat
  sourceFileID : Nat
  bytes : Nat
  messages : Nat
  payload : List μ
  deriving DecidableEq, Repr

/-- The caps of a buffer (`RetainOpts`). -/
structure RetainOpts where
  maxSeqs : Int
  maxBytes : Int
  deriving DecidableEq, Repr

/-- The bounded FIFO between producer and consumer (`RetainBuffer`). -/
structure RetainBuffer (μ : Type) where
  opts : RetainOpts
  queue : List (BatchEnvelope μ)
  totalBytes : Int
  closed : Bool
  deriving DecidableEq, Repr

namespace RetainBuffer
variable {μ : Type}

/-- A buffer with the given caps; a non-positive cap becomes the default (`NewRetainBuffer`). -/
def newRetainBuffer (opts : RetainOpts) : RetainBuffer μ where
  opts :=
    { maxSeqs := if opts.maxSeqs ≤ 0 then 256 else opts.maxSeqs
      maxBytes := if opts.maxBytes ≤ 0 then 64 * 2 ^ 20 else opts.maxBytes }
  queue := []
  totalBytes := 0
  closed := false

/-- The wait condition of `Append`: the buffer is open, nonempty, and one of its caps is hit. -/
def full (r : RetainBuffer μ) (b : BatchEnvelope μ) : Bool :=
  !r.closed && !r.queue.isEmpty &&
    (decide (r.opts.maxSeqs ≤ r.queue.length) || decide (r.opts.maxBytes < r.totalBytes + b.bytes))

/-- `Append` once it no longer waits: a closed buffer ignores the batch. -/
def append (r : RetainBuffer μ) (b : BatchEnvelope μ) : RetainBuffer μ :=
  if r.closed then r
  else { r with queue := r.queue ++ [b], totalBytes := r.totalBytes + b.bytes }

/-- The scan of `Next`: the first retained batch with a seq above `lastSeq`. -/
def next? (r : RetainBuffer μ) (lastSeq : Nat) : Option (BatchEnvelope μ) :=
  r.queue.find? (fun e => decide (lastSeq < e.seq))

/-- `Prune`: cut the batches with a seq of at most `throughSeq` from the front. -/
def prune (r : RetainBuffer μ) (throughSeq : Nat) : RetainBuffer μ :=
  let cut := r.queue.takeWhile (fun e => decide (e.seq ≤ throughSeq))
  { r with
    queue := r.queue.dropWhile (fun e => decide (e.seq ≤ throughSeq))
    totalBytes := r.totalBytes - (cut.map (fun e => (e.bytes : Int))).sum }

/-- `Close`: the batches stay readable, appends are ignored from now on. -/
def close (r : RetainBuffer μ) : RetainBuffer μ :=
  { r with closed := true }

@[simp] lemma newRetainBuffer_queue {opts} :
    (newRetainBuffer opts : RetainBuffer μ).queue = [] := rfl

@[simp] lemma newRetainBuffer_closed {opts} :
    (newRetainBuffer opts : RetainBuffer μ).closed = false := rfl

@[simp] lemma prune_queue {r : RetainBuffer μ} {t} :
    (r.prune t).queue = r.queue.dropWhile (fun e => decide (e.seq ≤ t)) := rfl

@[simp] lemma prune_closed {r : RetainBuffer μ} {t} : (r.prune t).closed = r.closed := rfl

@[simp] lemma prune_opts {r : RetainBuffer μ} {t} : (r.prune t).opts = r.opts := rfl

@[simp] lemma close_queue {r : RetainBuffer μ} : r.close.queue = r.queue := rfl

@[simp] lemma close_closed {r : RetainBuffer μ} : r.close.closed = true := rfl

@[simp] lemma append_closed {r : RetainBuffer μ} {b} : (r.append b).closed = r.closed := by
  unfold append
  split <;> rfl

@[simp] lemma append_opts {r : RetainBuffer μ} {b} : (r.append b).opts = r.opts := by
  unfold append
  split <;> rfl

/-- The byte total is that of the retained batches. -/
def Counted (r : RetainBuffer μ) : Prop :=
  r.totalBytes = (r.queue.map (fun e => (e.bytes : Int))).sum

lemma Counted.new {opts} : (newRetainBuffer opts : RetainBuffer μ).Counted := rfl

lemma Counted.append {r : RetainBuffer μ} {b} (h : r.Counted) : (r.append b).Counted := by
  unfold RetainBuffer.append
  split
  case isTrue => exact h
  case isFalse => simp [Counted, h.symm]

lemma Counted.prune {r : RetainBuffer μ} (t : Nat) (h : r.Counted) : (r.prune t).Counted := by
  have split := congrArg (fun q => (q.map (fun e : BatchEnvelope μ => (e.bytes : Int))).sum)
    (List.takeWhile_append_dropWhile (p := fun e : BatchEnvelope μ => decide (e.seq ≤ t))
      (l := r.queue))
  simp only [List.map_append, List.sum_append] at split
  simp only [Counted, RetainBuffer.prune]
  rw [h, ← split]
  omega

end RetainBuffer

/-! ## The ledger -/

/-- The cumulative counters through one seq (`seqCumulative`). -/
structure SeqCumulative where
  seq : Nat
  cumMsgs : Nat
  cumBytes : Nat
  deriving DecidableEq, Repr

/-- Extend the ledger by one batch (`RecordAppend`). -/
def recordAppend (ledger : List SeqCumulative) (seq messages bytes : Nat) : List SeqCumulative :=
  let cumMsgs := (ledger.getLast?.map (·.cumMsgs)).getD 0
  let cumBytes := (ledger.getLast?.map (·.cumBytes)).getD 0
  ledger ++ [{ seq := seq, cumMsgs := cumMsgs + messages, cumBytes := cumBytes + bytes }]

/-- The watermark a resume cursor is checked against (`HighestAppendedSeq`). -/
def highestAppendedSeq (ledger : List SeqCumulative) : Nat :=
  (ledger.getLast?.map (·.seq)).getD 0

/-- The loop of `CountersThrough`, from the counters found so far. -/
def countersFrom (throughSeq : Nat) (acc : Nat × Nat) : List SeqCumulative → Nat × Nat
  | [] => acc
  | e :: es => if e.seq > throughSeq then acc else countersFrom throughSeq (e.cumMsgs, e.cumBytes) es

/-- The counters through `throughSeq`, inclusive (`CountersThrough`). -/
def countersThrough (ledger : List SeqCumulative) (throughSeq : Nat) : Nat × Nat :=
  countersFrom throughSeq (0, 0) ledger

variable {μ : Type}

def totals (l : List (BatchEnvelope μ)) : Nat × Nat :=
  ((l.map (·.messages)).sum, (l.map (·.bytes)).sum)

def ledgerOf (l : List (BatchEnvelope μ)) : List SeqCumulative :=
  l.foldl (fun led e => recordAppend led e.seq e.messages e.bytes) []

@[simp] lemma ledgerOf_nil : ledgerOf ([] : List (BatchEnvelope μ)) = [] := rfl

@[simp] lemma ledgerOf_append {l : List (BatchEnvelope μ)} {e} :
    ledgerOf (l ++ [e]) = recordAppend (ledgerOf l) e.seq e.messages e.bytes := by
  simp [ledgerOf]

lemma ledgerOf_getLast? {l : List (BatchEnvelope μ)} :
    (((ledgerOf l).getLast?.map (·.cumMsgs)).getD 0,
      ((ledgerOf l).getLast?.map (·.cumBytes)).getD 0) = totals l := by
  induction l using List.reverseRecOn with
  | nil => rfl
  | append_singleton l e ih =>
    simp only [totals, Prod.mk.injEq] at ih
    simp [recordAppend, totals, ih.1, ih.2]

lemma countersFrom_append_gt {t acc x} {led : List SeqCumulative} (h : t < x.seq) :
    countersFrom t acc (led ++ [x]) = countersFrom t acc led := by
  induction led generalizing acc with
  | nil => simp [countersFrom, h]
  | cons y led ih =>
    simp only [List.cons_append, countersFrom]
    split
    case isTrue => rfl
    case isFalse => exact ih

lemma countersFrom_append_le {t acc x} {led : List SeqCumulative}
    (hled : ∀ y ∈ led, y.seq ≤ t) (h : x.seq ≤ t) :
    countersFrom t acc (led ++ [x]) = (x.cumMsgs, x.cumBytes) := by
  induction led generalizing acc with
  | nil => simp [countersFrom, Nat.not_lt.mpr h]
  | cons y led ih =>
    have hy := hled y (by simp)
    simp only [List.cons_append, countersFrom]
    rw [if_neg (by omega)]
    exact ih (fun z hz => hled z (by simp [hz]))

lemma ledgerOf_map_seq {l : List (BatchEnvelope μ)} :
    (ledgerOf l).map (·.seq) = l.map (·.seq) := by
  induction l using List.reverseRecOn with
  | nil => rfl
  | append_singleton l e ih => simp [recordAppend, ih]

/-- `CountersThrough` answers with the totals of the batches up to the seq asked for. -/
lemma countersThrough_ledgerOf {l : List (BatchEnvelope μ)} (num : Numbered (·.seq) 0 l) (t : Nat) :
    countersThrough (ledgerOf l) t = totals (l.take t) := by
  induction l using List.reverseRecOn with
  | nil => simp [countersThrough, countersFrom, totals]
  | append_singleton l e ih =>
    have numl : Numbered (·.seq) 0 l := num.of_prefix (List.prefix_append _ _)
    have he : e.seq = 0 + 1 + l.length := num l.length e (by simp)
    have ih := ih numl
    simp only [ledgerOf_append, recordAppend]
    rcases Nat.lt_or_ge t e.seq with lt | ge
    · rw [countersThrough, countersFrom_append_gt lt]
      rw [List.take_append_of_le_length (by omega)]
      exact ih
    · have hall : ∀ y ∈ ledgerOf l, y.seq ≤ t := by
        intro y hy
        have hm : y.seq ∈ l.map (·.seq) := by
          rw [← ledgerOf_map_seq]
          exact List.mem_map_of_mem hy
        obtain ⟨b, hb, eb⟩ := List.mem_map.mp hm
        have hle : b.seq ≤ 0 + l.length := (numl.le hb).2
        omega
      rw [countersThrough, countersFrom_append_le hall ge]
      rw [List.take_of_length_le (by simp; omega)]
      have hlast := ledgerOf_getLast? (l := l)
      simp only [totals, Prod.mk.injEq] at hlast
      simp [totals, hlast.1, hlast.2]

end PjCloud.Session
