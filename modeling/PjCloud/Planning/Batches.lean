import Mathlib.Algebra.BigOperators.Group.List.Basic
import Mathlib.Algebra.Order.Ring.Int
import PjCloud.Planning.Sources

/-!
# The batches of a run

The producer closes a batch for four reasons: the next message does not fit, the batch is full, it is too
old, or its chunk (or, in the seed phase, its file) ends. `Batched` is what holds of the batches whatever
made them: consecutive seqs, the encoding of their messages, and the size. `RunState.packed` are the
messages packed so far with the file that their batch is for, and `run_packed` is that these are the
messages of the run in the order of emission, each under the file it was read from.
-/

namespace PjCloud.Planning
open Lib Format

section Batched
variable {p : Producer} {s : RunState} {f : Nat} {m : RawMessage} {msg : Message}

def batchSize (msgs : List Message) : Int := (msgs.map protoMsgSize).sum

/-- A list of messages that can be a batch: several messages together keep within the target. -/
def fitsBatch (p : Producer) (msgs : List Message) : Prop :=
  1 < msgs.length → batchSize msgs ≤ p.opts.maxBatchBytes

/-- A batch made of its messages. -/
structure Packed (p : Producer) (b : Flushed) : Prop where
  nonempty : b.msgs ≠ []
  batch : b.batch = encodeBatch p b.batch.seq b.batch.sourceFileID b.msgs
  payload : b.payload = p.codec.marshalBatch b.batch
  raw : ∀ m ∈ b.msgs, m.payloadEncoding = .raw
  fits : fitsBatch p b.msgs

/-- The batches of a run. -/
structure Batched (p : Producer) (s : RunState) : Prop where
  count : s.nextSeq = s.appended.length
  seqs : s.appended.map (fun b => b.batch.seq) = List.range' 1 s.appended.length
  packed : ∀ b ∈ s.appended, Packed p b
  total : s.bb.totalBytes = batchSize s.bb.msgs
  raw : ∀ m ∈ s.bb.msgs, m.payloadEncoding = .raw
  fits : fitsBatch p s.bb.msgs

lemma Batched.empty {n : Nat} : Batched p { fetchedBytes := n } := by
  refine ⟨rfl, rfl, ?_, rfl, ?_, ?_⟩
  · intro b mem
    cases mem
  · intro m mem
    cases mem
  · intro many
    cases many

lemma encodeBatch_seq {seq file : Nat} {msgs : List Message} :
    (encodeBatch p seq file msgs).seq = seq ∧ (encodeBatch p seq file msgs).sourceFileID = file := by
  unfold encodeBatch
  split <;> exact ⟨rfl, rfl⟩

lemma Batched.flush (batched : Batched p s) : Batched p (flush p f s) := by
  unfold Planning.flush
  split
  · exact batched
  · rename_i nonempty
    obtain ⟨seq, file⟩ := @encodeBatch_seq p (s.nextSeq + 1) f s.bb.msgs
    refine ⟨?_, ?_, ?_, rfl, ?_, ?_⟩
    · rw [List.length_append, batched.count]
      rfl
    · rw [List.map_append, batched.seqs, List.length_append, ← List.range'_append_1, List.map_singleton,
        seq, batched.count, Nat.add_comm 1]
      rfl
    · intro b mem
      obtain mem | mem := List.mem_append.mp mem
      · exact batched.packed b mem
      · obtain rfl := List.mem_singleton.mp mem
        refine ⟨nonempty, ?_, rfl, batched.raw, batched.fits⟩
        dsimp only
        rw [seq, file]
    · intro m mem
      cases mem
    · intro many
      cases many

lemma batchSize_append {msgs : List Message} : batchSize (msgs ++ [msg]) =
    batchSize msgs + protoMsgSize msg := by
  simp [batchSize]

lemma Batched.add (batched : Batched p s) (framed : frame p m = some msg)
    (room : s.bb.msgs ≠ [] → s.bb.totalBytes + protoMsgSize msg ≤ p.opts.maxBatchBytes) :
    Batched p (add m msg s) := by
  refine ⟨batched.count, batched.seqs, batched.packed, ?_, ?_, ?_⟩
  · rw [Planning.add, batched.total, batchSize_append]
  · intro x mem
    obtain mem | mem := List.mem_append.mp mem
    · exact batched.raw x mem
    · obtain rfl := List.mem_singleton.mp mem
      obtain ⟨b, -, rfl⟩ := Option.map_eq_some_iff.mp framed
      rfl
  · intro many
    have some : s.bb.msgs ≠ [] := by
      intro none
      simp [Planning.add, none] at many
    rw [Planning.add, batchSize_append, ← batched.total]
    exact room some

lemma Batched.emit (batched : Batched p s) : Batched p (emit p f s m) := by
  unfold Planning.emit
  split
  · exact ⟨batched.count, batched.seqs, batched.packed, batched.total, batched.raw, batched.fits⟩
  · split
    · exact batched
    · rename_i msg framed
      have closed : ∀ {s}, Batched p s → Batched p (if s.bb.totalBytes ≥ p.opts.maxBatchBytes ∨
          p.aged s.ticks = true then Planning.flush p f s else s) := by
        intro s batched
        split
        · exact batched.flush
        · exact batched
      apply closed
      split
      · apply batched.flush.add framed
        intro some
        exact absurd flush_msgs some
      · rename_i room
        apply batched.add framed
        intro some
        exact not_lt.mp fun large => room ⟨some, large⟩

end Batched

section Packs
variable {p : Producer} {s s' s'' : RunState} {f f' f'' : Nat} {src : Sourced} {srcs srcs' : List Sourced}

/-- What has gone into batches so far, each message with the file of its batch. The batch that is being
filled is for the file `f`. -/
def RunState.packed (s : RunState) (f : Nat) : List (Nat × Option Message) :=
  (s.appended.flatMap fun b => b.msgs.map fun m => (b.batch.sourceFileID, some m)) ++
    s.bb.msgs.map fun m => (f, some m)

def Sourced.framed (p : Producer) (src : Sourced) : Nat × Option Message := (src.fileID, frame p src.raw)

/-- On the way from `s` to `s'` exactly the messages `srcs` went into batches for their files. The batch that
is being filled is for `f` before and for `f'` after. -/
structure Packs (p : Producer) (f : Nat) (s : RunState) (f' : Nat) (s' : RunState) (srcs : List Sourced) :
    Prop where
  packed : s'.packed f' = s.packed f ++ srcs.map (Sourced.framed p)
  emitted : s'.emitted = s.emitted ++ srcs.map Sourced.raw
  batched : Batched p s → Batched p s'

lemma Packs.refl : Packs p f s f s [] :=
  ⟨(List.append_nil _).symm, (List.append_nil _).symm, id⟩

lemma Packs.trans (first : Packs p f s f' s' srcs) (second : Packs p f' s' f'' s'' srcs') :
    Packs p f s f'' s'' (srcs ++ srcs') := by
  refine ⟨?_, ?_, fun batched => second.batched (first.batched batched)⟩
  · rw [second.packed, first.packed, List.map_append, List.append_assoc]
  · rw [second.emitted, first.emitted, List.map_append, List.append_assoc]

lemma Packs.reopen (closed : s.bb.msgs = []) : Packs p f s f' s [] := by
  refine ⟨?_, (List.append_nil _).symm, id⟩
  simp [RunState.packed, closed]

lemma flush_packs : Packs p f s f' (flush p f s) [] := by
  refine ⟨?_, flush_adds.emitted, Batched.flush⟩
  unfold flush
  split
  · rename_i closed
    simp [RunState.packed, closed]
  · simp [RunState.packed, encodeBatch_seq]

lemma flushIf_packs {c : Prop} [Decidable c] : Packs p f s f (if c then flush p f s else s) [] := by
  split
  · exact flush_packs
  · exact .refl

lemma fetched_packs {n : Nat} : Packs p f s f { s with fetchedBytes := s.fetchedBytes + n } [] := by
  refine ⟨(List.append_nil _).symm, (List.append_nil _).symm, ?_⟩
  intro batched
  exact ⟨batched.count, batched.seqs, batched.packed, batched.total, batched.raw, batched.fits⟩

/-- `emit` packs its message for the file of the message, drops it or ignores it. -/
lemma emit_packs (own : src.fileID = f) :
    Packs p f s f (emit p f s src.raw) ([src].filter fun src => kept p src.raw) := by
  refine ⟨?_, ?_, Batched.emit⟩
  · unfold emit
    cases big : oversized p src.raw with
    | true =>
      rw [if_pos rfl, List.filter_cons_of_neg (by simp [kept, big])]
      exact (List.append_nil _).symm
    | false =>
      rw [if_neg (by simp)]
      cases framed : frame p src.raw with
      | none =>
        rw [List.filter_cons_of_neg (by simp [kept, framed])]
        exact (List.append_nil _).symm
      | some msg =>
        rw [List.filter_cons_of_pos (by simp [kept, big, framed])]
        dsimp only
        have added : ∀ {s : RunState}, (add src.raw msg s).packed f =
            s.packed f ++ [src].map (Sourced.framed p) := by
          intro s
          simp [RunState.packed, add, Sourced.framed, framed, own]
        -- neither flush changes what is packed
        rw [flushIf_packs.packed, List.map_nil, List.append_nil, added, flushIf_packs.packed, List.map_nil,
          List.append_nil]
        rfl
  · rw [emit_adds.emitted, map_raw_kept]
    rfl

lemma foldl_emit_packs : ∀ {s : RunState}, (∀ src ∈ srcs, src.fileID = f) →
    Packs p f s f ((srcs.map Sourced.raw).foldl (emit p f) s) (srcs.filter fun src => kept p src.raw) := by
  induction srcs with
  | nil =>
    intro s _
    exact .refl
  | cons src rest ih =>
    intro s own
    have both := (emit_packs (p := p) (s := s) (own src List.mem_cons_self)).trans
      (ih fun src mem => own src (List.mem_cons_of_mem _ mem))
    rwa [← List.filter_append] at both

lemma runChunks_packs {chunks : List ChunkRef} : ∀ {s : RunState} {f : Nat}, s.bb.msgs = [] →
    ∃ f', Packs p f s f' (runChunks p chunks s).1
        ((sources p p.opts.timeRange chunks).1.filter fun src => kept p src.raw) ∧
      ((runChunks p chunks s).2 = .ok → (runChunks p chunks s).1.bb.msgs = []) := by
  induction chunks with
  | nil =>
    intro s f closed
    exact ⟨f, .refl, fun _ => closed⟩
  | cons ref rest ih =>
    intro s f closed
    simp only [runChunks, sources]
    obtain ⟨s₀, start, state, ends⟩ := streamChunk_sources p p.opts.timeRange ref "chunk"
      (fun n (s : RunState) => { s with fetchedBytes := s.fetchedBytes + n }) (emit p ref.fileID) s
    have begun : Packs p f s ref.fileID s₀ [] := by
      obtain rfl | ⟨n, rfl⟩ := start
      · exact .reopen closed
      · exact (Packs.reopen closed).trans fetched_packs
    revert state ends
    generalize streamChunk p "chunk" _ _ _ ref s = x
    obtain ⟨s', outcome⟩ := x
    intro state ends
    subst state
    have chunk := begun.trans (foldl_emit_packs (p := p) (s := s₀)
      fun src (mem : src ∈ (chunkSources p p.opts.timeRange ref).1) => fileID_of_mem mem)
    by_cases done : outcome = .ok
    · subst done
      rw [if_pos (ends.mp rfl), List.filter_append]
      obtain ⟨f', packs, idle⟩ := ih (s := flush p ref.fileID _) (f := ref.fileID) flush_msgs
      have all := (chunk.trans flush_packs).trans packs
      rw [List.nil_append, List.append_nil] at all
      exact ⟨f', all, idle⟩
    · rw [if_neg (fun read => done (ends.mpr read))]
      cases outcome with
      | ok => exact absurd rfl done
      | error e => exact ⟨ref.fileID, chunk, by intro h; cases h⟩
      | panicked => exact ⟨ref.fileID, chunk, by intro h; cases h⟩

lemma emitSeeds_packs {seeds : List Sourced} : ∀ {s : RunState} {f : Nat},
    Packs p f s f' (emitSeeds p (seeds.map Sourced.seed) (some f) s)
      (seeds.filter fun src => kept p src.raw) := by
  induction seeds with
  | nil =>
    intro s f
    exact flush_packs
  | cons src rest ih =>
    intro s f
    -- the batch of the file before is closed, or the file is the same
    have begun : Packs p f s src.fileID (if src.fileID ≠ f then flush p f s else s) [] := by
      split
      · exact flush_packs
      · rename_i same
        rw [not_not.mp same]
        exact .refl
    have seed := @emit_packs p (if src.fileID ≠ f then flush p f s else s) src.fileID src rfl
    have both := (begun.trans seed).trans ih
    rwa [List.nil_append, ← List.filter_append] at both

lemma emitSeeds_none_packs {seeds : List Sourced} (closed : s.bb.msgs = []) :
    Packs p f s f' (emitSeeds p (seeds.map Sourced.seed) none s)
      (seeds.filter fun src => kept p src.raw) := by
  cases seeds with
  | nil => exact .reopen closed
  | cons src rest =>
    have begun : Packs p f s src.fileID s [] := .reopen closed
    have seed := @emit_packs p s src.fileID src rfl
    have both := (begun.trans seed).trans (@emitSeeds_packs p f' rest _ src.fileID)
    rwa [List.nil_append, ← List.filter_append] at both

/-- A run packs each of its messages for the file that it was read from, in the order of emission. After a
run that ends well no batch is left open. -/
lemma run_packs {R : Runtime} : ∃ f srcs, srcs.Perm (streamed p R) ∧ Packs p 0 {} f (run p R).1 srcs ∧
    ((run p R).2 = .ok → (run p R).1.bb.msgs = []) := by
  unfold run streamed
  split
  · obtain ⟨f, packs, idle⟩ := @runChunks_packs p p.plan.chunks {} 0 rfl
    exact ⟨f, _, List.Perm.refl _, packs, idle⟩
  · have begun : ∀ {n : Nat}, Packs p 0 {} 0 { fetchedBytes := n } [] := by
      intro n
      have counted := fetched_packs (p := p) (f := 0) (s := {}) (n := n)
      rwa [show ({} : RunState).fetchedBytes + n = n from Nat.zero_add n] at counted
    by_cases read : (sources p (seedWindow p) p.plan.seedChunks).2 = true
    · obtain ⟨n, seeds, phase, perm⟩ := seedPhase_seeds (R := R) read
      rw [if_pos read, phase]
      dsimp only
      have seeded : Packs p 0 {} 0 (emitSeeds p (seeds.map Sourced.seed) none { fetchedBytes := n })
          (seeds.filter fun src => kept p src.raw) :=
        begun.trans (emitSeeds_none_packs rfl)
      have closed : (emitSeeds p (seeds.map Sourced.seed) none { fetchedBytes := n }).bb.msgs = [] :=
        emitSeeds_msgs rfl
      obtain ⟨f, packs, idle⟩ := @runChunks_packs p p.plan.chunks _ 0 closed
      refine ⟨f, _, ?_, seeded.trans packs, idle⟩
      rw [List.filter_append]
      exact (perm.filter _).append_right _
    · -- a seed chunk that cannot be read ends the run before anything is emitted
      obtain ⟨n, outcome, failed, phase⟩ := seedPhase_failed (R := R) read
      rw [if_neg read, phase]
      cases outcome with
      | ok => exact absurd rfl failed
      | error e => exact ⟨0, [], List.Perm.refl _, begun, fun _ => rfl⟩
      | panicked => exact ⟨0, [], List.Perm.refl _, begun, fun _ => rfl⟩

end Packs

end PjCloud.Planning
