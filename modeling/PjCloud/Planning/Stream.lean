import PjCloud.Planning.Producer

/-!
# What a run adds to the stream

`Adds p s s' ms n`: on the way from `s` to `s'` exactly the messages `ms` went into batches, in this order,
and `n` messages were dropped. It composes, a flush adds nothing, and `emit` adds its message unless the
message is oversized or has no binding. `runChunks_adds` is the main loop: where every chunk of the plan
`Streams` a list of messages, the run adds these lists one after the other, up to what `emit` leaves out.
-/

namespace PjCloud.Planning
open Lib Format

/-- Everything that has gone into a batch so far. -/
def RunState.log (s : RunState) : List Message := s.appended.flatMap Flushed.msgs ++ s.bb.msgs

section Adds
variable {p : Producer} {s s' s'' : RunState} {m : RawMessage} {fileID : Nat}

/-- `ms` went into batches and `n` messages were dropped. -/
structure Adds (p : Producer) (s s' : RunState) (ms : List RawMessage) (n : Nat) : Prop where
  log : s'.log.map some = s.log.map some ++ ms.map (frame p)
  emitted : s'.emitted = s.emitted ++ ms
  dropped : s'.dropped = s.dropped + n

lemma Adds.refl : Adds p s s [] 0 := by
  constructor <;> simp

lemma Adds.trans {ms ms' : List RawMessage} {n n' : Nat} (first : Adds p s s' ms n)
    (second : Adds p s' s'' ms' n') : Adds p s s'' (ms ++ ms') (n + n') := by
  constructor
  · rw [second.log, first.log, List.map_append, List.append_assoc]
  · rw [second.emitted, first.emitted, List.append_assoc]
  · rw [second.dropped, first.dropped, Nat.add_assoc]

lemma Adds.framed {ms : List RawMessage} {n : Nat} (adds : Adds p {} s ms n) (closed : s.bb.msgs = []) :
    (s.appended.flatMap Flushed.msgs).map some = s.emitted.map (frame p) := by
  have log := adds.log
  rw [RunState.log, closed, List.append_nil] at log
  rw [log, adds.emitted]
  rfl

lemma flush_adds : Adds p s (flush p fileID s) [] 0 := by
  unfold flush
  split
  · exact .refl
  · constructor <;> simp [RunState.log]

lemma flushIf_adds {c : Prop} [Decidable c] : Adds p s (if c then flush p fileID s else s) [] 0 := by
  split
  · exact flush_adds
  · exact .refl

lemma flush_msgs : (flush p fileID s).bb.msgs = [] := by
  unfold flush
  split <;> simp_all

lemma add_adds {msg : Message} (framed : frame p m = some msg) : Adds p s (add m msg s) [m] 0 := by
  constructor <;> simp [add, RunState.log, framed]

/-- `emit` puts the message into a batch. -/
def kept (p : Producer) (m : RawMessage) : Bool := !oversized p m && (frame p m).isSome

/-- `emit` adds its message, drops it or ignores it. -/
lemma emit_adds : Adds p s (emit p fileID s m) ([m].filter (kept p)) ([m].countP (oversized p)) := by
  unfold emit
  cases big : oversized p m with
  | true =>
    rw [if_pos rfl, List.filter_cons_of_neg (by simp [kept, big]), List.countP_cons_of_pos big]
    constructor <;> simp [RunState.log]
  | false =>
    rw [if_neg (by simp), List.countP_cons_of_neg (by simp [big])]
    cases framed : frame p m with
    | none =>
      rw [List.filter_cons_of_neg (by simp [kept, framed])]
      exact .refl
    | some msg =>
      rw [List.filter_cons_of_pos (by simp [kept, big, framed])]
      -- the flush before the message and the flush after it add nothing
      exact (flushIf_adds.trans (add_adds framed)).trans flushIf_adds

lemma foldl_emit_adds {ms : List RawMessage} : ∀ {s : RunState},
    Adds p s (ms.foldl (emit p fileID) s) (ms.filter (kept p)) (ms.countP (oversized p)) := by
  induction ms with
  | nil =>
    intro s
    exact .refl
  | cons m rest ih =>
    intro s
    have both : Adds p s ((m :: rest).foldl (emit p fileID) s)
        ([m].filter (kept p) ++ rest.filter (kept p))
        ([m].countP (oversized p) + rest.countP (oversized p)) := emit_adds.trans ih
    rwa [← List.filter_append, ← List.countP_append] at both

lemma fetched_adds {n : Nat} : Adds p s { s with fetchedBytes := s.fetchedBytes + n } [] 0 := by
  constructor <;> simp [RunState.log]

end Adds

section Streams
variable {σ : Type} {p : Producer} {ref : ChunkRef} {tr : Option TimeWindow} {ms : List RawMessage}

/-- Reading the chunk and iterating over it in the window yields these messages. -/
def Streams (p : Producer) (tr : Option TimeWindow) (ref : ChunkRef) (ms : List RawMessage) : Prop :=
  ∃ chunkBytes idx held, p.readChunk ref = .ok chunkBytes ∧
    idxByFile p.indexes ref.fileID = some idx ∧ Holds p.library chunkBytes held ∧
    ms = (held.filterMap (resolve idx.channels)).filter (ChunkRef.wants ref tr)

lemma feed_total {g : σ → RawMessage → σ} : ∀ {s : σ},
    feed (fun s m => (g s m, none)) ms s = (ms.foldl g s, .ok) := by
  induction ms with
  | nil =>
    intro s
    rfl
  | cons m rest ih =>
    intro s
    exact ih

lemma streamChunk_total (what : String) (fetched : Nat → σ → σ) (g : σ → RawMessage → σ) (s : σ)
    (streams : Streams p tr ref ms) :
    ∃ n, streamChunk p what tr fetched (fun s m => (g s m, none)) ref s =
      (ms.foldl g (fetched n s), .ok) := by
  obtain ⟨chunkBytes, idx, held, read, index, holds, rfl⟩ := streams
  refine ⟨chunkBytes.length, ?_⟩
  simp only [streamChunk, read, iterateFile, index, iterate_messages holds, feed_total]

lemma runChunks_bare (read : ∀ ref : ChunkRef, p.readChunk ref.bare = p.readChunk ref)
    {chunks : List ChunkRef} : ∀ {s : RunState},
    runChunks p (chunks.map ChunkRef.bare) s = runChunks p chunks s := by
  induction chunks with
  | nil =>
    intro s
    rfl
  | cons ref rest ih =>
    intro s
    rw [List.map_cons, runChunks, runChunks]
    simp only [streamChunk, read, ih]
    rfl

lemma runChunks_adds {steps : List (ChunkRef × List RawMessage)} : ∀ {s : RunState},
    (∀ step ∈ steps, Streams p p.opts.timeRange step.1 step.2) → s.bb.msgs = [] →
    ∃ s', runChunks p (steps.map Prod.fst) s = (s', .ok) ∧ s'.bb.msgs = [] ∧
      Adds p s s' ((steps.flatMap Prod.snd).filter (kept p)) ((steps.flatMap Prod.snd).countP (oversized p)) := by
  induction steps with
  | nil =>
    intro s _ closed
    exact ⟨s, rfl, closed, .refl⟩
  | cons step rest ih =>
    intro s streams closed
    obtain ⟨n, streamed⟩ := streamChunk_total "chunk"
      (fun n (s : RunState) => { s with fetchedBytes := s.fetchedBytes + n })
      (emit p step.1.fileID) s (streams step List.mem_cons_self)
    have chunk : Adds p s (flush p step.1.fileID (step.2.foldl (emit p step.1.fileID)
        { s with fetchedBytes := s.fetchedBytes + n })) ([] ++ (step.2.filter (kept p) ++ []))
        (0 + (step.2.countP (oversized p) + 0)) :=
      fetched_adds.trans (foldl_emit_adds.trans flush_adds)
    obtain ⟨s', done, closed', adds⟩ := ih (fun step h => streams step (List.mem_cons_of_mem _ h)) flush_msgs
    refine ⟨s', ?_, closed', ?_⟩
    · rw [List.map_cons, runChunks]
      simp only [streamed]
      exact done
    · rw [List.flatMap_cons, List.filter_append, List.countP_append]
      have whole := chunk.trans adds
      simpa using whole

end Streams

end PjCloud.Planning
