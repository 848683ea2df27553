import Mathlib.Algebra.BigOperators.Group.Finset.Piecewise
import Mathlib.Algebra.Order.BigOperators.Group.List
import Mathlib.Algebra.Order.BigOperators.Group.Finset
import PjCloud.Format.Chunks
import PjCloud.Lib.Lists

/-!
# Estimated counts

What `fillEstimatedCounts` hands out and what `PlanChunks` adds up of it. Everything is read off one table, topics against
chunks: a plan sums the rows of the wanted topics over the chunks that its window reaches.
-/

namespace PjCloud.Format
open Lib

/-- The topic of a channel id that has been counted. -/
def Info.topicOf (info : Info) (id : Nat) : Option String := (info.channels.lookup id).map Channel.topic

/-- The counts of the summary whose channels are known. -/
def Info.counted (info : Info) : List (Nat × Nat) :=
  (info.channelMessageCounts.getD []).filter fun c => (info.topicOf c.1).isSome

/-- How many messages of a topic the file has. -/
def Info.total (info : Info) (topic : String) : Nat :=
  ((info.counted.filter fun c => info.topicOf c.1 = some topic).map Prod.snd).sum

/-- The chunks with their counts. -/
def FileChunkIndex.table (idx : FileChunkIndex) : List (ChunkRef × ChunkCounts) := idx.chunks.zip idx.chunkCounts

/-- The row of a topic: its shares in the chunks that carry it. -/
def row (topic : String) (table : List (ChunkRef × ChunkCounts)) : List Nat :=
  (table.filter fun x => topic ∈ x.1.channelTopics).map fun x => x.2.perTopic topic

/-- The topics that a request names of those that some chunk carries. -/
def FileChunkIndex.wanted (idx : FileChunkIndex) (topics : List String) : Finset String :=
  ((idx.chunks.map ChunkRef.channelTopics).foldr (· ∪ ·) ∅).filter fun topic => topics = [] ∨ topic ∈ topics

def FileChunkIndex.estimate (idx : FileChunkIndex) (topics : List String) (tr : Option TimeWindow) : Nat :=
  ((planChunks idx topics tr).map ChunkRef.messageCount).sum

/-- The second window is as wide as the first at least. -/
def TimeWindow.Grows : Option TimeWindow → Option TimeWindow → Prop
  | _, none => True
  | none, some _ => False
  | some w, some w' => w'.startNs ≤ w.startNs ∧ w.endNs ≤ w'.endNs

/-! ## The shares -/

section Shares
variable {total carriers : String → Nat} {topic : String}

/-- The chunks get the quotient each, and the first ones one more until the remainder is used up. -/
lemma row_shareOut (carried : carriers topic ≠ 0) (chunks : List ChunkRef) : ∀ {remainder},
    row topic (shareOut total carriers remainder chunks) =
      List.replicate (min (remainder topic) (topicChunks chunks topic)) (total topic / carriers topic + 1) ++
        List.replicate (topicChunks chunks topic - remainder topic) (total topic / carriers topic) := by
  induction chunks with
  | nil =>
    intro remainder
    simp [row, shareOut, topicChunks]
  | cons ref rest ih =>
    intro remainder
    simp only [row, topicChunks] at ih
    by_cases has : topic ∈ ref.channelTopics
    · by_cases left : remainder topic = 0
      · simp [row, shareOut, topicChunks, ih, has, carried, left, List.replicate_succ]
      · obtain ⟨r, eq⟩ := Nat.exists_eq_succ_of_ne_zero left
        simp [row, shareOut, topicChunks, ih, has, carried, eq, List.replicate_succ, Nat.add_min_add_right]
    · simp [row, shareOut, topicChunks, ih, has]

lemma shareOut_perTopic {chunks : List ChunkRef} : ∀ {remainder}, ∀ x ∈ shareOut total carriers remainder chunks,
    x.2.exact = true ∧ (topic ∉ x.1.channelTopics → x.2.perTopic topic = 0) := by
  induction chunks with
  | nil => simp [shareOut]
  | cons ref rest ih =>
    intro remainder x mem
    rcases List.mem_cons.mp mem with rfl | mem
    · exact ⟨rfl, by simp +contextual⟩
    · exact ih x mem

end Shares

/-! ## The table of an index -/

/-- What a plan relies on. -/
structure Rows (info : Info) (idx : FileChunkIndex) (table : List (ChunkRef × ChunkCounts)) : Prop where
  chunks : idx.chunks = table.map Prod.fst
  counts : idx.chunkCounts = table.map Prod.snd
  absent : ∀ x ∈ table, ∀ topic ∉ x.1.channelTopics, x.2.perTopic topic = 0
  inexact : ∀ x ∈ table, x.2.exact = false → x.1.messageCount = 0 ∧ ∀ topic, x.2.perTopic topic = 0
  sum : ∀ x ∈ table, ∀ topic ∈ x.1.channelTopics, (row topic table).sum = info.total topic
  close : ∀ x ∈ table, ∀ topic ∈ x.1.channelTopics, ∀ m ∈ row topic table, ∀ n ∈ row topic table, m ≤ n + 1

/-- The counts of a set of topics are among the counts of the file. -/
lemma Info.sum_total_le (info : Info) (topics : Finset String) :
    ∑ topic ∈ topics, info.total topic ≤ (info.counted.map Prod.snd).sum := by
  unfold Info.total
  induction info.counted with
  | nil => simp
  | cons c counts ih =>
    have one : ∑ topic ∈ topics, (if info.topicOf c.1 = some topic then c.2 else 0) ≤ c.2 := by
      cases info.topicOf c.1 with
      | none => simp
      | some topic =>
        simp only [Option.some_inj, Finset.sum_ite_eq]
        split <;> omega
    have head (topic : String) : (((c :: counts).filter fun c => info.topicOf c.1 = some topic).map Prod.snd).sum =
        (if info.topicOf c.1 = some topic then c.2 else 0) +
          ((counts.filter fun c => info.topicOf c.1 = some topic).map Prod.snd).sum := by
      by_cases mine : info.topicOf c.1 = some topic <;> simp [mine]
    simp only [head, Finset.sum_add_distrib, List.map_cons, List.sum_cons]
    omega

variable {R : Runtime} {info : Info} {fileID : Nat}

lemma topicTotal_eq {counts : List (Nat × Nat)} (some : info.channelMessageCounts = some counts)
    (fits : (info.counted.map Prod.snd).sum < 2 ^ 64) (topic : String) :
    topicTotal (channelTable info) counts topic = info.total topic := by
  have below := (info.sum_total_le {topic}).trans_lt fits
  rw [Finset.sum_singleton] at below
  have same : ((counts.filter fun c => ((channelTable info).lookup c.1).map ChannelInfo.topic = .some topic).map
      Prod.snd).sum = info.total topic := by
    rw [Info.total, Info.counted, some, Option.getD_some, List.filter_filter]
    congr 2
    apply List.filter_congr
    intro c _
    have topicOf : ((channelTable info).lookup c.1).map ChannelInfo.topic = info.topicOf c.1 := by
      rw [channelTable, lookup_map_snd, Option.map_map]
      rfl
    rw [topicOf]
    cases info.topicOf c.1 <;> simp
  rw [topicTotal, same, uint64, Nat.mod_eq_of_lt below]

lemma rows_blank {idx : FileChunkIndex} (none : info.channelMessageCounts = none)
    (fresh : ∀ c ∈ idx.chunks, c.messageCount = 0)
    (counts : idx.chunkCounts = idx.chunks.map fun _ => { exact := false, perTopic := fun _ => 0 }) :
    Rows info idx (idx.chunks.map fun c => (c, { exact := false, perTopic := fun _ => 0 })) := by
  have zero (topic : String) : ∀ n ∈ row topic (idx.chunks.map fun c => (c, ⟨false, fun _ => 0⟩)), n = 0 := by
    simp [row, eq_comm]
  refine ⟨by simp [Function.comp_def], by rw [counts, List.map_map]; rfl, by simp, by simpa using fresh, ?_, ?_⟩
  · intro x mem topic has
    rw [List.sum_eq_zero (zero topic)]
    simp [Info.total, Info.counted, none]
  · intro x mem topic has m first n second
    rw [zero topic m first]
    omega

/-- The table of the shares. -/
lemma rows_shared {idx : FileChunkIndex} {chunks : List ChunkRef} {total remainder : String → Nat}
    (totals : ∀ topic, total topic = info.total topic)
    (remainders : ∀ topic, topicChunks chunks topic ≠ 0 → remainder topic = total topic % topicChunks chunks topic)
    (eq : idx.chunks = (shareOut total (topicChunks chunks) remainder chunks).map Prod.fst)
    (counts : idx.chunkCounts = (shareOut total (topicChunks chunks) remainder chunks).map Prod.snd) :
    Rows info idx (shareOut total (topicChunks chunks) remainder chunks) := by
  have carried : ∀ x ∈ shareOut total (topicChunks chunks) remainder chunks, ∀ topic ∈ x.1.channelTopics,
      topicChunks chunks topic ≠ 0 := by
    intro x mem topic has
    have bare : x.1.bare ∈ chunks.map ChunkRef.bare := by
      rw [← @shareOut_bare total (topicChunks chunks) chunks remainder]
      exact List.mem_map_of_mem (List.mem_map_of_mem mem)
    obtain ⟨c, inFile, same⟩ := List.mem_map.mp bare
    have topics : c.bare.channelTopics = x.1.bare.channelTopics := congrArg ChunkRef.channelTopics same
    simp only [ChunkRef.bare] at topics
    exact (List.countP_pos_iff.mpr ⟨c, inFile, by simpa [topics] using has⟩).ne'
  refine ⟨eq, counts, fun x mem topic => (shareOut_perTopic x mem).2, ?_, ?_, ?_⟩
  · intro x mem inexact
    rw [(@shareOut_perTopic _ _ "" _ _ x mem).1] at inexact
    cases inexact
  · intro x mem topic has
    have some := carried x mem topic has
    have below := Nat.mod_lt (total topic) (Nat.pos_of_ne_zero some)
    have whole := Nat.div_add_mod (total topic) (topicChunks chunks topic)
    rw [row_shareOut some, remainders topic some, ← totals, List.sum_append, List.sum_replicate_nat,
      List.sum_replicate_nat, min_eq_left below.le, Nat.mul_add, Nat.sub_mul]
    have le := Nat.mul_le_mul_right (total topic / topicChunks chunks topic) below.le
    omega
  · intro x mem topic has m first n second
    rw [row_shareOut (carried x mem topic has)] at first second
    simp only [List.mem_append, List.mem_replicate] at first second
    omega

lemma exists_rows (fits : (info.counted.map Prod.snd).sum < 2 ^ 64) :
    ∃ table, Rows info (chunkIndexFromInfo R info fileID) table := by
  unfold chunkIndexFromInfo fillEstimatedCounts
  split
  · next none => exact ⟨_, rows_blank none (by simp [chunkRef]) rfl⟩
  · next counts some =>
    exact ⟨_, rows_shared (topicTotal_eq some fits) (fun topic carried => if_pos (Nat.pos_of_ne_zero carried)) rfl rfl⟩

/-! ## The plan -/

/-- What a chunk adds to a topic. -/
def cell (tr : Option TimeWindow) (topic : String) (x : ChunkRef × ChunkCounts) : Nat :=
  if x.1.outside tr then 0 else x.2.perTopic topic

lemma sum_map_filterMap {α β : Type} (g : α → Option β) (f : β → Nat) (l : List α) :
    ((l.filterMap g).map f).sum = (l.map fun x => ((g x).map f).getD 0).sum := by
  induction l with
  | nil => rfl
  | cons x l ih => cases h : g x <;> simp [h, ih]

lemma sum_map_sum {α : Type} (s : Finset String) (f : String → α → Nat) (l : List α) :
    (l.map fun x => ∑ t ∈ s, f t x).sum = ∑ t ∈ s, (l.map (f t)).sum := by
  induction l with
  | nil => simp
  | cons x l ih => simp [ih, Finset.sum_add_distrib]

lemma sum_row {topic : String} {table : List (ChunkRef × ChunkCounts)}
    (absent : ∀ x ∈ table, topic ∉ x.1.channelTopics → x.2.perTopic topic = 0) :
    (row topic table).sum = (table.map fun x => x.2.perTopic topic).sum := by
  induction table with
  | nil => rfl
  | cons x table ih =>
    obtain ⟨here, later⟩ := List.forall_mem_cons.mp absent
    have ih := ih later
    by_cases has : topic ∈ x.1.channelTopics
    · simpa [row, has] using ih
    · simpa [row, has, here has] using ih

namespace Rows
variable {idx : FileChunkIndex} {table : List (ChunkRef × ChunkCounts)} (rows : Rows info idx table)
include rows

/-- The chunk with its counts, where the loop of the source looks both up by index. -/
lemma planChunks_eq (topics : List String) (tr : Option TimeWindow) : planChunks idx topics tr =
    table.filterMap fun x => if x.1.outside tr then none else if x.1.selected topics = ∅ then none
      else some { x.1 with
        channelTopics := x.1.selected topics
        messageCount := if x.2.exact then uint64 (∑ topic ∈ x.1.selected topics, x.2.perTopic topic)
          else x.1.messageCount } := by
  rw [planChunks, rows.chunks, rows.counts, List.zipIdx_map, List.filterMap_map]
  conv_rhs => rw [← List.zipIdx_map_fst 0 table, List.filterMap_map]
  apply List.filterMap_congr
  rintro ⟨x, i⟩ mem
  have at_i : table[i]? = some x := by simpa using List.mem_zipIdx_iff_getElem?.mp mem
  simp [List.getD, at_i]

lemma perTopic_le {x : ChunkRef × ChunkCounts} (mem : x ∈ table) {topic : String} (has : topic ∈ x.1.channelTopics) :
    x.2.perTopic topic ≤ info.total topic := by
  rw [← rows.sum x mem topic has]
  apply List.le_sum_of_mem
  exact List.mem_map.mpr ⟨x, List.mem_filter.mpr ⟨mem, by simpa using has⟩, rfl⟩

lemma mem_wanted {topics : List String} {topic : String} : topic ∈ idx.wanted topics ↔
    (∃ x ∈ table, topic ∈ x.1.channelTopics) ∧ (topics = [] ∨ topic ∈ topics) := by
  rw [FileChunkIndex.wanted, rows.chunks, Finset.mem_filter]
  have union (l : List (ChunkRef × ChunkCounts)) : topic ∈ ((l.map Prod.fst).map ChunkRef.channelTopics).foldr (· ∪ ·) ∅ ↔
      ∃ x ∈ l, topic ∈ x.1.channelTopics := by
    induction l with
    | nil => simp
    | cons x l ih => simpa using or_congr_right (by simpa using ih)
  rw [union]

/-- A plan adds up the rows of the wanted topics over the chunks in the window. -/
lemma estimate_eq (fits : (info.counted.map Prod.snd).sum < 2 ^ 64) (topics : List String) (tr : Option TimeWindow) :
    idx.estimate topics tr = ∑ topic ∈ idx.wanted topics, (table.map (cell tr topic)).sum := by
  rw [FileChunkIndex.estimate, rows.planChunks_eq, sum_map_filterMap, ← sum_map_sum]
  congr 1
  apply List.map_congr_left
  intro x mem
  have selected : ∑ topic ∈ x.1.selected topics, x.2.perTopic topic =
      ∑ topic ∈ idx.wanted topics, x.2.perTopic topic := by
    apply Finset.sum_subset
    · intro topic chosen
      obtain ⟨has, asked⟩ := Finset.mem_filter.mp chosen
      exact rows.mem_wanted.mpr ⟨⟨x, mem, has⟩, asked⟩
    · intro topic asked other
      apply rows.absent x mem topic
      intro has
      exact other (Finset.mem_filter.mpr ⟨has, (rows.mem_wanted.mp asked).2⟩)
  by_cases out : x.1.outside tr = true
  · simp [cell, out]
  simp only [cell, out, Bool.false_eq_true, if_false, ← selected]
  by_cases empty : x.1.selected topics = ∅
  · simp [empty]
  rw [if_neg empty, Option.map_some, Option.getD_some]
  cases exact : x.2.exact with
  | false => simp [(rows.inexact x mem exact).1, (rows.inexact x mem exact).2]
  | true =>
    have below := calc ∑ topic ∈ x.1.selected topics, x.2.perTopic topic
        ≤ ∑ topic ∈ x.1.selected topics, info.total topic :=
          Finset.sum_le_sum fun topic chosen => rows.perTopic_le mem (Finset.mem_filter.mp chosen).1
      _ ≤ (info.counted.map Prod.snd).sum := info.sum_total_le _
    simp only [if_true, uint64]
    exact Nat.mod_eq_of_lt (below.trans_lt fits)

end Rows

lemma ChunkRef.outside_of_grows {c : ChunkRef} {tr tr' : Option TimeWindow} (grows : TimeWindow.Grows tr tr')
    (out : c.outside tr' = true) : c.outside tr = true := by
  cases tr' with
  | none => cases out
  | some w' =>
    cases tr with
    | none => cases grows
    | some w =>
      obtain ⟨start, stop⟩ := grows
      simp only [ChunkRef.outside, Bool.or_eq_true, decide_eq_true_eq] at out ⊢
      omega

/-- Three messages in two chunks. -/
def threeInTwo : Info where
  channels := [(1, { topic := "/tf", messageEncoding := "cdr", schemaID := 1 })]
  schemas := []
  chunkIndexes := [⟨0, 5, 0, 100, "zstd", [1]⟩, ⟨6, 9, 100, 100, "zstd", [1]⟩]
  channelMessageCounts := some [(1, 3)]

end PjCloud.Format
