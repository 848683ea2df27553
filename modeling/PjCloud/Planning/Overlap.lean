import Mathlib.Order.Bounds.Basic
import PjCloud.Planning.Build

/-!
# Selections that overlap

The overlap check of `BuildPlan` and that of the client, `validateNonOverlapping` of `stitch_select.h`. Both sort by start
and compare neighbours; files that start together are in any order on the server and in the order of their names on
the client.
-/

namespace PjCloud.Planning
open Lib Format

/-- The fields of `SelInput` that are compared. -/
structure SelInput where
  name : String
  minTsNs : Int
  maxTsNs : Int

/-- The loop over neighbours. -/
def firstOverlapping : List SelInput → Option String
  | a :: b :: rest =>
    if b.minTsNs < a.maxTsNs then some ("files '" ++ a.name ++ "' and '" ++ b.name ++ "' overlap in time")
    else firstOverlapping (b :: rest)
  | _ => none

def validateNonOverlapping (R : Runtime) (selected : List SelInput) : String :=
  if selected.length < 2 then ""
  else (firstOverlapping (R.slice (fun s => toLex (s.minTsNs, s.name)) selected)).getD ""

def FileRecord.bounds (f : FileRecord) : Int × Int := (f.startTimeNs, f.endTimeNs)

def SelInput.bounds (s : SelInput) : Int × Int := (s.minTsNs, s.maxTsNs)

/-- Of any two one ends no later than the other starts. -/
def NonOverlapping (l : List (Int × Int)) : Prop := l.Pairwise fun a b => a.2 ≤ b.1 ∨ b.2 ≤ a.1

/-- One has no length and another one, which starts with it, has. -/
def Mixed (l : List (Int × Int)) : Prop := ∃ a ∈ l, ∃ b ∈ l, a.1 = b.1 ∧ b.1 = b.2 ∧ a.1 < a.2

/-! ## Neighbours -/

/-- Each starts after the one before it has ended. -/
def Linked (l : List (Int × Int)) : Prop := l.IsChain fun a b => a.2 ≤ b.1

section Lists

variable {l l' : List (Int × Int)}

lemma NonOverlapping.perm (perm : l.Perm l') (apart : NonOverlapping l) : NonOverlapping l' :=
  (perm.pairwise_iff fun h => h.symm).mp apart

/-- Neighbours that are linked are so at any distance. -/
lemma Linked.pairwise (forward : ∀ a ∈ l, a.1 ≤ a.2) (linked : Linked l) : l.Pairwise fun a b => a.2 ≤ b.1 := by
  induction l with
  | nil => exact .nil
  | cons a l ih =>
    obtain ⟨-, later⟩ := List.forall_mem_cons.mp forward
    rw [Linked, List.isChain_cons] at linked
    have rest := ih later linked.2
    refine .cons (fun b mem => ?_) rest
    cases l with
    | nil => cases mem
    | cons c l =>
      have next := linked.1 c rfl
      rcases List.mem_cons.mp mem with rfl | mem
      · exact next
      · have := (List.pairwise_cons.mp rest).1 b mem
        have := later c List.mem_cons_self
        omega

/-- In the order of the starts, what does not overlap is linked, unless a range without length follows another one. -/
lemma NonOverlapping.linked (forward : ∀ a ∈ l, a.1 ≤ a.2) (sorted : l.Pairwise fun a b => a.1 ≤ b.1)
    (apart : NonOverlapping l) (plain : ¬ Mixed l) : Linked l := by
  have both : l.Pairwise fun a b => a.1 ≤ b.1 ∧ (a.2 ≤ b.1 ∨ b.2 ≤ a.1) := sorted.and apart
  have linked : l.Pairwise fun a b => a.2 ≤ b.1 := by
    refine both.imp_of_mem fun {a b} memA memB ⟨le, apart⟩ => apart.elim id fun before => ?_
    have forwardB := forward b memB
    by_contra later
    exact plain ⟨a, memA, b, memB, by omega, by omega, by have := forward a memA; omega⟩
  exact linked.isChain

lemma linked_iff (perm : l.Perm l') (forward : ∀ a ∈ l', a.1 ≤ a.2) (sorted : l.Pairwise fun a b => a.1 ≤ b.1)
    (plain : NonOverlapping l' → ¬ Mixed l') : Linked l ↔ NonOverlapping l' := by
  have forward : ∀ a ∈ l, a.1 ≤ a.2 := fun a mem => forward a (perm.mem_iff.mp mem)
  refine ⟨fun linked => .perm perm ((linked.pairwise forward).imp .inl), fun apart => ?_⟩
  refine (apart.perm perm.symm).linked forward sorted fun mixed => plain apart ?_
  obtain ⟨a, memA, b, memB, together⟩ := mixed
  exact ⟨a, perm.mem_iff.mp memA, b, perm.mem_iff.mp memB, together⟩

end Lists

lemma firstOverlap_none_iff {l : List FileRecord} : firstOverlap l = none ↔ Linked (l.map FileRecord.bounds) := by
  unfold Linked
  fun_induction firstOverlap l with
  | case1 a b rest overlap => simpa [FileRecord.bounds] using fun le => absurd overlap (not_lt.mpr le)
  | case2 a b rest apart ih => simpa [FileRecord.bounds, not_lt.mp apart] using ih
  | case3 l short =>
    rcases l with _ | ⟨a, _ | ⟨b, rest⟩⟩
    · simp
    · simp
    · exact absurd rfl (short a b rest)

lemma firstOverlapping_none_iff {l : List SelInput} : (firstOverlapping l).getD "" = "" ↔ Linked (l.map SelInput.bounds) := by
  unfold Linked
  fun_induction firstOverlapping l with
  | case1 a b rest overlap =>
    have named : "files '" ++ a.name ++ "' and '" ++ b.name ++ "' overlap in time" ≠ "" := by
      intro empty
      have := congrArg String.length empty
      simp [String.length_append] at this
    simpa [SelInput.bounds, named] using fun le => absurd overlap (not_lt.mpr le)
  | case2 a b rest apart ih => simpa [SelInput.bounds, not_lt.mp apart] using ih
  | case3 l short =>
    rcases l with _ | ⟨a, _ | ⟨b, rest⟩⟩
    · simp
    · simp
    · exact absurd rfl (short a b rest)

/-! ## Both verdicts -/

section Verdicts

variable {R : Runtime} {files : List FileRecord} {selected : List SelInput}

lemma validate_iff : validateNonOverlapping R selected = "" ↔
    Linked ((R.slice (fun s => toLex (s.minTsNs, s.name)) selected).map SelInput.bounds) := by
  unfold validateNonOverlapping
  split
  · rename_i short
    have length := (R.slice_perm (fun s : SelInput => toLex (s.minTsNs, s.name)) selected).length_eq
    generalize R.slice (fun s => toLex (s.minTsNs, s.name)) selected = l at length
    rcases l with _ | ⟨a, _ | ⟨b, rest⟩⟩
    · simp [Linked]
    · simp [Linked]
    · rw [List.length_cons, List.length_cons] at length
      omega
  · exact firstOverlapping_none_iff

def PlanArgs.valid (args : PlanArgs) : Bool := args.timeRange.all fun w => w.startNs ≤ w.endNs

/-- The plan of files that do not overlap. -/
def planned (R : Runtime) (files : List FileRecord) (indexes : List FileChunkIndex) (args : PlanArgs) : Plan :=
  let ordered := R.slice FileRecord.startTimeNs files
  let plan := orderedPlan ordered indexes args
  match args.includeLatched, args.timeRange with
  | true, some w => buildLatchedSeed R plan ordered indexes args.topicNames w.startNs
  | _, _ => plan

lemma planned_merged {indexes : List FileChunkIndex} {args : PlanArgs} :
    (planned R files indexes args).mergedStartNs =
        ((R.slice FileRecord.startTimeNs files).head?.map FileRecord.startTimeNs).getD 0 ∧
      (planned R files indexes args).mergedEndNs =
        ((R.slice FileRecord.startTimeNs files).getLast?.map FileRecord.endTimeNs).getD 0 := by
  unfold planned buildLatchedSeed
  dsimp only
  split
  · split <;> exact ⟨rfl, rfl⟩
  · exact ⟨rfl, rfl⟩

lemma valid_iff {args : PlanArgs} :
    args.valid = true ↔ (args.timeRange.filter fun w => w.endNs < w.startNs) = none := by
  unfold PlanArgs.valid
  cases args.timeRange <;> simp

lemma buildPlan_cases {indexes : List FileChunkIndex} {args : PlanArgs} (valid : args.valid = true) (some : files ≠ []) :
    (∃ error, buildPlan R files indexes args = .error error) ∧
        ¬ Linked ((R.slice FileRecord.startTimeNs files).map FileRecord.bounds) ∨
      buildPlan R files indexes args = .ok (planned R files indexes args) ∧
        Linked ((R.slice FileRecord.startTimeNs files).map FileRecord.bounds) := by
  obtain ⟨f, rest, rfl⟩ := List.exists_cons_of_ne_nil some
  rw [← firstOverlap_none_iff]
  unfold buildPlan planned
  rw [valid_iff.mp valid]
  dsimp only
  split
  · rename_i overlap
    exact .inl ⟨⟨_, rfl⟩, by simp [overlap]⟩
  · rename_i apart
    refine .inr ⟨?_, apart⟩
    rcases args with ⟨_, _ | _, _ | _⟩ <;> rfl

lemma eq_planned {indexes : List FileChunkIndex} {args : PlanArgs} {plan : Plan}
    (built : buildPlan R files indexes args = .ok plan) (some : files ≠ []) :
    args.valid = true ∧ plan = planned R files indexes args := by
  have valid : args.valid = true := by
    rw [valid_iff]
    by_contra invalid
    obtain ⟨w, eq⟩ := Option.ne_none_iff_exists'.mp invalid
    obtain ⟨f, rest, rfl⟩ := List.exists_cons_of_ne_nil some
    unfold buildPlan at built
    rw [eq] at built
    cases built
  refine ⟨valid, ?_⟩
  rcases @buildPlan_cases R files indexes args valid some with ⟨⟨_, refused⟩, -⟩ | ⟨accepted, -⟩
  · cases built.symm.trans refused
  · exact Except.ok.inj (built.symm.trans accepted)

lemma ok_iff_linked {indexes : List FileChunkIndex} {args : PlanArgs} (valid : args.valid = true) :
    (buildPlan R files indexes args).isOk = true ↔ Linked ((R.slice FileRecord.startTimeNs files).map FileRecord.bounds) := by
  by_cases some : files = []
  · subst some
    simp [(R.slice_perm FileRecord.startTimeNs []).eq_nil, buildPlan, Except.isOk, Except.toBool, Linked]
  · rcases @buildPlan_cases R files indexes args valid some with ⟨⟨_, eq⟩, refused⟩ | ⟨eq, linked⟩
    · simp [eq, refused, Except.isOk, Except.toBool]
    · simp [eq, linked, Except.isOk, Except.toBool]

/-- Names that put `first` in front of what starts with it. -/
def nameFirst (first f : FileRecord) : SelInput :=
  { name := if f = first then "a" else "b", minTsNs := f.startTimeNs, maxTsNs := f.endTimeNs }

lemma refused_of_mixed (forward : ∀ f ∈ files, f.startTimeNs ≤ f.endTimeNs) {p z : FileRecord} (memP : p ∈ files)
    (memZ : z ∈ files) (together : p.startTimeNs = z.startTimeNs) (point : z.startTimeNs = z.endTimeNs)
    (long : p.startTimeNs < p.endTimeNs) : validateNonOverlapping R (files.map (nameFirst p)) ≠ "" := by
  have sorted := R.slice_sorted (fun s : SelInput => toLex (s.minTsNs, s.name)) (files.map (nameFirst p))
  intro accepted
  have linked := (validate_iff.mp accepted).pairwise (by simpa [nameFirst, SelInput.bounds] using forward)
  have other : z ≠ p := by
    rintro rfl
    omega
  have mem {f : FileRecord} (memF : f ∈ files) : nameFirst p f ∈
      R.slice (fun s : SelInput => toLex (s.minTsNs, s.name)) (files.map (nameFirst p)) :=
    Runtime.mem_slice.mpr (List.mem_map_of_mem memF)
  obtain ⟨i, ltI, eqI⟩ := List.mem_iff_getElem.mp (mem memP)
  obtain ⟨j, ltJ, eqJ⟩ := List.mem_iff_getElem.mp (mem memZ)
  rcases Nat.lt_trichotomy i j with before | rfl | behind
  · have := List.pairwise_iff_getElem.mp (List.pairwise_map.mp linked) i j ltI ltJ before
    rw [eqI, eqJ] at this
    simp only [nameFirst, SelInput.bounds] at this
    omega
  · have same := congrArg SelInput.maxTsNs (eqI.symm.trans eqJ)
    simp only [nameFirst] at same
    omega
  · have := List.pairwise_iff_getElem.mp sorted j i ltJ ltI behind
    rw [eqI, eqJ] at this
    simp only [nameFirst, together, if_neg other, if_true, Prod.Lex.toLex_le_toLex, lt_self_iff_false, false_or,
      true_and] at this
    exact absurd this (by decide)

lemma horizon_of_linked {l : List FileRecord} (forward : ∀ f ∈ l, f.startTimeNs ≤ f.endTimeNs)
    (sorted : l.Pairwise fun a b => a.startTimeNs ≤ b.startTimeNs) (linked : Linked (l.map FileRecord.bounds))
    (some : l ≠ []) : IsLeast {t | ∃ f ∈ l, f.startTimeNs = t} ((l.head?.map FileRecord.startTimeNs).getD 0) ∧
      IsGreatest {t | ∃ f ∈ l, f.endTimeNs = t} ((l.getLast?.map FileRecord.endTimeNs).getD 0) := by
  have chain := List.pairwise_map.mp (linked.pairwise (by simpa [FileRecord.bounds] using forward))
  constructor
  · obtain ⟨f, rest, rfl⟩ := List.exists_cons_of_ne_nil some
    refine ⟨⟨f, by simp, rfl⟩, ?_⟩
    rintro t ⟨g, mem, rfl⟩
    rcases List.mem_cons.mp mem with rfl | mem
    · exact le_rfl
    · exact (List.pairwise_cons.mp sorted).1 g mem
  · obtain ⟨init, last, rfl⟩ := (List.eq_nil_or_concat l).resolve_left some
    rw [List.concat_eq_append] at chain forward ⊢
    rw [List.getLast?_concat]
    refine ⟨⟨last, by simp, rfl⟩, ?_⟩
    rintro t ⟨g, mem, rfl⟩
    rcases List.mem_append.mp mem with mem | mem
    · have before := (List.pairwise_append.mp chain).2.2 g mem last (by simp)
      exact le_trans before (forward last (by simp))
    · obtain rfl := List.mem_singleton.mp mem
      exact le_rfl

end Verdicts

/-- Server and client accept a selection in any order and under any names if and only if no two files overlap, provided
that no file without a length starts together with one that has a length; where some do, and nothing overlaps, the
verdict depends on the order. The horizon of an accepted plan is the least start and the greatest end. -/
theorem overlap_verdict_iff {files : List FileRecord} {args : PlanArgs} (indexes : List FileChunkIndex)
    (forward : ∀ f ∈ files, f.startTimeNs ≤ f.endTimeNs) (valid : args.valid = true) :
    (((∀ (R : Runtime) (files' : List FileRecord), files'.Perm files →
        ((buildPlan R files' indexes args).isOk = true ↔ NonOverlapping (files.map FileRecord.bounds))) ∧
      ∀ (R : Runtime) (selected : List SelInput), (selected.map SelInput.bounds).Perm (files.map FileRecord.bounds) →
        (validateNonOverlapping R selected = "" ↔ NonOverlapping (files.map FileRecord.bounds))) ↔
      (NonOverlapping (files.map FileRecord.bounds) → ¬ Mixed (files.map FileRecord.bounds))) ∧
    ∀ (R : Runtime) (plan : Plan), buildPlan R files indexes args = .ok plan → files ≠ [] →
      IsLeast {t | ∃ f ∈ files, f.startTimeNs = t} plan.mergedStartNs ∧
      IsGreatest {t | ∃ f ∈ files, f.endTimeNs = t} plan.mergedEndNs := by
  have forwardBounds : ∀ a ∈ files.map FileRecord.bounds, a.1 ≤ a.2 := by simpa [FileRecord.bounds] using forward
  refine ⟨⟨fun ⟨_, client⟩ apart mixed => ?_, fun plain => ⟨fun R files' perm => ?_, fun R selected perm => ?_⟩⟩,
    fun R plan built some => ?_⟩
  · obtain ⟨_, memA, _, memB, together, point, long⟩ := mixed
    obtain ⟨p, memP, rfl⟩ := List.mem_map.mp memA
    obtain ⟨z, memZ, rfl⟩ := List.mem_map.mp memB
    have same : (files.map (nameFirst p)).map SelInput.bounds = files.map FileRecord.bounds := by
      rw [List.map_map]
      rfl
    exact refused_of_mixed forward memP memZ together point long
      ((client .ordered (files.map (nameFirst p)) (.of_eq same)).mpr apart)
  · rw [ok_iff_linked valid]
    refine linked_iff (((R.slice_perm _ files').trans perm).map _) forwardBounds ?_ plain
    exact List.pairwise_map.mpr (R.slice_sorted FileRecord.startTimeNs files')
  · rw [validate_iff]
    refine linked_iff (((R.slice_perm _ selected).map _).trans perm) forwardBounds ?_ plain
    refine List.pairwise_map.mpr ((R.slice_sorted (fun s : SelInput => toLex (s.minTsNs, s.name)) selected).imp ?_)
    intro a b le
    rcases Prod.Lex.toLex_le_toLex.mp le with less | ⟨same, -⟩
    · exact less.le
    · exact same.le
  · have linked := (ok_iff_linked valid).mp (show (buildPlan R files indexes args).isOk = true by rw [built]; rfl)
    obtain ⟨-, rfl⟩ := eq_planned built some
    have perm := R.slice_perm FileRecord.startTimeNs files
    have horizon := horizon_of_linked (fun f mem => forward f (perm.mem_iff.mp mem))
      (R.slice_sorted FileRecord.startTimeNs files) linked (fun empty => some (by rw [empty] at perm; exact perm.nil_eq.symm))
    rw [planned_merged.1, planned_merged.2]
    simpa using horizon

/-- Two recordings in a row. -/
theorem consecutive_verdict : (buildPlan .ordered [⟨2, 10, 20⟩, ⟨1, 0, 10⟩] [] ⟨[], none, false⟩).isOk = true ∧
    validateNonOverlapping .ordered [⟨"y", 10, 20⟩, ⟨"x", 0, 10⟩] = "" := by
  have verdicts := ((@overlap_verdict_iff [⟨1, 0, 10⟩, ⟨2, 10, 20⟩] ⟨[], none, false⟩ [] (by decide) (by decide)).1.mpr
     (by simp [NonOverlapping, Mixed, FileRecord.bounds]))
  have apart : NonOverlapping [(0, 10), (10, 20)] := by simp [NonOverlapping]
  exact ⟨(verdicts.1 .ordered _ (.swap ..)).mpr apart, (verdicts.2 .ordered [⟨"y", 10, 20⟩, ⟨"x", 0, 10⟩] (.swap ..)).mpr apart⟩

/-- A recording of no length that starts with another one: the verdicts depend on the order and on the names. -/
theorem point_verdicts_differ : NonOverlapping [(0, 10), (0, 0)] ∧
    (buildPlan .ordered [⟨1, 0, 0⟩, ⟨2, 0, 10⟩] [] ⟨[], none, false⟩).isOk = true ∧
    (buildPlan .ordered [⟨2, 0, 10⟩, ⟨1, 0, 0⟩] [] ⟨[], none, false⟩).isOk = false ∧
    validateNonOverlapping .ordered [⟨"x", 0, 0⟩, ⟨"y", 0, 10⟩] = "" ∧
    validateNonOverlapping .ordered [⟨"y", 0, 0⟩, ⟨"x", 0, 10⟩] = "files 'x' and 'y' overlap in time" := by
  refine ⟨by simp [NonOverlapping], ?_⟩
  decide +kernel

end PjCloud.Planning
