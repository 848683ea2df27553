import Mathlib.Data.Finset.Max
import Mathlib.Data.Prod.Lex
import Mathlib.Order.Bounds.Basic
import PjCloud.Lib.Lists
import PjCloud.Lib.Runtime

/-!
# Sessions of files

`aggregate_sessions.h` of the plugin: the files of a partition are swept in the order of their starts, and a file that starts
late enough after all files before it opens a session.
-/

namespace PjCloud.Browse.Aggregation
open Lib

structure AggInput where
  key : String
  minTsNs : Int
  maxTsNs : Int
  deriving DecidableEq, Repr

structure AggSession where
  keys : List String := []
  minTsNs : Int := 0
  maxTsNs : Int := 0
  partition : String := ""
  deriving DecidableEq, Repr

/-! ## The code -/

def partitionKey (key : String) : String :=
  let segs := (key.toList.splitOn '/').dropLast
  String.ofList (segs.foldl (fun out s =>
    if s.take 5 = "date=".toList then out else (if out ≠ [] then out ++ ['/'] else out) ++ s) [])

structure Sweep where
  sessions : List AggSession := []
  cur : AggSession := {}
  opened : Bool := false
  prevMax : Int := 0

/-- A turn of the loop over the files of a partition. -/
def Sweep.add (partition : String) (gapThresholdNs : Int) (s : Sweep) (it : AggInput) : Sweep :=
  let split := s.opened ∧ it.minTsNs - s.prevMax > gapThresholdNs
  let s := if ¬ s.opened ∨ split then
      { s with
        sessions := if s.opened then s.sessions ++ [s.cur] else s.sessions
        cur := { partition, minTsNs := it.minTsNs, maxTsNs := it.maxTsNs }
        opened := true }
    else s
  { s with
    cur := { s.cur with
      keys := s.cur.keys ++ [it.key]
      minTsNs := min s.cur.minTsNs it.minTsNs
      maxTsNs := max s.cur.maxTsNs it.maxTsNs }
    prevMax := max s.prevMax it.maxTsNs }

def sweep (partition : String) (gapThresholdNs : Int) (items : List AggInput) : List AggSession :=
  let s := items.foldl (Sweep.add partition gapThresholdNs) { cur := { partition } }
  if s.opened then s.sessions ++ [s.cur] else s.sessions

/-- The order of the files of a partition. -/
def AggInput.place (f : AggInput) : Int ×ₗ String := toLex (f.minTsNs, f.key)

def partitions (files : List AggInput) : List String :=
  (files.map fun f => partitionKey f.key).dedup.insertionSort (· ≤ ·)

def bucket (R : Runtime) (files : List AggInput) (partition : String) : List AggInput :=
  R.slice AggInput.place (files.filter fun f => partitionKey f.key = partition)

def aggregateSessions (R : Runtime) (files : List AggInput) (gapThresholdNs : Int) : List AggSession :=
  R.slice (fun s => toLex (s.minTsNs, s.partition))
    ((partitions files).flatMap fun p => sweep p gapThresholdNs (bucket R files p))

/-! ## What it is for -/

section
variable (files : List AggInput) (threshold : Int)

/-- A file starts more than `threshold` after the end of every file of its partition before it. -/
def Late (f : AggInput) : Prop :=
  ∀ x ∈ files, partitionKey x.key = partitionKey f.key → x.place < f.place → threshold < f.minTsNs - x.maxTsNs

/-- The sweep also counts from the time zero, as if a file had ended there. -/
def SweptLate (f : AggInput) : Prop := threshold < f.minTsNs ∧ Late files threshold f

/-- Two files of a partition, the first not after the second, with no `late` file after the first up to the second. -/
def Together (late : AggInput → Prop) (f g : AggInput) : Prop :=
  partitionKey f.key = partitionKey g.key ∧
    ∀ h ∈ files, partitionKey h.key = partitionKey f.key → f.place < h.place → h.place ≤ g.place → ¬ late h

/-- A session is that of a group of files. -/
structure Describes (s : AggSession) (group : List AggInput) : Prop where
  keys : s.keys = group.map AggInput.key
  least : IsLeast {t | ∃ f ∈ group, f.minTsNs = t} s.minTsNs
  greatest : IsGreatest {t | ∃ f ∈ group, f.maxTsNs = t} s.maxTsNs

/-- What the aggregation of files is to be. -/
structure Aggregates (R : Runtime) : Prop where
  keys : ((aggregateSessions R files threshold).flatMap AggSession.keys).Perm (files.map AggInput.key)
  spans : ∀ s ∈ aggregateSessions R files threshold, ∃ group, Describes s group ∧ group ⊆ files ∧
    group.Pairwise fun f g => f.place ≤ g.place
  permutes : (files.map AggInput.key).Nodup → ∀ files', files'.Perm files →
    aggregateSessions R files' threshold = aggregateSessions R files threshold
  together : (files.map AggInput.key).Nodup → ∀ f ∈ files, ∀ g ∈ files, f.place ≤ g.place →
    ((∃ s ∈ aggregateSessions R files threshold, f.key ∈ s.keys ∧ g.key ∈ s.keys) ↔
      Together files (Late files (max threshold 0)) f g)

end

/-! ## The sweep -/

/-- What is asked of a file after those that are done. -/
def After (threshold : Int) (done : List AggInput) (f : AggInput) : Prop :=
  threshold < f.minTsNs ∧ ∀ x ∈ done, threshold < f.minTsNs - x.maxTsNs

/-- The groups of a sweep, turn by turn. -/
inductive Groups (threshold : Int) : List AggInput → List (List AggInput) → Prop where
  | first {f} : Groups threshold [f] ([] ++ [[f]])
  | join {done gs g f} : Groups threshold done (gs ++ [g]) → ¬ After threshold done f →
    Groups threshold (done ++ [f]) (gs ++ [g ++ [f]])
  | split {done gs f} : Groups threshold done gs → After threshold done f → Groups threshold (done ++ [f]) (gs ++ [[f]])

section Sweep
variable {threshold : Int} {done : List AggInput} {gs : List (List AggInput)} {g : List AggInput} {f : AggInput}

lemma Groups.flatten (groups : Groups threshold done gs) : gs.flatten = done := by
  induction groups with
  | first => rfl
  | join _ _ ih => simpa [← List.append_assoc] using ih
  | split _ _ ih => simpa using ih

structure Swept (threshold : Int) (done : List AggInput) (s : Sweep) : Prop where
  opened : s.opened = true
  groups : ∃ gs g, Groups threshold done (gs ++ [g]) ∧ List.Forall₂ Describes s.sessions gs ∧ Describes s.cur g
  prevMax : ∀ b, s.prevMax ≤ b ↔ 0 ≤ b ∧ ∀ x ∈ done, x.maxTsNs ≤ b

lemma Describes.single {partition : String} : Describes ⟨[f.key], f.minTsNs, f.maxTsNs, partition⟩ [f] where
  keys := rfl
  least := ⟨⟨f, by simp⟩, by rintro _ ⟨_, mem, rfl⟩; simp_all⟩
  greatest := ⟨⟨f, by simp⟩, by rintro _ ⟨_, mem, rfl⟩; simp_all⟩

lemma Describes.snoc {s : AggSession} (describes : Describes s g) : Describes
    ⟨s.keys ++ [f.key], min s.minTsNs f.minTsNs, max s.maxTsNs f.maxTsNs, s.partition⟩ (g ++ [f]) where
  keys := by simp [describes.keys]
  least := by
    have set : {t | ∃ x ∈ g ++ [f], x.minTsNs = t} = insert f.minTsNs {t | ∃ x ∈ g, x.minTsNs = t} := by
      ext t; simp [or_and_right, exists_or, eq_comm, or_comm]
    rw [set, min_comm]
    exact describes.least.insert _
  greatest := by
    have set : {t | ∃ x ∈ g ++ [f], x.maxTsNs = t} = insert f.maxTsNs {t | ∃ x ∈ g, x.maxTsNs = t} := by
      ext t; simp [or_and_right, exists_or, eq_comm, or_comm]
    rw [set, max_comm]
    exact describes.greatest.insert _

lemma Swept.after {s : Sweep} (swept : Swept threshold done s) : f.minTsNs - s.prevMax > threshold ↔
    After threshold done f := by
  have le := swept.prevMax (f.minTsNs - threshold - 1)
  unfold After
  constructor
  · intro late
    obtain ⟨zero, all⟩ := le.mp (by omega)
    exact ⟨by omega, fun x mem => by have := all x mem; omega⟩
  · rintro ⟨zero, all⟩
    have := le.mpr ⟨by omega, fun x mem => by have := all x mem; omega⟩
    omega

lemma Swept.add {s : Sweep} {partition : String} (swept : Swept threshold done s) :
    Swept threshold (done ++ [f]) (s.add partition threshold f) := by
  obtain ⟨gs, g, groups, sessions, cur⟩ := swept.groups
  have prevMax (b : Int) : max s.prevMax f.maxTsNs ≤ b ↔ 0 ≤ b ∧ ∀ x ∈ done ++ [f], x.maxTsNs ≤ b := by
    rw [max_le_iff, swept.prevMax]
    simp only [List.mem_append, List.mem_singleton, or_imp, forall_and, forall_eq]
    tauto
  by_cases late : f.minTsNs - s.prevMax > threshold
  · refine ⟨by simp [Sweep.add, swept.opened, late], ⟨gs ++ [g], [f], .split groups (swept.after.mp late), ?_, ?_⟩, ?_⟩
    · simpa [Sweep.add, swept.opened, late] using List.rel_append sessions (.cons cur .nil)
    · simpa [Sweep.add, swept.opened, late] using Describes.single
    · simpa [Sweep.add, swept.opened, late] using prevMax
  · refine ⟨by simp [Sweep.add, swept.opened, late],
      ⟨gs, g ++ [f], .join groups (fun after => late (swept.after.mpr after)), ?_, ?_⟩, ?_⟩
    · simpa [Sweep.add, swept.opened, late] using sessions
    · simpa [Sweep.add, swept.opened, late] using cur.snoc
    · simpa [Sweep.add, swept.opened, late] using prevMax

lemma swept_first {partition : String} : Swept threshold [f] (Sweep.add partition threshold { cur := { partition } } f) where
  opened := by simp [Sweep.add]
  groups := ⟨[], [f], .first, by simp [Sweep.add], by simpa [Sweep.add] using Describes.single⟩
  prevMax b := by simp [Sweep.add]

lemma sweep_groups {partition : String} : ∀ {items : List AggInput}, items ≠ [] →
    ∃ gs, Groups threshold items gs ∧ List.Forall₂ Describes (sweep partition threshold items) gs := by
  intro items some
  have swept : Swept threshold items (items.foldl (Sweep.add partition threshold) { cur := { partition } }) := by
    induction items using List.reverseRecOn with
    | nil => exact absurd rfl some
    | append_singleton done f ih =>
      rw [List.foldl_append]
      by_cases empty : done = []
      · subst empty
        exact swept_first
      · exact (ih empty).add
  obtain ⟨gs, g, groups, sessions, cur⟩ := swept.groups
  refine ⟨gs ++ [g], groups, ?_⟩
  rw [sweep, if_pos swept.opened]
  exact List.rel_append sessions (.cons cur .nil)

/-- Files of which each starts after the one before it, with the files that the sweep finds late. -/
structure Line (threshold : Int) (late : AggInput → Prop) (done : List AggInput) : Prop where
  sorted : done.Pairwise fun f g => f.place < g.place
  late : ∀ pre f post, done = pre ++ f :: post → (late f ↔ After threshold pre f)

variable {late : AggInput → Prop}

lemma Line.init (line : Line threshold late (done ++ [f])) : Line threshold late done where
  sorted := (List.pairwise_append.mp line.sorted).1
  late pre g post eq := line.late pre g (post ++ [f]) (by simp [eq])

lemma Line.below (line : Line threshold late (done ++ [f])) : ∀ g ∈ done, g.place < f.place :=
  fun g mem => (List.pairwise_append.mp line.sorted).2.2 g mem f (by simp)

/-- The last group has the files after which none is late. -/
lemma Groups.last (groups : Groups threshold done gs) : ∀ {g}, gs.getLast? = some g → Line threshold late done →
    ∀ f ∈ done, (f ∈ g ↔ ∀ h ∈ done, f.place < h.place → ¬ late h) := by
  induction groups with
  | first =>
    rintro g last line f mem
    obtain rfl : [_] = g := by simpa using last
    simp_all
  | @join done gs g₀ x _ early ih =>
    rintro g last line f mem
    obtain rfl : g₀ ++ [x] = g := by simpa using last
    have notLate : ¬ late x := fun isLate => early ((line.late done x [] rfl).mp isLate)
    rcases List.mem_append.mp mem with before | here
    · have other : f ≠ x := fun eq => (eq ▸ line.below f before).false
      have ih := ih List.getLast?_concat line.init f before
      simp only [List.mem_append, List.mem_singleton, other, or_false, ih]
      exact ⟨fun all h inDone after => inDone.elim (all h · after) fun eq => eq ▸ notLate,
        fun all h inDone => all h (.inl inDone)⟩
    · obtain rfl := List.mem_singleton.mp here
      simp only [List.mem_append, List.mem_singleton, or_true, true_iff]
      rintro h (inDone | rfl) after
      · exact absurd after (line.below h inDone).not_gt
      · exact notLate
  | @split done gs x _ after _ =>
    rintro g last line f mem
    obtain rfl : [x] = g := by simpa using last
    have isLate : late x := (line.late done x [] rfl).mpr after
    rcases List.mem_append.mp mem with before | here
    · have other : f ≠ x := fun eq => (eq ▸ line.below f before).false
      simp only [List.mem_singleton, other, false_iff]
      exact fun all => all x (by simp) (line.below f before) isLate
    · obtain rfl := List.mem_singleton.mp here
      simp only [List.mem_singleton, true_iff]
      rintro h inDone above
      rcases List.mem_append.mp inDone with before | here
      · exact absurd above (line.below h before).not_gt
      · exact absurd (List.mem_singleton.mp here ▸ above) (lt_irrefl _)

/-- Two files share a group unless there is a late one after the first up to the second. -/
lemma Groups.same (groups : Groups threshold done gs) : Line threshold late done → ∀ f ∈ done, ∀ g ∈ done,
    f.place ≤ g.place → ((∃ G ∈ gs, f ∈ G ∧ g ∈ G) ↔
      ∀ h ∈ done, f.place < h.place → h.place ≤ g.place → ¬ late h) := by
  -- the last file is in the last group only, and the others are where they were
  have step {done : List AggInput} {old gs : List (List AggInput)} {G₀ : List AggInput} {x : AggInput}
      (before : Groups threshold done old) (groups : Groups threshold (done ++ [x]) (gs ++ [G₀])) (own : x ∈ G₀)
      (subset : ∀ G ∈ gs, G ⊆ old.flatten)
      (keeps : ∀ f ≠ x, ∀ g ≠ x, (∃ G ∈ gs ++ [G₀], f ∈ G ∧ g ∈ G) ↔ ∃ G ∈ old, f ∈ G ∧ g ∈ G)
      (ih : Line threshold late done → ∀ f ∈ done, ∀ g ∈ done, f.place ≤ g.place → ((∃ G ∈ old, f ∈ G ∧ g ∈ G) ↔
        ∀ h ∈ done, f.place < h.place → h.place ≤ g.place → ¬ late h))
      (line : Line threshold late (done ++ [x])) (f : AggInput) (fMem : f ∈ done ++ [x]) (g : AggInput)
      (gMem : g ∈ done ++ [x]) (le : f.place ≤ g.place) : ((∃ G ∈ gs ++ [G₀], f ∈ G ∧ g ∈ G) ↔
        ∀ h ∈ done ++ [x], f.place < h.place → h.place ≤ g.place → ¬ late h) := by
    have below := line.below
    simp only [List.mem_append, List.mem_singleton] at fMem gMem
    rcases gMem with gMem | rfl
    · have fMem := fMem.resolve_right fun eq => (eq ▸ le).not_gt (below g gMem)
      rw [keeps f (fun eq => (eq ▸ below f fMem).false) g (fun eq => (eq ▸ below g gMem).false), ih line.init f fMem g gMem le]
      simp only [List.mem_append, List.mem_singleton, or_imp, forall_and, forall_eq, iff_self_and]
      exact fun _ _ most => absurd (below g gMem) most.not_gt
    · have last := groups.last List.getLast?_concat line f (by simpa using fMem)
      have onlyLast : (∃ G ∈ gs ++ [G₀], f ∈ G ∧ g ∈ G) ↔ f ∈ G₀ := by
        constructor
        · rintro ⟨G, mem, has, hasLast⟩
          rcases List.mem_append.mp mem with earlier | here
          · have inDone := before.flatten ▸ subset G earlier hasLast
            exact absurd (below g inDone) (lt_irrefl _)
          · exact List.mem_singleton.mp here ▸ has
        · exact fun has => ⟨G₀, by simp, has, own⟩
      rw [onlyLast, last]
      refine forall₃_congr fun h mem _ => ⟨fun all _ => all, fun all => all ?_⟩
      rcases List.mem_append.mp mem with inDone | here
      · exact (below h inDone).le
      · exact (List.mem_singleton.mp here ▸ le_rfl)
  induction groups with
  | first =>
    intro line f fMem g gMem le
    simp_all
  | @join done gs g₀ x before early ih =>
    apply step before (.join before early) (by simp) ?_ ?_ ih
    · exact fun G mem y has => List.mem_flatten_of_mem (by simp [mem]) has
    · intro f fOther g gOther
      simp [fOther, gOther]
  | @split done old x before after ih =>
    apply step before (.split before after) (by simp) ?_ ?_ ih
    · exact fun G mem y has => List.mem_flatten_of_mem mem has
    · intro f fOther g gOther
      simp [fOther]

end Sweep

/-! ## The partitions -/

section Partitions
variable {R : Runtime} {files : List AggInput} {threshold : Int} {p : String} {f : AggInput}

lemma mem_bucket : f ∈ bucket R files p ↔ f ∈ files ∧ partitionKey f.key = p := by simp [bucket]

lemma mem_partitions : p ∈ partitions files ↔ ∃ f ∈ files, partitionKey f.key = p := by
  simp [partitions, List.mem_insertionSort]

lemma bucket_sorted : (bucket R files p).Pairwise fun f g => f.place ≤ g.place := R.slice_sorted _ _

lemma key_inj (distinct : (files.map AggInput.key).Nodup) {f g : AggInput} (hf : f ∈ files) (hg : g ∈ files)
    (same : f.key = g.key) : f = g := List.inj_on_of_nodup_map distinct hf hg same

lemma bucket_line (distinct : (files.map AggInput.key).Nodup) :
    Line threshold (SweptLate files threshold) (bucket R files p) := by
  have nodup : (bucket R files p).Nodup := (R.slice_perm _ _).nodup_iff.mpr (distinct.of_map.filter _)
  have sorted : (bucket R files p).Pairwise fun f g => f.place < g.place := by
    apply (bucket_sorted.and nodup).imp_of_mem
    rintro f g hf hg ⟨le, other⟩
    apply lt_of_le_of_ne le
    intro same
    have keys : f.key = g.key := congrArg (fun x => (ofLex x).2) same
    exact other (key_inj distinct (mem_bucket.mp hf).1 (mem_bucket.mp hg).1 keys)
  refine ⟨sorted, ?_⟩
  intro pre g post eq
  rw [eq, List.pairwise_append, List.pairwise_cons] at sorted
  obtain ⟨-, ⟨after, -⟩, before⟩ := sorted
  have inBucket (x : AggInput) : x ∈ files ∧ partitionKey x.key = p ↔ x ∈ pre ∨ x = g ∨ x ∈ post := by
    rw [← @mem_bucket R, eq, List.mem_append, List.mem_cons]
  have mine := ((inBucket g).mpr (.inr (.inl rfl))).2
  apply and_congr_right
  rintro -
  constructor
  · intro isLate x mem
    obtain ⟨there, same⟩ := (inBucket x).mpr (.inl mem)
    exact isLate x there (same.trans mine.symm) (before x mem g (by simp))
  · intro isLate x there same earlier
    rcases (inBucket x).mp ⟨there, same.trans mine⟩ with mem | rfl | mem
    · exact isLate x mem
    · exact absurd earlier (lt_irrefl _)
    · exact absurd earlier (after x mem).not_gt

/-- The groups behind the sessions of a partition. -/
lemma exists_groups (there : p ∈ partitions files) : ∃ gs, Groups threshold (bucket R files p) gs ∧
    List.Forall₂ Describes (sweep p threshold (bucket R files p)) gs := by
  obtain ⟨f, mem, own⟩ := mem_partitions.mp there
  exact sweep_groups (List.ne_nil_of_mem (mem_bucket.mpr ⟨mem, own⟩))

lemma mem_aggregateSessions {s : AggSession} : s ∈ aggregateSessions R files threshold ↔
    ∃ p ∈ partitions files, s ∈ sweep p threshold (bucket R files p) := by
  simp [aggregateSessions]

/-- The files are divided by their partitions. -/
lemma flatMap_filter_perm {parts : List String} (nodup : parts.Nodup) (files : List AggInput) :
    (parts.flatMap fun p => files.filter fun f => partitionKey f.key = p).Perm
      (files.filter fun f => partitionKey f.key ∈ parts) := by
  induction parts with
  | nil => simp
  | cons p parts ih =>
    obtain ⟨fresh, nodup⟩ := List.nodup_cons.mp nodup
    have cut := List.filter_append_perm (fun f => partitionKey f.key = p)
      (files.filter fun f => partitionKey f.key ∈ p :: parts)
    simp only [List.filter_filter] at cut
    rw [List.flatMap_cons]
    refine List.Perm.trans ?_ cut
    apply List.Perm.append
    · apply List.Perm.of_eq
      apply List.filter_congr
      intro f _
      by_cases own : partitionKey f.key = p <;> simp [own]
    · refine (ih nodup).trans (List.Perm.of_eq (List.filter_congr ?_))
      intro f _
      by_cases own : partitionKey f.key = p <;> simp [own, fresh]

lemma flatMap_keys {sessions : List AggSession} {gs : List (List AggInput)} (described : List.Forall₂ Describes sessions gs) :
    sessions.flatMap AggSession.keys = gs.flatten.map AggInput.key := by
  induction described with
  | nil => rfl
  | cons describes _ ih => simp [describes.keys, ih]

lemma keys_perm : ((aggregateSessions R files threshold).flatMap AggSession.keys).Perm (files.map AggInput.key) := by
  have keys : ∀ p ∈ partitions files, (sweep p threshold (bucket R files p)).flatMap AggSession.keys =
      (bucket R files p).map AggInput.key := by
    intro p there
    obtain ⟨gs, groups, sessions⟩ := @exists_groups R files threshold p there
    rw [flatMap_keys sessions, groups.flatten]
  have nodup : (partitions files).Nodup := (List.perm_insertionSort _ _).nodup_iff.mpr (List.nodup_dedup _)
  have all : files.filter (fun f => partitionKey f.key ∈ partitions files) = files := by
    rw [List.filter_eq_self]
    intro f mem
    simpa using mem_partitions.mpr ⟨f, mem, rfl⟩
  have divided := flatMap_filter_perm nodup files
  rw [all] at divided
  refine ((R.slice_perm _ _).flatMap_right _).trans ?_
  rw [List.flatMap_assoc, List.flatMap_congr keys, ← List.map_flatMap]
  exact ((List.Perm.flatMap_left _ fun p _ => R.slice_perm _ _).trans divided).map _

lemma exists_group {s : AggSession} (mem : s ∈ aggregateSessions R files threshold) : ∃ group, Describes s group ∧
    group ⊆ files ∧ group.Pairwise fun f g => f.place ≤ g.place := by
  obtain ⟨p, there, mem⟩ := mem_aggregateSessions.mp mem
  obtain ⟨gs, groups, sessions⟩ := @exists_groups R files threshold p there
  obtain ⟨group, inGroups, describes⟩ := exists_of_forall₂ sessions mem
  have sublist : group.Sublist (bucket R files p) := groups.flatten ▸ List.sublist_flatten_of_mem inGroups
  exact ⟨group, describes, fun f has => (mem_bucket.mp (sublist.subset has)).1, bucket_sorted.sublist sublist⟩

lemma aggregateSessions_perm (distinct : (files.map AggInput.key).Nodup) {files' : List AggInput}
    (perm : files'.Perm files) : aggregateSessions R files' threshold = aggregateSessions R files threshold := by
  have parts : partitions files' = partitions files := by
    apply List.Perm.eq_of_pairwise' (List.pairwise_insertionSort _ _) (List.pairwise_insertionSort _ _)
    exact ((List.perm_insertionSort _ _).trans (perm.map _).dedup).trans (List.perm_insertionSort _ _).symm
  have buckets (p : String) : bucket R files' p = bucket R files p :=
    R.slice_eq ((R.slice_perm _ _).trans (perm.symm.filter _)) (@bucket_line R files threshold p distinct).sorted
  simp only [aggregateSessions, parts, buckets]

/-- Two files share a session unless the sweep finds a late one after the first up to the second. -/
lemma together_iff (distinct : (files.map AggInput.key).Nodup) {f g : AggInput} (fMem : f ∈ files) (gMem : g ∈ files)
    (le : f.place ≤ g.place) : (∃ s ∈ aggregateSessions R files threshold, f.key ∈ s.keys ∧ g.key ∈ s.keys) ↔
      Together files (SweptLate files threshold) f g := by
  have same {p : String} {gs : List (List AggInput)} (groups : Groups threshold (bucket R files p) gs)
      (fHere : f ∈ bucket R files p) (gHere : g ∈ bucket R files p) :=
    groups.same (bucket_line distinct) f fHere g gHere le
  constructor
  · rintro ⟨s, mem, fKey, gKey⟩
    obtain ⟨p, there, mem⟩ := mem_aggregateSessions.mp mem
    obtain ⟨gs, groups, sessions⟩ := @exists_groups R files threshold p there
    obtain ⟨group, inGroups, describes⟩ := exists_of_forall₂ sessions mem
    have here {x : AggInput} (xMem : x ∈ files) (key : x.key ∈ s.keys) : x ∈ group ∧ x ∈ bucket R files p := by
      rw [describes.keys] at key
      obtain ⟨y, has, eq⟩ := List.mem_map.mp key
      have inBucket : y ∈ bucket R files p := groups.flatten ▸ List.mem_flatten_of_mem inGroups has
      exact key_inj distinct (mem_bucket.mp inBucket).1 xMem eq ▸ ⟨has, inBucket⟩
    have fHere := here fMem fKey
    have gHere := here gMem gKey
    have own := (mem_bucket.mp fHere.2).2
    refine ⟨own.trans (mem_bucket.mp gHere.2).2.symm, fun h hMem part => ?_⟩
    exact (same groups fHere.2 gHere.2).mp ⟨group, inGroups, fHere.1, gHere.1⟩ h (mem_bucket.mpr ⟨hMem, part.trans own⟩)
  · rintro ⟨part, none⟩
    have there := mem_partitions.mpr ⟨f, fMem, rfl⟩
    obtain ⟨gs, groups, sessions⟩ := @exists_groups R files threshold _ there
    obtain ⟨group, inGroups, fHas, gHas⟩ := (same groups (mem_bucket.mpr ⟨fMem, rfl⟩) (mem_bucket.mpr ⟨gMem, part.symm⟩)).mpr
      fun h here => none h (mem_bucket.mp here).1 (mem_bucket.mp here).2
    obtain ⟨s, mem, describes⟩ := exists_of_forall₂ sessions.flip inGroups
    refine ⟨s, mem_aggregateSessions.mpr ⟨_, there, mem⟩, ?_, ?_⟩
    · exact describes.keys ▸ List.mem_map_of_mem fHas
    · exact describes.keys ▸ List.mem_map_of_mem gHas

end Partitions

/-- The aggregation is right if and only if the time zero and a negative threshold make no difference: a file that has another
one of its partition before it is late for the sweep if it starts more than the threshold, or zero, after all of them. -/
theorem aggregates_iff (R : Runtime) (files : List AggInput) (threshold : Int) : Aggregates files threshold R ↔
    ((files.map AggInput.key).Nodup → ∀ f ∈ files,
      (∃ x ∈ files, partitionKey x.key = partitionKey f.key ∧ x.place < f.place) →
        (SweptLate files threshold f ↔ Late files (max threshold 0) f)) := by
  constructor
  · rintro agg distinct f fMem ⟨x, xMem, xPart, xBefore⟩
    -- the file right before `f` shares its session with `f` unless `f` is late
    let before := (files.filter fun x => partitionKey x.key = partitionKey f.key ∧ x.place < f.place).toFinset
    have mem_before (y : AggInput) : y ∈ before ↔ y ∈ files ∧ partitionKey y.key = partitionKey f.key ∧ y.place < f.place := by
      simp [before]
    obtain ⟨e, eBefore, greatest⟩ := before.exists_max_image AggInput.place ⟨x, (mem_before x).mpr ⟨xMem, xPart, xBefore⟩⟩
    obtain ⟨eMem, ePart, eLt⟩ := (mem_before e).mp eBefore
    have alone (late : AggInput → Prop) : Together files late e f ↔ ¬ late f := by
      refine ⟨fun together => together.2 f fMem ePart.symm eLt le_rfl, fun early => ⟨ePart, ?_⟩⟩
      intro h hMem hPart above below
      rcases below.lt_or_eq with lt | eq
      · exact absurd (greatest h ((mem_before h).mpr ⟨hMem, hPart.trans ePart, lt⟩)) above.not_ge
      · have key : h.key = f.key := congrArg (fun x => (ofLex x).2) eq
        exact key_inj distinct hMem fMem key ▸ early
    have same := agg.together distinct e eMem f fMem eLt.le
    rw [together_iff distinct eMem fMem eLt.le, alone, alone] at same
    exact not_iff_not.mp same
  · intro faithful
    refine ⟨keys_perm, fun s => exists_group, fun distinct files' => aggregateSessions_perm distinct, ?_⟩
    intro distinct f fMem g gMem le
    rw [together_iff distinct fMem gMem le]
    apply and_congr_right
    rintro -
    refine forall₄_congr fun h hMem hPart above => imp_congr_right fun _ => not_congr ?_
    exact faithful distinct h hMem ⟨f, fMem, hPart.symm, above⟩

/-- With a negative threshold a file opens a session although the one before it is still running. -/
theorem negative_threshold_splits_overlap :
    (aggregateSessions .ordered [⟨"a", 0, 10⟩, ⟨"b", 5, 20⟩] (-100)).map AggSession.keys = [["a"], ["b"]] ∧
      Together [⟨"a", 0, 10⟩, ⟨"b", 5, 20⟩] (Late [⟨"a", 0, 10⟩, ⟨"b", 5, 20⟩] (max (-100) 0)) ⟨"a", 0, 10⟩ ⟨"b", 5, 20⟩ := by
  refine ⟨by decide +kernel, by decide +kernel, ?_⟩
  intro h mem _ above _ late
  rcases List.mem_pair.mp mem with rfl | rfl
  · exact lt_irrefl _ above
  · have gap := late ⟨"a", 0, 10⟩ (by simp) (by decide +kernel) (by decide +kernel)
    simp at gap

end PjCloud.Browse.Aggregation
