import Mathlib.Data.List.Basic
import PjCloud.Lib.Lists

/-!
# Object keys

A recording is named by a Hive-partitioned path. `parseHiveKey` is the regular expression of `keyparse`, piece
by piece between the slashes, and `rebuildHiveKey` puts the fields together again. A parse is rebuilt to the
key it came from if the key ends in `.mcap` (`rebuild_parse`), and clean fields are parsed from what they build
(`parse_rebuild`).
-/

namespace PjCloud.Builder
open Lib

/-- The fields of a key. -/
structure Dims where
  customer : String
  site : String
  robot : String
  source : String
  date : String
  filename : String
  deriving DecidableEq, Repr

def lstrip (key : String) : String := String.ofList (key.toList.dropWhile (· == '/'))

/-- The text after `name=` in a piece of the path, where there is any. -/
def partitionValue (name : String) (piece : List Char) : Option String :=
  match name.toList.isPrefixOf? piece with
  | some (c :: rest) => some (String.ofList (c :: rest))
  | _ => none

/-- `[^/]+\.mcap` for a piece without a slash. -/
def isMcapName (piece : List Char) : Bool :=
  decide (5 < piece.length) && ['.', 'm', 'c', 'a', 'p'].isSuffixOf piece

/-- The file name in the last piece. The `$` of the pattern also matches in front of a last newline. -/
def leafName (piece : List Char) : Option String :=
  if isMcapName piece then
    some (String.ofList piece)
  else if piece.getLast? = some '\n' ∧ isMcapName piece.dropLast then
    some (String.ofList piece.dropLast)
  else
    none

def parseHiveKey (key : String) : Option Dims :=
  match (lstrip key).toList.splitOn '/' with
  | [customer, site, robot, source, date, leaf] => do
    let customer ← partitionValue "customer=" customer
    let site ← partitionValue "customer_site=" site
    let robot ← partitionValue "robot=" robot
    let source ← partitionValue "source=" source
    let date ← partitionValue "date=" date
    let filename ← leafName leaf
    some ⟨customer, site, robot, source, date, filename⟩
  | _ => none

def rebuildHiveKey (dims : Dims) : String :=
  "customer=" ++ dims.customer ++ "/" ++
    "customer_site=" ++ dims.site ++ "/" ++
    "robot=" ++ dims.robot ++ "/" ++
    "source=" ++ dims.source ++ "/" ++
    "date=" ++ dims.date ++ "/" ++
    dims.filename

/-- A field that can stand in a path. -/
structure IsField (text : String) : Prop where
  some : text ≠ ""
  noSlash : '/' ∉ text.toList

/-- Fields that a key can have. -/
structure Dims.Clean (dims : Dims) : Prop where
  customer : IsField dims.customer
  site : IsField dims.site
  robot : IsField dims.robot
  source : IsField dims.source
  date : IsField dims.date
  filename : IsField dims.filename
  mcap : isMcapName dims.filename.toList = true

variable {key name text : String} {dims : Dims} {piece : List Char}

lemma lstrip_eq (noSlash : key.toList.head? ≠ some '/') : lstrip key = key := by
  unfold lstrip
  have same : key.toList.dropWhile (· == '/') = key.toList := by
    cases chars : key.toList with
    | nil => rfl
    | cons c rest =>
      rw [chars] at noSlash
      rw [List.dropWhile_cons_of_neg]
      simpa using noSlash
  rw [same, String.ofList_toList]

lemma partitionValue_iff :
    partitionValue name piece = some text ↔ text ≠ "" ∧ name.toList ++ text.toList = piece := by
  unfold partitionValue
  constructor
  · intro parsed
    split at parsed
    · rename_i c rest stripped
      cases parsed
      refine ⟨?_, ?_⟩
      · intro empty
        have := congrArg String.toList empty
        simp at this
      · rw [String.toList_ofList]
        exact List.isPrefixOf?_eq_some_iff_append_eq.mp stripped
    · cases parsed
  · rintro ⟨nonempty, rfl⟩
    rw [List.isPrefixOf?_eq_some_iff_append_eq.mpr rfl]
    cases chars : text.toList with
    | nil => exact absurd (String.toList_inj.mp chars) nonempty
    | cons c rest => exact congrArg some (by rw [← chars, String.ofList_toList])

/-- The pieces of a key with some fields. -/
def Dims.pieces (dims : Dims) : List (List Char) :=
  ["customer=".toList ++ dims.customer.toList, "customer_site=".toList ++ dims.site.toList,
    "robot=".toList ++ dims.robot.toList, "source=".toList ++ dims.source.toList,
    "date=".toList ++ dims.date.toList, dims.filename.toList]

lemma toList_path {c c' s s' r r' x x' d d' f : String} :
    (c ++ c' ++ "/" ++ s ++ s' ++ "/" ++ r ++ r' ++ "/" ++ x ++ x' ++ "/" ++ d ++ d' ++ "/" ++ f).toList =
      ['/'].intercalate [c.toList ++ c'.toList, s.toList ++ s'.toList, r.toList ++ r'.toList,
        x.toList ++ x'.toList, d.toList ++ d'.toList, f.toList] := by
  simp only [String.toList_append, show "/".toList = ['/'] from rfl, List.intercalate, List.intersperse,
    List.flatten_cons, List.flatten_nil, List.append_assoc, List.append_nil]

lemma toList_rebuild : (rebuildHiveKey dims).toList = ['/'].intercalate dims.pieces := toList_path

lemma noSlash_partition (literal : '/' ∉ name.toList) (field : IsField text) :
    '/' ∉ name.toList ++ text.toList := by
  rw [List.mem_append, not_or]
  exact ⟨literal, field.noSlash⟩

/-- A file name is the last piece, or all of it but a newline. -/
lemma leafName_some (parsed : leafName piece = some text) : isMcapName text.toList = true ∧
    (piece = text.toList ∨ piece = text.toList ++ ['\n']) := by
  unfold leafName at parsed
  split at parsed
  · rename_i mcap
    cases parsed
    rw [String.toList_ofList]
    exact ⟨mcap, .inl rfl⟩
  · split at parsed
    · rename_i newline
      cases parsed
      rw [String.toList_ofList]
      exact ⟨newline.2, .inr (List.dropLast_append_getLast? _ newline.1).symm⟩
    · cases parsed

lemma parse_iff : parseHiveKey key = some dims ↔ ∃ customer site robot source date leaf,
    (lstrip key).toList.splitOn '/' = [customer, site, robot, source, date, leaf] ∧
    partitionValue "customer=" customer = some dims.customer ∧
    partitionValue "customer_site=" site = some dims.site ∧
    partitionValue "robot=" robot = some dims.robot ∧
    partitionValue "source=" source = some dims.source ∧
    partitionValue "date=" date = some dims.date ∧ leafName leaf = some dims.filename := by
  unfold parseHiveKey
  constructor
  · intro parsed
    split at parsed
    · rename_i customer site robot source date leaf pieces
      simp only [Option.bind_eq_bind, Option.bind_eq_some_iff, Option.some.injEq] at parsed
      obtain ⟨_, c, _, s, _, r, _, x, _, d, _, f, rfl⟩ := parsed
      exact ⟨customer, site, robot, source, date, leaf, pieces, c, s, r, x, d, f⟩
    · cases parsed
  · rintro ⟨customer, site, robot, source, date, leaf, pieces, c, s, r, x, d, f⟩
    rw [pieces]
    simp only [Option.bind_eq_bind, Option.bind_eq_some_iff, Option.some.injEq]
    exact ⟨_, c, _, s, _, r, _, x, _, d, _, f, rfl⟩

lemma head_rebuild : (rebuildHiveKey dims).toList.head? = some 'c' := by
  rw [toList_rebuild, Dims.pieces]
  simp only [List.intercalate, List.intersperse, List.flatten_cons, List.append_assoc, List.head?_append]
  rfl

lemma lstrip_rebuild : lstrip (rebuildHiveKey dims) = rebuildHiveKey dims := by
  apply lstrip_eq
  rw [head_rebuild]
  decide

lemma splitOn_rebuild (clean : dims.Clean) : (rebuildHiveKey dims).toList.splitOn '/' = dims.pieces := by
  rw [toList_rebuild]
  apply List.splitOn_intercalate
  · simp only [Dims.pieces, List.forall_mem_cons]
    exact ⟨noSlash_partition (by decide) clean.customer, noSlash_partition (by decide) clean.site,
      noSlash_partition (by decide) clean.robot, noSlash_partition (by decide) clean.source,
      noSlash_partition (by decide) clean.date, clean.filename.noSlash, by simp⟩
  · exact List.cons_ne_nil _ _

lemma parse_rebuild (clean : dims.Clean) : parseHiveKey (rebuildHiveKey dims) = some dims := by
  have pieces : (lstrip (rebuildHiveKey dims)).toList.splitOn '/' = dims.pieces := by
    rw [lstrip_rebuild, splitOn_rebuild clean]
  have leaf : leafName dims.filename.toList = some dims.filename := by
    rw [leafName, if_pos clean.mcap, String.ofList_toList]
  exact parse_iff.mpr ⟨_, _, _, _, _, _, pieces, partitionValue_iff.mpr ⟨clean.customer.some, rfl⟩,
    partitionValue_iff.mpr ⟨clean.site.some, rfl⟩, partitionValue_iff.mpr ⟨clean.robot.some, rfl⟩,
    partitionValue_iff.mpr ⟨clean.source.some, rfl⟩, partitionValue_iff.mpr ⟨clean.date.some, rfl⟩, leaf⟩

lemma isField_of_partition (parsed : partitionValue name piece = some text) (noSlash : '/' ∉ piece) :
    IsField text := by
  obtain ⟨nonempty, rfl⟩ := partitionValue_iff.mp parsed
  exact ⟨nonempty, fun mem => noSlash (List.mem_append_right _ mem)⟩

lemma isField_of_leaf (parsed : leafName piece = some text) (noSlash : '/' ∉ piece) : IsField text := by
  obtain ⟨mcap, same | newline⟩ := leafName_some parsed
  all_goals
    constructor
    · rintro rfl
      cases mcap
    · intro mem
      apply noSlash
      simp [*]

lemma clean_of_parse (parsed : parseHiveKey key = some dims) : dims.Clean := by
  obtain ⟨customer, site, robot, source, date, leaf, pieces, c, s, r, x, d, f⟩ := parse_iff.mp parsed
  have noSlash : ∀ piece ∈ [customer, site, robot, source, date, leaf], '/' ∉ piece := by
    intro piece mem
    exact notMem_of_mem_splitOn (pieces ▸ mem)
  exact ⟨isField_of_partition c (noSlash _ (by simp)), isField_of_partition s (noSlash _ (by simp)),
    isField_of_partition r (noSlash _ (by simp)), isField_of_partition x (noSlash _ (by simp)),
    isField_of_partition d (noSlash _ (by simp)), isField_of_leaf f (noSlash _ (by simp)),
    (leafName_some f).1⟩

lemma toList_of_pieces {customer site robot source date leaf : List Char}
    (pieces : (lstrip key).toList.splitOn '/' = [customer, site, robot, source, date, leaf])
    (c : partitionValue "customer=" customer = some dims.customer)
    (s : partitionValue "customer_site=" site = some dims.site)
    (r : partitionValue "robot=" robot = some dims.robot)
    (x : partitionValue "source=" source = some dims.source)
    (d : partitionValue "date=" date = some dims.date) {rest : List Char}
    (last : leaf = dims.filename.toList ++ rest) :
    (lstrip key).toList = (rebuildHiveKey dims).toList ++ rest := by
  have path : (lstrip key).toList = ['/'].intercalate [customer, site, robot, source, date, leaf] := by
    rw [← pieces, List.intercalate_splitOn]
  rw [path, toList_rebuild, Dims.pieces, (partitionValue_iff.mp c).2, (partitionValue_iff.mp s).2,
    (partitionValue_iff.mp r).2, (partitionValue_iff.mp x).2, (partitionValue_iff.mp d).2, last]
  simp only [List.intercalate, List.intersperse, List.flatten_cons, List.flatten_nil, List.append_nil,
    List.append_assoc]

lemma lstrip_of_parse (parsed : parseHiveKey key = some dims) :
    lstrip key = rebuildHiveKey dims ∨ lstrip key = rebuildHiveKey dims ++ "\n" := by
  obtain ⟨customer, site, robot, source, date, leaf, pieces, c, s, r, x, d, f⟩ := parse_iff.mp parsed
  obtain ⟨-, same | newline⟩ := leafName_some f
  · refine .inl (String.toList_inj.mp ?_)
    rw [toList_of_pieces pieces c s r x d (same.trans (List.append_nil _).symm), List.append_nil]
  · refine .inr (String.toList_inj.mp ?_)
    rw [toList_of_pieces pieces c s r x d newline, String.toList_append]
    rfl

lemma getLast_rebuild (clean : dims.Clean) : (rebuildHiveKey dims).toList.getLast? = some 'p' := by
  have mcap := clean.mcap
  unfold isMcapName at mcap
  rw [Bool.and_eq_true] at mcap
  obtain ⟨stem, leaf⟩ := List.isSuffixOf_iff_suffix.mp mcap.2
  unfold rebuildHiveKey
  rw [String.toList_append, ← leaf, ← List.append_assoc, List.getLast?_append_of_ne_nil _ (by simp)]
  rfl

lemma getLast_lstrip (some : lstrip key ≠ "") : (lstrip key).toList.getLast? = key.toList.getLast? := by
  have stripped : (lstrip key).toList = key.toList.dropWhile (· == '/') := String.toList_ofList
  obtain ⟨slashes, whole⟩ := List.dropWhile_suffix (l := key.toList) (· == '/')
  rw [← stripped] at whole
  rw [← whole, List.getLast?_append_of_ne_nil]
  intro empty
  exact some (String.toList_inj.mp empty)

/-- A parse is rebuilt to the key without its slashes unless that ends in a newline. -/
lemma rebuild_parse_iff (parsed : parseHiveKey key = some dims) :
    rebuildHiveKey dims = lstrip key ↔ key.toList.getLast? ≠ some '\n' := by
  have last := getLast_rebuild (clean_of_parse parsed)
  have nonempty : lstrip key ≠ "" := by
    intro empty
    obtain same | newline := lstrip_of_parse parsed
    · rw [← same, empty] at last
      cases last
    · have letters := congrArg (fun s => s.toList.getLast?) newline
      rw [empty] at letters
      simp at letters
  rw [← getLast_lstrip nonempty]
  obtain same | newline := lstrip_of_parse parsed
  · rw [same, last]
    simp
  · rw [newline, String.toList_append]
    constructor
    · intro same
      have lengths := congrArg String.length same
      simp at lengths
    · intro ends
      exact absurd (by simp) ends

end PjCloud.Builder
