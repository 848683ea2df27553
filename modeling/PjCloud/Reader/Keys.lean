import PjCloud.Builder.Objects
import PjCloud.Reader.Filter

/-!
# Object keys in the server

`parseHiveKey` (`server/internal/catalog/keyparse.go`) beside the one of the builder. Its `$` matches at the end of
the text only, so it accepts just the keys that are rebuilt, after slashes (`parse_iff`). A key with a slash in
front is stored without it, and the builder takes one with a newline at the end for the key without: the
identities of `key_identity` hold on the other keys, and only on them.
-/

namespace PjCloud.Reader
open Lib Builder
variable {cfg : Setup} {t : Tables} {row : FileRow} {key : String} {dims : Dims}

/-- `parseHiveKey` of the server. -/
def parseHiveKey (key : String) : Option Dims :=
  match (lstrip key).toList.splitOn '/' with
  | [customer, site, robot, source, date, leaf] => do
    let customer ← partitionValue "customer=" customer
    let site ← partitionValue "customer_site=" site
    let robot ← partitionValue "robot=" robot
    let source ← partitionValue "source=" source
    let date ← partitionValue "date=" date
    if isMcapName leaf then some ⟨customer, site, robot, source, date, String.ofList leaf⟩ else none
  | _ => none

/-- `rebuildHiveKey` of the fields of a file. -/
def keyOfDims (dims : Dims) : String :=
  rebuildHiveKey dims.customer dims.site dims.robot dims.source dims.date dims.filename

def objectKey (t : Tables) (row : FileRow) : Option String := (joinDims t row).map keyOfDims

/-! ## Parsing -/

lemma keyOfDims_eq : keyOfDims dims = Builder.rebuildHiveKey dims := by
  have site : "/customer_site=" = "/" ++ "customer_site=" := by decide
  have robot : "/robot=" = "/" ++ "robot=" := by decide
  have source : "/source=" = "/" ++ "source=" := by decide
  have date : "/date=" = "/" ++ "date=" := by decide
  unfold keyOfDims rebuildHiveKey Builder.rebuildHiveKey
  simp only [site, robot, source, date, String.append_assoc]

lemma parse_iff : parseHiveKey key = some dims ↔ dims.Clean ∧ lstrip key = Builder.rebuildHiveKey dims := by
  unfold parseHiveKey
  constructor
  · intro parsed
    split at parsed
    · rename_i customer site robot source date leaf pieces
      simp only [Option.bind_eq_bind, Option.bind_eq_some_iff] at parsed
      obtain ⟨_, c, _, s, _, r, _, x, _, d, f⟩ := parsed
      split at f
      · rename_i mcap
        cases f
        have name : leafName leaf = some (String.ofList leaf) := by rw [leafName, if_pos mcap]
        have own : Builder.parseHiveKey key = some ⟨_, _, _, _, _, String.ofList leaf⟩ :=
          Builder.parse_iff.mpr ⟨_, _, _, _, _, _, pieces, c, s, r, x, d, name⟩
        refine ⟨clean_of_parse own, String.toList_inj.mp ?_⟩
        have letters := @toList_of_pieces key ⟨_, _, _, _, _, String.ofList leaf⟩ _ _ _ _ _ _ pieces c s r x d []
          (by simp)
        rw [letters, List.append_nil]
      · cases f
    · cases parsed
  · rintro ⟨clean, same⟩
    rw [same, splitOn_rebuild clean, Dims.pieces]
    dsimp only
    rw [partitionValue_iff.mpr ⟨clean.customer.some, rfl⟩, partitionValue_iff.mpr ⟨clean.site.some, rfl⟩,
      partitionValue_iff.mpr ⟨clean.robot.some, rfl⟩, partitionValue_iff.mpr ⟨clean.source.some, rfl⟩,
      partitionValue_iff.mpr ⟨clean.date.some, rfl⟩]
    simp only [Option.bind_eq_bind, Option.bind_some, if_pos clean.mcap, String.ofList_toList]

/-- The two parsers agree, but for keys that the builder accepts with a newline at the end. -/
lemma parse_eq_iff : parseHiveKey key = Builder.parseHiveKey key ↔
    Builder.parseHiveKey key = none ∨ key.toList.getLast? ≠ some '\n' := by
  cases parsed : Builder.parseHiveKey key with
  | none =>
    refine ⟨fun _ => .inl rfl, fun _ => ?_⟩
    by_contra accepted
    obtain ⟨dims, own⟩ := Option.ne_none_iff_exists'.mp accepted
    obtain ⟨clean, same⟩ := parse_iff.mp own
    -- the builder parses what the rebuilt key is parsed to
    have rebuilt : Builder.parseHiveKey key = Builder.parseHiveKey (Builder.rebuildHiveKey dims) := by
      unfold Builder.parseHiveKey
      rw [same, lstrip_rebuild]
    rw [rebuilt, parse_rebuild clean] at parsed
    cases parsed
  | some dims =>
    rw [parse_iff, ← rebuild_parse_iff parsed]
    constructor
    · rintro ⟨-, same⟩
      exact .inr same.symm
    · rintro (refused | same)
      · cases refused
      · exact ⟨clean_of_parse parsed, same.symm⟩

/-- No field has a slash, and the name is that of a recording. -/
structure Dims.NoSlash (dims : Dims) : Prop where
  customer : '/' ∉ dims.customer.toList
  site : '/' ∉ dims.site.toList
  robot : '/' ∉ dims.robot.toList
  source : '/' ∉ dims.source.toList
  date : '/' ∉ dims.date.toList
  filename : '/' ∉ dims.filename.toList
  mcap : ['.', 'm', 'c', 'a', 'p'].isSuffixOf dims.filename.toList = true

/-- Something stands in every field, and in the name in front of `.mcap`. -/
structure Dims.Filled (dims : Dims) : Prop where
  customer : dims.customer ≠ ""
  site : dims.site ≠ ""
  robot : dims.robot ≠ ""
  source : dims.source ≠ ""
  date : dims.date ≠ ""
  filename : dims.filename ≠ ".mcap"

lemma clean_iff (noSlash : Dims.NoSlash dims) : dims.Clean ↔ Dims.Filled dims := by
  obtain ⟨stem, name⟩ := List.isSuffixOf_iff_suffix.mp noSlash.mcap
  constructor
  · intro clean
    refine ⟨clean.customer.some, clean.site.some, clean.robot.some, clean.source.some, clean.date.some, ?_⟩
    intro bare
    have mcap := clean.mcap
    rw [bare] at mcap
    exact absurd mcap (by decide)
  · intro filled
    have stemmed : stem ≠ [] := by
      rintro rfl
      apply filled.filename
      apply String.toList_inj.mp
      rw [← name]
      rfl
    refine ⟨⟨filled.customer, noSlash.customer⟩, ⟨filled.site, noSlash.site⟩, ⟨filled.robot, noSlash.robot⟩,
      ⟨filled.source, noSlash.source⟩, ⟨filled.date, noSlash.date⟩, ⟨?_, noSlash.filename⟩, ?_⟩
    · intro empty
      rw [empty] at name
      simp at name
    · unfold isMcapName
      rw [noSlash.mcap, Bool.and_true, decide_eq_true_eq, ← name, List.length_append]
      have := List.length_pos_iff.mpr stemmed
      simp only [List.length_cons, List.length_nil]
      omega

/-! ## Rows and their objects -/

lemma lstrip_eq_iff : lstrip key = key ↔ key.toList.head? ≠ some '/' := by
  refine ⟨?_, lstrip_eq⟩
  intro same slash
  have letters := congrArg String.toList same
  unfold lstrip at letters
  rw [String.toList_ofList] at letters
  obtain ⟨rest, chars⟩ := List.head?_eq_some_iff.mp slash
  rw [chars, List.dropWhile_cons_of_pos (by simp)] at letters
  have shorter := List.IsSuffix.length_le (List.dropWhile_suffix (l := rest) (· == '/'))
  rw [letters, List.length_cons] at shorter
  omega

lemma joinDims_of_compositeOf (names : SoundNames cfg t) (named : t.compositeOf dims = some row.composite) :
    joinDims t row = some dims := by
  obtain ⟨customer, site, robot, source, date, filename⟩ := compositeIds_eq_some.mp named
  have key : ∀ {d : Dict} {k : d.Key} {i : Nat}, t.names d k = some i → keyOf (t.dict d) i = some k :=
    fun {d} _ _ own => (names.dict d).keyOf_iff.mpr ((names.dict d).idOf_iff.mp own)
  unfold joinDims
  rw [key customer, key site, key robot, key source, ← date, ← filename]
  rfl

lemma objectKey_of_compositeOf (names : SoundNames cfg t) (named : t.compositeOf dims = some row.composite) :
    objectKey t row = some (Builder.rebuildHiveKey dims) := by
  unfold objectKey
  rw [joinDims_of_compositeOf names named, Option.map_some, keyOfDims_eq]

lemma objectKey_cataloged {w w' : World} {known : Option Stat} (free : CollisionFree cfg) (s3 : cfg.isLocal = false)
    (settled : Settled cfg w) (done : catalogObject cfg key known w = (.ok .cataloged, w')) :
    ∃ dims row, Builder.parseHiveKey key = some dims ∧ w'.conn.durable.fileOf dims = some row ∧
      objectKey w'.conn.durable row = some (lstrip key) := by
  obtain ⟨settled', handled⟩ := (ends_catalogObject free settled).ok done
  cases handled with
  | wrote keyDims grows files named wrote =>
    rename_i dims effKey stat summary t₁ c
    obtain rfl := keyDims.own s3
    cases wrote with
    | cataloged cataloged =>
      obtain ⟨t₂, row, grows₂, names₂, composite, -, laid, shape⟩ := cataloged
      have named₂ : t₂.compositeOf dims = some row.composite := by
        rw [composite]
        exact grows₂.compositeOf named
      have found : (t₂.catalogFile row (cfg.deriveTags summary) effKey).fileOf dims = _ :=
        (files.mono grows₂).fileOf_catalogFile names₂ (clean_of_parse keyDims.parsed) named₂ laid.set
      rw [if_pos rfl, ← shape] at found
      refine ⟨dims, _, keyDims.parsed, found, ?_⟩
      rw [objectKey_of_compositeOf settled'.names (settled'.files.fileOf_iff.mp found).2, keyDims.rebuilt]

/-- A row that `delete_by_key` removes is that of the fields of the key. -/
lemma objectKey_deleted {w w' : World} {found : Bool} (settled : Settled cfg w)
    (done : deleteByKey cfg key w = (.ok found, w')) (before : row ∈ w.conn.durable.files)
    (after : row ∉ w'.conn.durable.files) :
    ∃ dims, Builder.parseHiveKey key = some dims ∧
      objectKey w.conn.durable row = some (Builder.rebuildHiveKey dims) := by
  obtain ⟨-, deleted⟩ := (ends_deleteByKey settled).ok done
  cases deleted with
  | unknown _ same =>
    rw [same] at after
    exact absurd before after
  | gone parsed named same =>
    rename_i dims c
    refine ⟨dims, parsed, objectKey_of_compositeOf settled.names ?_⟩
    by_contra other
    apply after
    rw [same]
    refine mem_deleteFiles.mpr ⟨before, decide_eq_false ?_⟩
    rintro rfl
    exact other named

/-! ## The identities, and where they end -/

def smallKey : String := "customer=a/customer_site=b/robot=c/source=d/date=e/f.mcap"

def smallDims : Dims := ⟨"a", "b", "c", "d", "e", "f.mcap"⟩

def smallSummary : Builder.FileSummary := ⟨1, 9, 5, 1, [⟨"/t", "S", "ros2msg", 2⟩, ⟨"/t", "T", "ros2msg", 3⟩]⟩

def smallBucket (key : String) : World :=
  { bucket := fun k => if k = key then some ⟨⟨7, "x", 3⟩, .ok smallSummary, none⟩ else none }

def smallCataloged (key : String) : World := (catalogObject calmSetup key none (smallBucket key)).2

def objectKeys (t : Tables) : List (Option String) := t.files.map (objectKey t)

end PjCloud.Reader
