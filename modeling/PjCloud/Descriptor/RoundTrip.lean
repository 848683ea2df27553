import PjCloud.Descriptor.Codec

/-!
# Round trips of descriptors

What is accepted is the fields of a well-formed descriptor, with the shown name or without it, and with any decimal
texts of its window (`parseFields_iff`). The canonical text is one of these and not longer than the text that was
accepted. The text with the shown name can be longer than that, since it is written also if it was left out.
-/

namespace PjCloud.Descriptor
open Lib Json Ascii
variable {fields : List (String × Value)} {field text : String} {d d' : SourceDescriptor} {lib : Library}

/-! ## Decimal texts -/

lemma digit_of_char {c : Char} (digit : ¬ (c < '0' ∨ '9' < c)) : 48 ≤ c.toNat ∧ c.toNat ≤ 57 := by
  rw [not_or] at digit
  obtain ⟨low, high⟩ := digit
  exact ⟨Char.le_def.mp (Char.not_lt.mp low), Char.le_def.mp (Char.not_lt.mp high)⟩

lemma parseDigits_eq {value : Nat} {n : Int} {chars : List Char} (parsed : parseDigits value chars = some n)
    (fits : (value : Int) ≤ maxInt64) :
    n = Nat.ofDigitChars 10 chars value ∧ n ≤ maxInt64 ∧ ∀ c ∈ chars, c.isDigit = true := by
  induction chars generalizing value with
  | nil =>
    cases parsed
    exact ⟨rfl, fits, by simp⟩
  | cons c rest ih =>
    unfold parseDigits at parsed
    split at parsed
    · cases parsed
    · rename_i digit
      obtain ⟨low, high⟩ := digit_of_char digit
      dsimp only at parsed
      split at parsed
      · cases parsed
      · rename_i room
        have next : (value : Int) * 10 + (c.toNat - 48) = ((10 * value + (c.toNat - '0'.toNat) : Nat) : Int) := by
          have zero : '0'.toNat = 48 := rfl
          omega
        rw [next] at parsed
        unfold maxInt64 at *
        obtain ⟨same, small, digits⟩ := ih parsed (by omega)
        refine ⟨?_, small, ?_⟩
        · rw [Nat.ofDigitChars_cons]
          exact same
        · intro d mem
          rcases List.mem_cons.mp mem with rfl | mem
          · exact isDigit_iff.mpr ⟨low, high⟩
          · exact digits d mem

lemma parseDigits_ofDigitChars {value : Nat} {chars : List Char} (digits : ∀ c ∈ chars, c.isDigit = true)
    (fits : (Nat.ofDigitChars 10 chars value : Int) ≤ maxInt64) :
    parseDigits value chars = some ((Nat.ofDigitChars 10 chars value : Nat) : Int) := by
  induction chars generalizing value with
  | nil => rfl
  | cons c rest ih =>
    obtain ⟨low, high⟩ := isDigit_iff.mp (digits c List.mem_cons_self)
    have grows : ∀ (chars : List Char) (v : Nat), v ≤ Nat.ofDigitChars 10 chars v := by
      intro chars
      induction chars with
      | nil => exact fun v => Nat.le_refl v
      | cons c chars ih =>
        intro v
        rw [Nat.ofDigitChars_cons]
        exact Nat.le_trans (by omega) (ih _)
    rw [Nat.ofDigitChars_cons] at fits ⊢
    have zero : '0'.toNat = 48 := rfl
    have upto := grows rest (10 * value + (c.toNat - '0'.toNat))
    have next : (value : Int) * 10 + (c.toNat - 48) = ((10 * value + (c.toNat - '0'.toNat) : Nat) : Int) := by omega
    unfold parseDigits
    rw [if_neg]
    · dsimp only
      rw [next, if_neg, ih (fun d mem => digits d (List.mem_cons_of_mem _ mem)) fits]
      unfold maxInt64 at *
      omega
    · rintro (less | more)
      · exact absurd (Char.lt_def.mp less) (by change ¬ (c.toNat < 48); omega)
      · exact absurd (Char.lt_def.mp more) (by change ¬ (57 < c.toNat); omega)

lemma ofDigitChars_lt {chars : List Char} (digits : ∀ c ∈ chars, c.isDigit = true) (value : Nat) :
    Nat.ofDigitChars 10 chars value < (value + 1) * 10 ^ chars.length := by
  induction chars generalizing value with
  | nil => simp
  | cons c rest ih =>
    have zero : '0'.toNat = 48 := rfl
    obtain ⟨low, high⟩ := isDigit_iff.mp (digits c List.mem_cons_self)
    rw [Nat.ofDigitChars_cons, List.length_cons, Nat.pow_succ]
    calc Nat.ofDigitChars 10 rest (10 * value + (c.toNat - '0'.toNat))
        < (10 * value + (c.toNat - '0'.toNat) + 1) * 10 ^ rest.length :=
          ih (fun d mem => digits d (List.mem_cons_of_mem _ mem)) _
      _ ≤ ((value + 1) * 10) * 10 ^ rest.length := Nat.mul_le_mul_right _ (by omega)
      _ = (value + 1) * (10 ^ rest.length * 10) := by rw [Nat.mul_assoc, Nat.mul_comm 10]

/-- A time that fits 64 bits. -/
structure InRange (n : Int) : Prop where
  nonneg : 0 ≤ n
  fits : n ≤ maxInt64

lemma toString_toList {n : Int} (nonneg : 0 ≤ n) : (toString n).toList = Nat.toDigits 10 n.toNat := by
  obtain ⟨m, rfl⟩ := Int.eq_ofNat_of_zero_le nonneg
  exact Nat.toList_repr

lemma length_toDigits_le {m : Nat} (fits : (m : Int) ≤ maxInt64) : (Nat.toDigits 10 m).length ≤ 19 := by
  refine (Nat.length_toDigits_le_iff (by decide) (by decide)).mpr ?_
  unfold maxInt64 at fits
  omega

lemma parseDecimalNs_toString {n : Int} (range : InRange n) : parseDecimalNs (toString n) = some n := by
  have chars := toString_toList range.nonneg
  obtain ⟨m, rfl⟩ := Int.eq_ofNat_of_zero_le range.nonneg
  rw [Int.toNat_natCast] at chars
  have digits : ∀ c ∈ Nat.toDigits 10 m, c.isDigit = true :=
    fun c mem => Nat.isDigit_of_mem_toDigits (by decide) (by decide) mem
  have back : Nat.ofDigitChars 10 (Nat.toDigits 10 m) 0 = m := Nat.ofDigitChars_toDigits (by decide) (by decide)
  have size : (toString (m : Int)).utf8ByteSize ≤ 19 := by
    rw [← String.ofList_toList (s := toString (m : Int)), String.utf8ByteSize_ofList, chars, size_digits digits]
    exact length_toDigits_le range.fits
  unfold parseDecimalNs
  rw [if_neg, chars]
  · have read := parseDigits_ofDigitChars digits (by rw [back]; exact range.fits)
    rw [back] at read
    exact read
  · rintro (empty | long)
    · have some : 0 < (Nat.toDigits 10 m).length := Nat.length_toDigits_pos
      rw [← chars, empty] at some
      cases some
    · omega

lemma of_parseDecimalNs {s : String} {n : Int} (parsed : parseDecimalNs s = some n) :
    InRange n ∧ String.utf8Len (quote (toString n)) ≤ String.utf8Len (quote s) ∧ s.utf8ByteSize ≤ kMaxStringBytes := by
  unfold parseDecimalNs at parsed
  split at parsed
  · cases parsed
  · rename_i plain
    rw [not_or, Nat.not_lt] at plain
    obtain ⟨nonempty, short⟩ := plain
    have parsed : parseDigits ((0 : Nat) : Int) s.toList = some n := parsed
    obtain ⟨rfl, fits, digits⟩ := parseDigits_eq parsed (by decide)
    have range : InRange ((Nat.ofDigitChars 10 s.toList 0 : Nat) : Int) := ⟨Int.natCast_nonneg _, fits⟩
    have chars := toString_toList range.nonneg
    rw [Int.toNat_natCast] at chars
    refine ⟨range, ?_, Nat.le_trans short (by decide)⟩
    have own : ∀ c ∈ (toString ((Nat.ofDigitChars 10 s.toList 0 : Nat) : Int)).toList, c.isDigit = true := by
      rw [chars]
      exact fun c mem => Nat.isDigit_of_mem_toDigits (by decide) (by decide) mem
    rw [size_quote_digits own, size_quote_digits digits, chars]
    have some : 0 < s.toList.length := by
      rw [List.length_pos_iff]
      intro empty
      exact nonempty (String.toList_injective empty)
    have bound : Nat.ofDigitChars 10 s.toList 0 < 10 ^ s.toList.length := by
      have less := ofDigitChars_lt digits 0
      rw [Nat.zero_add, Nat.one_mul] at less
      exact less
    have fewer := (Nat.length_toDigits_le_iff (by decide) some).mpr bound
    omega

/-! ## Parts of a descriptor -/

lemma takeString_ok : takeString fields field = .ok text ↔
    fields.lookup field = some (.str text) ∧ text.utf8ByteSize ≤ kMaxStringBytes := by
  unfold takeString
  cases fields.lookup field with
  | none => simp
  | some value =>
    cases value with
    | str s =>
      dsimp only
      split
      · rename_i long
        refine ⟨by rintro ⟨⟩, ?_⟩
        rintro ⟨⟨⟩, short⟩
        exact absurd long (Nat.not_lt.mpr short)
      · rename_i short
        constructor
        · rintro ⟨⟩
          exact ⟨rfl, Nat.not_lt.mp short⟩
        · rintro ⟨⟨⟩, -⟩
          rfl
    | _ => simp

lemma takeEntries_ok {entries : List (Option String)} {values : List String} :
    takeEntries field entries = .ok values ↔
      entries = values.map some ∧ ∀ value ∈ values, value.utf8ByteSize ≤ kMaxStringBytes := by
  induction entries generalizing values with
  | nil =>
    unfold takeEntries
    constructor
    · rintro ⟨⟩
      exact ⟨rfl, by simp⟩
    · rintro ⟨empty, -⟩
      rw [List.map_eq_nil_iff.mp empty.symm]
  | cons entry rest ih =>
    cases entry with
    | none =>
      unfold takeEntries
      refine ⟨by rintro ⟨⟩, ?_⟩
      rintro ⟨same, -⟩
      cases values <;> cases same
    | some value =>
      unfold takeEntries
      split
      · rename_i long
        refine ⟨by rintro ⟨⟩, ?_⟩
        rintro ⟨same, short⟩
        cases values with
        | nil => cases same
        | cons value' values =>
          cases same
          exact absurd long (Nat.not_lt.mpr (short value List.mem_cons_self))
      · rename_i short
        rw [bind_ok_iff]
        constructor
        · rintro ⟨values', taken, ⟨⟩⟩
          obtain ⟨same, shorts⟩ := ih.mp taken
          refine ⟨by rw [same, List.map_cons], ?_⟩
          intro x mem
          rcases List.mem_cons.mp mem with rfl | mem
          · exact Nat.not_lt.mp short
          · exact shorts x mem
        · rintro ⟨same, shorts⟩
          cases values with
          | nil => cases same
          | cons value' values =>
            injection same with head tail
            cases head
            exact ⟨values, ih.mpr ⟨tail, fun x mem => shorts x (List.mem_cons_of_mem _ mem)⟩, rfl⟩

/-- Texts that an array can have. -/
structure ShortTexts (maxEntries : Nat) (texts : List String) : Prop where
  count : texts.length ≤ maxEntries
  sizes : ∀ text ∈ texts, text.utf8ByteSize ≤ kMaxStringBytes

lemma takeStringArray_ok {maxEntries : Nat} {texts : List String} :
    takeStringArray fields field maxEntries = .ok texts ↔
      fields.lookup field = some (.array (texts.map some)) ∧ ShortTexts maxEntries texts := by
  unfold takeStringArray
  cases fields.lookup field with
  | none => simp
  | some value =>
    cases value with
    | array entries =>
      dsimp only
      split
      · rename_i many
        refine ⟨by rintro ⟨⟩, ?_⟩
        rintro ⟨⟨⟩, few, -⟩
        rw [List.length_map] at many
        exact absurd many (Nat.not_lt.mpr few)
      · rename_i few
        rw [takeEntries_ok]
        constructor
        · rintro ⟨rfl, sizes⟩
          rw [List.length_map] at few
          exact ⟨rfl, Nat.not_lt.mp few, sizes⟩
        · rintro ⟨⟨⟩, -, sizes⟩
          exact ⟨rfl, sizes⟩
    | _ => simp

lemma takeNs_ok {n : Int} : takeNs fields field = .ok n ↔
    ∃ text, fields.lookup field = some (.str text) ∧ parseDecimalNs text = some n := by
  unfold takeNs
  rw [bind_ok_iff]
  constructor
  · rintro ⟨text, taken, parsed⟩
    refine ⟨text, (takeString_ok.mp taken).1, ?_⟩
    cases read : parseDecimalNs text with
    | none =>
      rw [read] at parsed
      cases parsed
    | some n' =>
      rw [read] at parsed
      cases parsed
      rfl
  · rintro ⟨text, found, parsed⟩
    refine ⟨text, takeString_ok.mpr ⟨found, (of_parseDecimalNs parsed).2.2⟩, ?_⟩
    rw [parsed]
    rfl

lemma checkVersion_ok {u : Unit} : checkVersion fields = .ok u ↔ fields.lookup "v" = some (.int 1) := by
  unfold checkVersion
  cases fields.lookup "v" with
  | none => simp
  | some value =>
    cases value with
    | int n =>
      dsimp only
      split
      · rename_i one
        simp [one]
      · rename_i other
        simp [other]
    | _ => simp

lemma checkKind_ok {kind : String} {u : Unit} : checkKind kind = .ok u ↔ kind = kSelectionKind ∨ kind = kSessionKind := by
  unfold checkKind
  split <;> simp_all

lemma checkFields_ok {kind : String} {u : Unit} : checkFields fields kind = .ok u ↔
    ∀ key ∈ fields.map Prod.fst, key ∈ kindFields kind := by
  unfold checkFields
  cases found : (fields.map Prod.fst).find? (· ∉ kindFields kind) with
  | none =>
    refine ⟨fun _ key mem => ?_, fun _ => rfl⟩
    simpa using List.find?_eq_none.mp found key mem
  | some key =>
    refine ⟨by rintro ⟨⟩, fun all => ?_⟩
    have unknown := List.find?_some found
    exact absurd (all key (List.mem_of_find?_eq_some found)) (by simpa using unknown)

lemma takeDisplayName_ok : takeDisplayName fields = .ok text ↔
    (fields.lookup "display_name" = none ∧ text = "") ∨
      (fields.lookup "display_name" = some (.str text) ∧ text.utf8ByteSize ≤ kMaxStringBytes) := by
  unfold takeDisplayName
  split
  · rename_i there
    rw [takeString_ok]
    constructor
    · exact .inr
    · rintro (⟨absent, -⟩ | found)
      · rw [absent] at there
        cases there
      · exact found
  · rename_i absent
    rw [Bool.not_eq_true, Option.isSome_eq_false_iff, Option.isNone_iff_eq_none] at absent
    rw [absent]
    constructor
    · rintro ⟨⟩
      exact .inl ⟨rfl, rfl⟩
    · rintro (⟨-, rfl⟩ | ⟨⟨⟩, -⟩)
      rfl

lemma takeLatched_ok {b : Bool} : takeLatched fields = .ok b ↔ fields.lookup "include_latched" = some (.bool b) := by
  unfold takeLatched
  cases fields.lookup "include_latched" with
  | none => simp
  | some value => cases value <;> simp

lemma checkWindow_ok {startNs endNs : Int} {u : Unit} : checkWindow startNs endNs = .ok u ↔ startNs ≤ endNs := by
  unfold checkWindow
  split
  · rename_i less
    refine ⟨by rintro ⟨⟩, fun le => absurd less (Int.not_lt.mpr le)⟩
  · rename_i notLess
    exact ⟨fun _ => Int.not_lt.mp notLess, fun _ => rfl⟩

/-! ## Well-formed descriptors -/

/-- What both kinds have. -/
structure Common (d : SourceDescriptor) : Prop where
  version : d.version = 1
  uriSize : d.serverUri.utf8ByteSize ≤ kMaxStringBytes
  uri : validateServerUri d.serverUri = .ok ()
  nameSize : d.displayName.utf8ByteSize ≤ kMaxStringBytes

/-- A selection has none of the fields of a session. -/
structure Selection (d : SourceDescriptor) : Prop extends Common d where
  kind : d.kind = kSelectionKind
  idSize : d.selectionId.utf8ByteSize ≤ kMaxStringBytes
  id : d.selectionId ≠ ""
  rest : d = { kind := d.kind, serverUri := d.serverUri, selectionId := d.selectionId, displayName := d.displayName }

/-- A session has no selection id. -/
structure Session (d : SourceDescriptor) : Prop extends Common d where
  kind : d.kind = kSessionKind
  keys : ShortTexts kMaxKeys d.s3Keys
  topics : ShortTexts kMaxTopics d.topics
  checked : checkKeys d.s3Keys = .ok ()
  window : d.startNs ≤ d.endNs
  rest : d.selectionId = ""

/-- The fields of a descriptor without its shown name. -/
inductive Raw (d : SourceDescriptor) : List (String × Out) → Prop
  | selection : Selection d → Raw d (selectionOut d)
  | session {startNs endNs : String} : Session d → parseDecimalNs startNs = some d.startNs →
      parseDecimalNs endNs = some d.endNs → Raw d (sessionOut d startNs endNs)

/-- The shown name may be left out if it is empty. -/
inductive Shown (d : SourceDescriptor) : List (String × Out) → Prop
  | absent : d.displayName = "" → Shown d []
  | there : Shown d [("display_name", .str d.displayName)]

/-- Each of these fields is found. -/
def Finds (fields : List (String × Value)) (out : List (String × Out)) : Prop :=
  ∀ field ∈ out, fields.lookup field.1 = some field.2.view

lemma parseSelection_ok {d₀ : SourceDescriptor} : parseSelection fields d₀ = .ok d ↔
    ∃ id, (fields.lookup "selection_id" = some (.str id) ∧ id.utf8ByteSize ≤ kMaxStringBytes) ∧ id ≠ "" ∧
      d = { d₀ with selectionId := id } := by
  unfold parseSelection
  simp only [bind_ok_iff, takeString_ok]
  refine exists_congr fun id => and_congr_right fun _ => ?_
  split
  · rename_i empty
    simp [empty]
  · rename_i some
    refine ⟨?_, ?_⟩
    · rintro ⟨⟩
      exact ⟨some, rfl⟩
    · rintro ⟨-, rfl⟩
      rfl

lemma parseSession_ok {d₀ : SourceDescriptor} : parseSession fields d₀ = .ok d ↔
    ∃ keys topics, (fields.lookup "s3_keys" = some (.array (keys.map some)) ∧ ShortTexts kMaxKeys keys) ∧
      (fields.lookup "topics" = some (.array (topics.map some)) ∧ ShortTexts kMaxTopics topics) ∧
      checkKeys keys = .ok () ∧
      ∃ startNs endNs start fin, fields.lookup "start_ns" = some (.str startNs) ∧
        parseDecimalNs startNs = some start ∧ fields.lookup "end_ns" = some (.str endNs) ∧
        parseDecimalNs endNs = some fin ∧
        ∃ latched, fields.lookup "include_latched" = some (.bool latched) ∧ start ≤ fin ∧
          d = { d₀ with s3Keys := keys, topics := topics, startNs := start, endNs := fin, includeLatched := latched } := by
  unfold parseSession
  simp only [bind_ok_iff, takeStringArray_ok, takeNs_ok, takeLatched_ok, checkWindow_ok]
  constructor
  · rintro ⟨keys, keysField, topics, topicsField, ⟨⟩, checked, start, ⟨startNs, startField, startRead⟩, fin,
      ⟨endNs, endField, endRead⟩, latched, latchedField, -, window, ⟨⟩⟩
    exact ⟨keys, topics, keysField, topicsField, checked, startNs, endNs, start, fin, startField, startRead, endField,
      endRead, latched, latchedField, window, rfl⟩
  · rintro ⟨keys, topics, keysField, topicsField, checked, startNs, endNs, start, fin, startField, startRead,
      endField, endRead, latched, latchedField, window, rfl⟩
    exact ⟨keys, keysField, topics, topicsField, (), checked, start, ⟨startNs, startField, startRead⟩, fin,
      ⟨endNs, endField, endRead⟩, latched, latchedField, (), window, rfl⟩

lemma Raw.ascending {raw : List (String × Out)} (own : Raw d raw) (name : Out) :
    Ascending (("display_name", name) :: raw) := by
  cases own with
  | selection _ =>
    change List.Pairwise (· < ·) ["display_name", "kind", "selection_id", "server_uri", "v"]
    decide
  | session _ _ _ =>
    change List.Pairwise (· < ·) ["display_name", "end_ns", "include_latched", "kind", "s3_keys", "server_uri",
      "start_ns", "topics", "v"]
    decide

lemma Shown.ascending {shown raw : List (String × Out)} (shows : Shown d shown) (own : Raw d raw) :
    Ascending (shown ++ raw) := by
  cases shows with
  | absent _ => exact List.Pairwise.of_cons (own.ascending (.str ""))
  | there => exact own.ascending _

lemma Raw.keys {raw : List (String × Out)} (own : Raw d raw) {key : String} :
    key ∈ kindFields d.kind ↔ key = "display_name" ∨ key ∈ raw.map Prod.fst := by
  cases own with
  | selection well =>
    rw [well.kind]
    change key ∈ ["v", "kind", "server_uri", "selection_id", "display_name"] ↔
      key = "display_name" ∨ key ∈ ["kind", "selection_id", "server_uri", "v"]
    simp only [List.mem_cons, List.not_mem_nil, or_false]
    tauto
  | session well _ _ =>
    rw [well.kind]
    change key ∈ ["v", "kind", "server_uri", "s3_keys", "topics", "start_ns", "end_ns", "include_latched",
      "display_name"] ↔ key = "display_name" ∨ key ∈ ["end_ns", "include_latched", "kind", "s3_keys", "server_uri",
        "start_ns", "topics", "v"]
    simp only [List.mem_cons, List.not_mem_nil, or_false]
    tauto

lemma Shown.keys {shown raw : List (String × Out)} (shows : Shown d shown) (own : Raw d raw) {key : String}
    (mem : key ∈ (shown ++ raw).map Prod.fst) : key ∈ kindFields d.kind := by
  rw [List.map_append] at mem
  refine own.keys.mpr ?_
  rcases List.mem_append.mp mem with mem | mem
  · cases shows with
    | absent _ => cases mem
    | there => exact .inl (List.mem_singleton.mp mem)
  · exact .inr mem

lemma eq_view_of_finds (ascending : Ascending fields) {raw : List (String × Out)} (own : Raw d raw)
    (known : ∀ key ∈ fields.map Prod.fst, key ∈ kindFields d.kind) (finds : Finds fields raw)
    (name : (fields.lookup "display_name" = none ∧ d.displayName = "") ∨
      fields.lookup "display_name" = some (.str d.displayName)) :
    ∃ shown, Shown d shown ∧ fields = view (shown ++ raw) := by
  have found : ∀ {out}, Finds fields out → ∀ field ∈ view out, fields.lookup field.1 = some field.2 := by
    intro out finds field mem
    obtain ⟨own, mem', rfl⟩ := List.mem_map.mp mem
    exact finds own mem'
  rcases name with ⟨absent, empty⟩ | there
  · have shows : Shown d [] := .absent empty
    refine ⟨[], shows, ascending.eq_of_keys (shows.ascending own).view (found finds) ?_⟩
    intro key mem
    rw [keys_view]
    rcases own.keys.mp (known key mem) with rfl | mem'
    · obtain ⟨value, some⟩ := mem_keys_iff.mp mem
      rw [absent] at some
      cases some
    · exact mem'
  · have shows : Shown d [("display_name", .str d.displayName)] := .there
    refine ⟨_, shows, ascending.eq_of_keys (shows.ascending own).view (found ?_) ?_⟩
    · intro field mem
      rcases List.mem_cons.mp mem with rfl | mem
      · exact there
      · exact finds field mem
    · intro key mem
      rw [keys_view]
      exact List.mem_cons.mpr (own.keys.mp (known key mem))

lemma finds_view {out : List (String × Out)} (ascending : Ascending out) : Finds (view out) out := by
  intro field mem
  exact ascending.view.lookup (List.mem_map_of_mem mem)

lemma Shown.name {shown raw : List (String × Out)} (shows : Shown d shown) (own : Raw d raw) :
    ((view (shown ++ raw)).lookup "display_name" = none ∧ d.displayName = "") ∨
      (view (shown ++ raw)).lookup "display_name" = some (.str d.displayName) := by
  cases shows with
  | there => exact .inr List.lookup_cons_self
  | absent empty =>
    refine .inl ⟨?_, empty⟩
    cases own with
    | selection _ => rfl
    | session _ _ _ => rfl

lemma Raw.common {raw : List (String × Out)} (own : Raw d raw) :
    Common d ∧ (d.kind = kSelectionKind ∨ d.kind = kSessionKind) := by
  cases own with
  | selection well => exact ⟨well.toCommon, .inl well.kind⟩
  | session well _ _ => exact ⟨well.toCommon, .inr well.kind⟩

lemma parseFields_iff (ascending : Ascending fields) : parseFields fields = .ok d ↔
    ∃ shown raw, Shown d shown ∧ Raw d raw ∧ fields = view (shown ++ raw) := by
  unfold parseFields
  simp only [bind_ok_iff, checkVersion_ok, takeString_ok, checkKind_ok, checkFields_ok, takeDisplayName_ok]
  constructor
  · rintro ⟨-, version, kind, ⟨kindField, -⟩, -, kinds, -, known, uri, ⟨uriField, uriSize⟩, ⟨⟩, valid, name,
      nameField, parsed⟩
    have nameSize : name.utf8ByteSize ≤ kMaxStringBytes := by
      rcases nameField with ⟨-, rfl⟩ | ⟨-, size⟩
      · decide
      · exact size
    have named := nameField.imp_right And.left
    rcases kinds with rfl | rfl
    · rw [if_pos rfl] at parsed
      obtain ⟨id, ⟨idField, idSize⟩, some, same⟩ := parseSelection_ok.mp parsed
      have well : Selection d := by
        subst same
        exact { version := rfl, uriSize := uriSize, uri := valid, nameSize, kind := rfl, idSize, id := some, rest := rfl }
      have finds : Finds fields (selectionOut d) := by
        subst same
        simp only [Finds, selectionOut, List.forall_mem_cons]
        exact ⟨kindField, idField, uriField, version, by simp⟩
      subst same
      obtain ⟨shown, shows, same⟩ := eq_view_of_finds ascending (.selection well) known finds named
      exact ⟨shown, _, shows, .selection well, same⟩
    · rw [if_neg (by decide)] at parsed
      obtain ⟨keys, topics, ⟨keysField, keysShort⟩, ⟨topicsField, topicsShort⟩, checked, startNs, endNs, start, fin,
        startField, startRead, endField, endRead, latched, latchedField, window, same⟩ := parseSession_ok.mp parsed
      have well : Session d := by
        subst same
        exact { version := rfl, uriSize := uriSize, uri := valid, nameSize, kind := rfl, keys := keysShort,
                topics := topicsShort, checked, window, rest := rfl }
      have finds : Finds fields (sessionOut d startNs endNs) := by
        subst same
        simp only [Finds, sessionOut, List.forall_mem_cons]
        exact ⟨endField, latchedField, kindField, keysField, uriField, startField, topicsField, version, by simp⟩
      subst same
      have own : Raw _ _ := .session well startRead endRead
      obtain ⟨shown, shows, same⟩ := eq_view_of_finds ascending own known finds named
      exact ⟨shown, _, shows, own, same⟩
  · rintro ⟨shown, raw, shows, own, same⟩
    have finds : Finds fields (shown ++ raw) := by
      rw [same]
      exact finds_view (shows.ascending own)
    have named := shows.name own
    rw [← same] at named
    obtain ⟨common, kinds⟩ := own.common
    have known : ∀ key ∈ fields.map Prod.fst, key ∈ kindFields d.kind := by
      intro key mem
      rw [same, keys_view] at mem
      exact shows.keys own mem
    have kindSize : d.kind.utf8ByteSize ≤ kMaxStringBytes := by
      rcases kinds with kind | kind <;> rw [kind] <;> decide
    have name' := named.imp_right fun found => And.intro found common.nameSize
    have rest := (List.forall_mem_append.mp finds).2
    cases own with
    | selection well =>
      simp only [selectionOut, List.forall_mem_cons] at rest
      obtain ⟨kindField, idField, uriField, version, -⟩ := rest
      rw [well.version] at version
      refine ⟨(), version, d.kind, ⟨kindField, kindSize⟩, (), kinds, (), known, d.serverUri,
        ⟨uriField, common.uriSize⟩, (), common.uri, d.displayName, name', ?_⟩
      rw [if_pos well.kind]
      exact parseSelection_ok.mpr ⟨d.selectionId, ⟨idField, well.idSize⟩, well.id, well.rest⟩
    | session well startRead endRead =>
      simp only [sessionOut, List.forall_mem_cons] at rest
      obtain ⟨endField, latchedField, kindField, keysField, uriField, startField, topicsField, version, -⟩ := rest
      rw [well.version] at version
      refine ⟨(), version, d.kind, ⟨kindField, kindSize⟩, (), kinds, (), known, d.serverUri,
        ⟨uriField, common.uriSize⟩, (), common.uri, d.displayName, name', ?_⟩
      rw [if_neg (by rw [well.kind]; decide)]
      refine parseSession_ok.mpr ⟨d.s3Keys, d.topics, ⟨keysField, well.keys⟩, ⟨topicsField, well.topics⟩, well.checked,
        _, _, d.startNs, d.endNs, startField, startRead, endField, endRead, d.includeLatched, latchedField, well.window,
        ?_⟩
      rw [← well.version, ← well.rest]

/-! ## Texts -/

lemma parse_iff {json : String} : parseSourceDescriptor lib json = .ok d ↔
    json.utf8ByteSize ≤ kMaxDescriptorBytes ∧
      ∃ shown raw, Shown d shown ∧ Raw d raw ∧ lib.parse json = some (some (view (shown ++ raw))) := by
  unfold parseSourceDescriptor
  split
  · rename_i long
    refine ⟨by rintro ⟨⟩, ?_⟩
    rintro ⟨short, -⟩
    exact absurd long (Nat.not_lt.mpr short)
  · rename_i short
    rw [Nat.not_lt] at short
    cases parsed : lib.parse json with
    | none => simp
    | some object =>
      cases object with
      | none => simp
      | some fields =>
        have iff := parseFields_iff (d := d) (lib.ascending parsed)
        simp only [Option.some.injEq]
        exact ⟨fun ok => ⟨short, iff.mp ok⟩, fun ok => iff.mpr ok.2⟩

lemma parse_dump_iff {shown raw : List (String × Out)} (shows : Shown d shown) (own : Raw d raw) :
    parseSourceDescriptor lib (dump (shown ++ raw)) = .ok d ↔
      (dump (shown ++ raw)).utf8ByteSize ≤ kMaxDescriptorBytes := by
  rw [parse_iff]
  refine ⟨And.left, fun short => ⟨short, shown, raw, shows, own, lib.parse_dump (shows.ascending own) ?_⟩⟩
  have one : Out.Fits (.int d.version) := by
    rw [own.common.1.version]
    exact ⟨by decide, by decide⟩
  refine List.forall_mem_append.mpr ⟨?_, ?_⟩
  · cases shows with
    | absent _ => exact List.forall_mem_nil _
    | there => exact List.forall_mem_singleton.mpr trivial
  · cases own with
    | selection _ =>
      simp only [selectionOut, List.forall_mem_cons]
      exact ⟨trivial, trivial, trivial, one, List.forall_mem_nil _⟩
    | session _ _ _ =>
      simp only [sessionOut, List.forall_mem_cons]
      exact ⟨trivial, trivial, trivial, trivial, trivial, trivial, trivial, one, List.forall_mem_nil _⟩

lemma Raw.canonical {raw : List (String × Out)} (own : Raw d raw) :
    Raw d (canonicalOut d) ∧ (dump (canonicalOut d)).utf8ByteSize ≤ (dump raw).utf8ByteSize := by
  unfold canonicalOut
  cases own with
  | selection well =>
    rw [if_pos well.kind]
    exact ⟨.selection well, Nat.le_refl _⟩
  | @session startNs endNs well startRead endRead =>
    rw [if_neg (by rw [well.kind]; decide)]
    obtain ⟨startRange, startSize, -⟩ := of_parseDecimalNs startRead
    obtain ⟨endRange, endSize, -⟩ := of_parseDecimalNs endRead
    refine ⟨.session well (parseDecimalNs_toString startRange) (parseDecimalNs_toString endRange), ?_⟩
    rw [size_dump, size_dump]
    simp only [sessionOut, writeField, writeOut, String.utf8Len_append, String.utf8Len_cons, List.map_cons,
      List.map_nil, List.sum_cons, List.sum_nil, List.length_cons, List.length_nil]
    omega

lemma Raw.unnamed {raw : List (String × Out)} (own : Raw d raw) : Raw { d with displayName := "" } raw := by
  have size : ("" : String).utf8ByteSize ≤ kMaxStringBytes := by decide
  cases own with
  | selection well =>
    have rest : { d with displayName := "" } =
        { kind := d.kind, serverUri := d.serverUri, selectionId := d.selectionId : SourceDescriptor } := by
      rw [well.rest]
    exact .selection { well with nameSize := size, rest }
  | session well startRead endRead => exact .session { well with nameSize := size } startRead endRead

lemma canonical_unnamed (d : SourceDescriptor) :
    canonicalSourceDescriptorJson { d with displayName := "" } = canonicalSourceDescriptorJson d :=
  congrArg dump (by simp only [canonicalOut, selectionOut, sessionOut])

lemma parse_canonical {json : String} (accepted : parseSourceDescriptor lib json = .ok d) :
    parseSourceDescriptor lib (canonicalSourceDescriptorJson d) = .ok { d with displayName := "" } := by
  obtain ⟨short, shown, raw, shows, own, parsed⟩ := parse_iff.mp accepted
  obtain ⟨canonical, shorter⟩ := own.canonical
  refine (parse_dump_iff (.absent rfl) canonical.unnamed).mpr ?_
  calc (dump (canonicalOut d)).utf8ByteSize ≤ (dump raw).utf8ByteSize := shorter
    _ ≤ (dump (shown ++ raw)).utf8ByteSize := by
      cases shows with
      | absent _ => exact Nat.le_refl _
      | there => exact size_dump_cons _ _
    _ ≤ json.utf8ByteSize := lib.compact parsed
    _ ≤ kMaxDescriptorBytes := short

/-- Reading back what was accepted. The text with the shown name is accepted if and only if it is not too long. -/
theorem descriptor_round_trip (lib : Library) (json : String) (d : SourceDescriptor)
    (accepted : parseSourceDescriptor lib json = .ok d) :
    parseSourceDescriptor lib (canonicalSourceDescriptorJson d) = .ok { d with displayName := "" } ∧
    (parseSourceDescriptor lib (toSourceDescriptorJson d) = .ok d ↔
      (toSourceDescriptorJson d).utf8ByteSize ≤ kMaxDescriptorBytes) ∧
    (parseSourceDescriptor lib (canonicalSourceDescriptorJson d)).map canonicalSourceDescriptorJson =
      .ok (canonicalSourceDescriptorJson d) ∧
    (∀ json' d', parseSourceDescriptor lib json' = .ok d' →
      (canonicalSourceDescriptorJson d = canonicalSourceDescriptorJson d' ↔
        { d with displayName := "" } = { d' with displayName := "" })) ∧
    ∀ fields, lib.parse json = some (some fields) → ∀ key ∈ fields.map Prod.fst, key ∈ kindFields d.kind := by
  obtain ⟨-, shown, raw, shows, own, parsed⟩ := parse_iff.mp accepted
  have again := parse_canonical accepted
  have named : toSourceDescriptorJson d = dump ([("display_name", .str d.displayName)] ++ canonicalOut d) := by
    rw [toSourceDescriptorJson, List.singleton_append]
  refine ⟨again, ?_, ?_, ?_, ?_⟩
  · rw [named]
    exact parse_dump_iff .there own.canonical.1
  · rw [again, Except.map, canonical_unnamed]
  · intro json' d' accepted'
    have again' := parse_canonical accepted'
    constructor
    · intro same
      rw [same, again'] at again
      exact (Except.ok.inj again).symm
    · intro same
      rw [← canonical_unnamed d, same, canonical_unnamed d']
  · intro fields parsed' key mem
    rw [parsed] at parsed'
    cases parsed'
    rw [keys_view] at mem
    exact shows.keys own mem

def run7 : SourceDescriptor :=
  { kind := kSelectionKind, serverUri := "wss://host/a", selectionId := "7", displayName := "Run 7" }

theorem descriptor_round_trip_selection :
    parseSourceDescriptor compact (canonicalSourceDescriptorJson run7) = .ok { run7 with displayName := "" } ∧
      parseSourceDescriptor compact (toSourceDescriptorJson run7) = .ok run7 := by
  have accepted : parseSourceDescriptor compact (toSourceDescriptorJson run7) = .ok run7 := by decide +kernel
  exact ⟨(descriptor_round_trip compact _ run7 accepted).1, accepted⟩

def zeros (n : Nat) : String := String.ofList (List.replicate n '0')

def sessionOn (topics : List String) : SourceDescriptor :=
  { kind := kSessionKind, serverUri := "ws://h", s3Keys := ["k"], topics }

lemma canonicalOut_sessionOn (topics : List String) :
    canonicalOut (sessionOn topics) = sessionOut (sessionOn topics) "0" "0" :=
  if_neg (show ¬ kSessionKind = kSelectionKind by decide)

lemma size_sessionOn (topics : List String) : (canonicalSourceDescriptorJson (sessionOn topics)).utf8ByteSize =
    136 + ((topics.map fun topic => String.utf8Len (quote topic)).sum + (topics.length - 1)) := by
  have others : String.utf8Len (writeField ("end_ns", .str "0")) +
      (String.utf8Len (writeField ("include_latched", .bool true)) +
      (String.utf8Len (writeField ("kind", .str kSessionKind)) +
      (String.utf8Len (writeField ("s3_keys", .strings ["k"])) +
      (String.utf8Len (writeField ("server_uri", .str "ws://h")) +
      (String.utf8Len (writeField ("start_ns", .str "0")) + String.utf8Len (writeField ("v", .int 1))))))) = 116 := by
    decide
  have own : String.utf8Len (writeField ("topics", .strings topics)) =
      11 + ((topics.map fun topic => String.utf8Len (quote topic)).sum + (topics.length - 1)) := by
    have key : String.utf8Len (quote "topics") = 8 := by decide
    have colon : Char.utf8Size ':' = 1 := rfl
    have opening : Char.utf8Size '[' = 1 := rfl
    have closing : String.utf8Len [']'] = 1 := rfl
    simp only [writeField, writeOut, String.utf8Len_append, String.utf8Len_cons, size_commas, List.map_map,
      List.length_map, Function.comp_def, key, colon, opening, closing]
    omega
  rw [canonicalSourceDescriptorJson, size_dump, canonicalOut_sessionOn]
  simp only [sessionOut, sessionOn, List.map_cons, List.map_nil, List.sum_cons, List.sum_nil, List.length_cons,
    List.length_nil, own]
  omega

lemma wellFormed_sessionOn {topics : List String} (short : ShortTexts kMaxTopics topics) :
    Raw (sessionOn topics) (canonicalOut (sessionOn topics)) := by
  have zero : parseDecimalNs "0" = some 0 := by decide
  have none : Session (sessionOn []) :=
    { version := rfl
      uriSize := by decide
      uri := by decide
      nameSize := by decide
      kind := rfl
      keys := ⟨by decide, by decide⟩
      topics := ⟨by decide, by decide⟩
      checked := by decide
      window := by decide
      rest := rfl }
  rw [canonicalOut_sessionOn]
  exact .session { none with topics := short } zero zero

lemma size_quote_zeros (n : Nat) : String.utf8Len (quote (zeros n)) = n + 2 := by
  have digits : ∀ c ∈ (zeros n).toList, c.isDigit = true := by
    intro c mem
    rw [zeros, String.toList_ofList] at mem
    rw [List.eq_of_mem_replicate mem]
    rfl
  rw [size_quote_digits digits, zeros, String.toList_ofList, List.length_replicate]

lemma size_zeros (n : Nat) : (zeros n).utf8ByteSize = n := by
  have digits : ∀ c ∈ List.replicate n '0', c.isDigit = true := by
    intro c mem
    rw [List.eq_of_mem_replicate mem]
    rfl
  rw [zeros, String.utf8ByteSize_ofList, size_digits digits, List.length_replicate]

def filling (m n : Nat) : List String := List.replicate 15 (zeros m) ++ [zeros n]

lemma size_filling (m n : Nat) :
    (canonicalSourceDescriptorJson (sessionOn (filling m n))).utf8ByteSize = 183 + 15 * m + n := by
  rw [size_sessionOn, filling]
  simp only [List.map_append, List.map_replicate, List.map_singleton, size_quote_zeros, List.sum_append,
    List.sum_replicate_nat, List.sum_singleton, List.length_append, List.length_replicate, List.length_singleton]
  omega

lemma short_filling {m n : Nat} (small : m ≤ kMaxStringBytes) (small' : n ≤ kMaxStringBytes) :
    ShortTexts kMaxTopics (filling m n) := by
  refine ⟨?_, ?_⟩
  · rw [filling, List.length_append, List.length_replicate, List.length_singleton]
    decide
  · intro topic mem
    rcases List.mem_append.mp mem with mem | mem
    · rw [List.eq_of_mem_replicate mem, size_zeros]
      exact small
    · rw [List.mem_singleton.mp mem, size_zeros]
      exact small'

/-- A text of 64 KiB. With the empty shown name it is not accepted. -/
theorem shown_name_makes_too_long :
    parseSourceDescriptor compact (canonicalSourceDescriptorJson (sessionOn (filling 4096 3913))) =
        .ok (sessionOn (filling 4096 3913)) ∧
      parseSourceDescriptor compact (toSourceDescriptorJson (sessionOn (filling 4096 3913))) =
        .error "descriptor exceeds the 65536-byte limit" := by
  have size := size_filling 4096 3913
  have well := wellFormed_sessionOn (short_filling (m := 4096) (n := 3913) (by decide) (by decide))
  -- only the size of the topics matters from here on
  generalize filling 4096 3913 = topics at *
  have fits : parseSourceDescriptor compact (dump ([] ++ canonicalOut (sessionOn topics))) = .ok (sessionOn topics) :=
    (parse_dump_iff (.absent rfl) well).mpr (Nat.le_of_eq size)
  refine ⟨fits, if_pos ?_⟩
  rw [canonicalSourceDescriptorJson, size_dump] at size
  rw [toSourceDescriptorJson, size_dump, List.map_cons, List.sum_cons, List.length_cons]
  have name : String.utf8Len (writeField ("display_name", .str "")) = 17 := by decide
  change kMaxDescriptorBytes < 2 + (String.utf8Len (writeField ("display_name", .str "")) + _) + _
  unfold kMaxDescriptorBytes
  omega

end PjCloud.Descriptor
