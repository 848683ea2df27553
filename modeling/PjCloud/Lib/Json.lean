import Mathlib.Data.List.Sort
import Mathlib.Data.String.Basic
import Mathlib.Tactic.IntervalCases
import PjCloud.Lib.Ascii

/-!
# Compact JSON

Objects with strings, integers, booleans and arrays of strings, as a serializer writes them: no white space, and
only those characters escaped that must be. `Library` is a parser that reads them back and to which no text of an
object is shorter than the compact one. `compact` is such a library. It accepts compact texts only; its readers are
over the characters that are left, the leaves first.
-/

namespace PjCloud.Lib.Json

/-! ## Writing -/

/-- A value that is written. -/
inductive Out where
  | str (text : String)
  | int (n : Int)
  | bool (b : Bool)
  | strings (texts : List String)
  deriving DecidableEq, Repr

def hexDigit (n : Nat) : Char := if n < 10 then Char.ofNat (48 + n) else Char.ofNat (87 + n)

/-- The characters below a space. -/
def escapeControl : Nat → List Char
  | 8 => ['\\', 'b']
  | 9 => ['\\', 't']
  | 10 => ['\\', 'n']
  | 12 => ['\\', 'f']
  | 13 => ['\\', 'r']
  | n => ['\\', 'u', '0', '0', hexDigit (n / 16), hexDigit (n % 16)]

def escapeChar (c : Char) : List Char :=
  if c = '"' then ['\\', '"']
  else if c = '\\' then ['\\', '\\']
  else if c.toNat < 32 then escapeControl c.toNat
  else [c]

def escape (s : String) : List Char := s.toList.flatMap escapeChar

def quote (s : String) : List Char := '"' :: (escape s ++ ['"'])

/-- Items with commas between them. -/
def commas : List (List Char) → List Char
  | [] => []
  | [item] => item
  | item :: next :: rest => item ++ ',' :: commas (next :: rest)

def writeInt (n : Int) : List Char := (toString n).toList

def writeOut : Out → List Char
  | .str text => quote text
  | .int n => writeInt n
  | .bool true => ['t', 'r', 'u', 'e']
  | .bool false => ['f', 'a', 'l', 's', 'e']
  | .strings texts => '[' :: (commas (texts.map quote) ++ [']'])

def writeField (field : String × Out) : List Char := quote field.1 ++ ':' :: writeOut field.2

def dumpChars (fields : List (String × Out)) : List Char := '{' :: (commas (fields.map writeField) ++ ['}'])

/-- The text of an object. -/
def dump (fields : List (String × Out)) : String := String.ofList (dumpChars fields)

/-! ### Sizes -/

lemma size_commas (items : List (List Char)) :
    String.utf8Len (commas items) = (items.map String.utf8Len).sum + (items.length - 1) := by
  induction items with
  | nil => rfl
  | cons item rest ih =>
    cases rest with
    | nil => rfl
    | cons next rest =>
      have comma : Char.utf8Size ',' = 1 := rfl
      rw [commas, String.utf8Len_append, String.utf8Len_cons, ih, comma]
      simp only [List.map_cons, List.sum_cons, List.length_cons]
      omega

lemma size_dump (fields : List (String × Out)) :
    (dump fields).utf8ByteSize =
      2 + (fields.map fun field => String.utf8Len (writeField field)).sum + (fields.length - 1) := by
  have open' : Char.utf8Size '{' = 1 := rfl
  have close : String.utf8Len ['}'] = 1 := rfl
  rw [dump, String.utf8ByteSize_ofList, dumpChars, String.utf8Len_cons, String.utf8Len_append, size_commas, open',
    close, List.map_map, List.length_map]
  simp only [Function.comp_def]
  omega

/-- An object without its first field is shorter. -/
lemma size_dump_cons (field : String × Out) (fields : List (String × Out)) :
    (dump fields).utf8ByteSize ≤ (dump (field :: fields)).utf8ByteSize := by
  rw [size_dump, size_dump]
  simp only [List.map_cons, List.sum_cons, List.length_cons]
  omega

/-- Digits are written as they are. -/
lemma digit_plain {c : Char} (digit : c.isDigit = true) : escapeChar c = [c] ∧ c.utf8Size = 1 := by
  obtain ⟨low, high⟩ := Ascii.isDigit_iff.mp digit
  refine ⟨?_, ?_⟩
  · unfold escapeChar
    rw [if_neg, if_neg, if_neg (by omega)]
    · rintro rfl
      exact absurd high (by decide)
    · rintro rfl
      exact absurd low (by decide)
  · unfold Char.utf8Size
    exact if_pos (UInt32.le_iff_toNat_le.mpr (Nat.le_trans high (by decide)))

lemma size_digits {chars : List Char} (digits : ∀ c ∈ chars, c.isDigit = true) :
    String.utf8Len chars = chars.length := by
  induction chars with
  | nil => rfl
  | cons c chars ih =>
    rw [String.utf8Len_cons, (digit_plain (digits c List.mem_cons_self)).2,
      ih fun d mem => digits d (List.mem_cons_of_mem _ mem), List.length_cons]

lemma escape_digits {chars : List Char} (digits : ∀ c ∈ chars, c.isDigit = true) :
    chars.flatMap escapeChar = chars := by
  induction chars with
  | nil => rfl
  | cons c chars ih =>
    rw [List.flatMap_cons, (digit_plain (digits c List.mem_cons_self)).1,
      ih fun d mem => digits d (List.mem_cons_of_mem _ mem), List.singleton_append]

lemma size_quote_digits {s : String} (digits : ∀ c ∈ s.toList, c.isDigit = true) :
    String.utf8Len (quote s) = s.toList.length + 2 := by
  have mark : Char.utf8Size '"' = 1 := rfl
  have close : String.utf8Len ['"'] = 1 := rfl
  rw [quote, escape, escape_digits digits, String.utf8Len_cons, String.utf8Len_append, size_digits digits, mark, close]

/-! ## Reading -/

/-- What a value is found to be. Of the entries of an array it is asked whether they are strings. -/
inductive Value where
  | str (text : String)
  | int (n : Int)
  | bool (b : Bool)
  | array (entries : List (Option String))
  | other
  deriving DecidableEq, Repr

/-- What a written value is found to be. -/
def Out.view : Out → Value
  | .str text => .str text
  | .int n => .int n
  | .bool b => .bool b
  | .strings texts => .array (texts.map some)

/-- The fields of an object as they are found. -/
def view (fields : List (String × Out)) : List (String × Value) := fields.map fun field => (field.1, field.2.view)

/-- The keys of an object are in order, each once. -/
def Ascending {α : Type} (fields : List (String × α)) : Prop := (fields.map Prod.fst).Pairwise (· < ·)

lemma Ascending.lookup {α : Type} {fields : List (String × α)} (ascending : Ascending fields)
    {field : String × α} (mem : field ∈ fields) : fields.lookup field.1 = some field.2 := by
  induction fields with
  | nil => cases mem
  | cons first rest ih =>
    obtain ⟨before, sorted⟩ := List.pairwise_cons.mp ascending
    rcases List.mem_cons.mp mem with rfl | mem
    · exact List.lookup_cons_self
    · have other : (field.1 == first.1) = false := by
        rw [beq_eq_false_iff_ne]
        rintro same
        have less := before field.1 (List.mem_map_of_mem mem)
        rw [same] at less
        exact lt_irrefl _ less
      rw [List.lookup_cons, other]
      exact ih sorted mem

lemma mem_keys_iff {α : Type} {fields : List (String × α)} {key : String} :
    key ∈ fields.map Prod.fst ↔ ∃ value, fields.lookup key = some value := by
  rw [← Option.isSome_iff_exists, ← Bool.not_eq_false, Option.isSome_eq_false_iff, Option.isNone_iff_eq_none,
    List.lookup_eq_none_iff]
  simp

lemma keys_view (fields : List (String × Out)) : (view fields).map Prod.fst = fields.map Prod.fst := by
  rw [view, List.map_map]
  rfl

lemma Ascending.view {fields : List (String × Out)} (ascending : Ascending fields) : Ascending (view fields) := by
  unfold Ascending
  rw [keys_view]
  exact ascending

/-- An object is determined by its keys and their values. -/
lemma Ascending.eq_of_keys {α : Type} {fields fields' : List (String × α)} (ascending : Ascending fields)
    (ascending' : Ascending fields') (found : ∀ field ∈ fields', fields.lookup field.1 = some field.2)
    (known : ∀ key ∈ fields.map Prod.fst, key ∈ fields'.map Prod.fst) : fields = fields' := by
  have member : ∀ field, field ∈ fields ↔ field ∈ fields' := by
    intro field
    constructor
    · intro mem
      obtain ⟨other, mem', key⟩ := List.mem_map.mp (known field.1 (List.mem_map_of_mem mem))
      have value : some other.2 = some field.2 := by
        rw [← found other mem', key, ascending.lookup mem]
      rw [← Prod.ext key (Option.some.inj value)]
      exact mem'
    · intro mem
      obtain ⟨before, after, shape, -⟩ := List.lookup_eq_some_iff.mp (found field mem)
      rw [shape]
      exact List.mem_append_right _ List.mem_cons_self
  have irrefl : Std.Irrefl fun a b : String × α => a.1 < b.1 := ⟨fun _ => lt_irrefl _⟩
  have antisymm : Std.Antisymm fun a b : String × α => a.1 < b.1 :=
    ⟨fun _ _ less more => absurd (lt_trans less more) (lt_irrefl _)⟩
  exact List.Pairwise.eq_of_mem_iff (List.pairwise_map.mp ascending) (List.pairwise_map.mp ascending') member

/-- Integers have 64 bits. -/
def Out.Fits : Out → Prop
  | .int n => -2 ^ 63 ≤ n ∧ n < 2 ^ 63
  | _ => True

/-- A parser. It says whether a text is JSON, whether that is an object, and its fields. -/
structure Library where
  parse : String → Option (Option (List (String × Value)))
  ascending : ∀ {text fields}, parse text = some (some fields) → Ascending fields
  parse_dump : ∀ {fields}, Ascending fields → (∀ field ∈ fields, field.2.Fits) →
    parse (dump fields) = some (some (view fields))
  compact : ∀ {text fields}, parse text = some (some (view fields)) →
    (dump fields).utf8ByteSize ≤ text.utf8ByteSize

lemma Out.view_injective {out out' : Out} (same : out.view = out'.view) : out = out' := by
  cases out with
  | strings texts =>
    cases out' with
    | strings texts' =>
      injection same with entries
      rw [List.map_injective_iff.mpr (Option.some_injective String) entries]
    | _ => cases same
  | _ =>
    cases out' <;> cases same
    rfl

lemma view_injective {fields fields' : List (String × Out)} (same : view fields = view fields') :
    fields = fields' := by
  refine List.map_injective_iff.mpr ?_ same
  intro field field' same
  obtain ⟨key, views⟩ := Prod.ext_iff.mp same
  exact Prod.ext key (Out.view_injective views)

/-! ### Strings -/

/-- The digit of a character. -/
def hexValue (c : Char) : Nat := if c.toNat < 58 then c.toNat - 48 else c.toNat - 87

/-- One character of a string. -/
def readChar : List Char → Option (Char × List Char)
  | '\\' :: 'u' :: '0' :: '0' :: a :: b :: rest => some (Char.ofNat (16 * hexValue a + hexValue b), rest)
  | '\\' :: 'b' :: rest => some (Char.ofNat 8, rest)
  | '\\' :: 't' :: rest => some (Char.ofNat 9, rest)
  | '\\' :: 'n' :: rest => some (Char.ofNat 10, rest)
  | '\\' :: 'f' :: rest => some (Char.ofNat 12, rest)
  | '\\' :: 'r' :: rest => some (Char.ofNat 13, rest)
  | '\\' :: c :: rest => some (c, rest)
  | '\\' :: [] => none
  | c :: rest => some (c, rest)
  | [] => none

/-- A string after its first quote, of at most so many characters. -/
def readString : Nat → List Char → Option (List Char × List Char)
  | 0, _ => none
  | _ + 1, '"' :: rest => some ([], rest)
  | fuel + 1, text => match readChar text with
    | none => none
    | some (c, rest) => (readString fuel rest).map fun read => (c :: read.1, read.2)

lemma readChar_control {n : Nat} (small : n < 32) (rest : List Char) :
    readChar (escapeControl n ++ rest) = some (Char.ofNat n, rest) := by
  interval_cases n <;> rfl

lemma readChar_escapeChar (c : Char) (rest : List Char) : readChar (escapeChar c ++ rest) = some (c, rest) := by
  unfold escapeChar
  split
  · rename_i quote
    rw [quote]
    rfl
  · split
    · rename_i _ slash
      rw [slash]
      rfl
    · rename_i noQuote noSlash
      split
      · rename_i small
        rw [readChar_control small, Char.ofNat_toNat]
      · simp only [List.singleton_append]
        unfold readChar
        split <;> simp_all

/-- What is written of a character does not start with a quote. -/
lemma escapeChar_head (c : Char) : ∃ a rest, escapeChar c = a :: rest ∧ a ≠ '"' := by
  unfold escapeChar
  split
  · exact ⟨'\\', ['"'], rfl, by decide⟩
  · rename_i noQuote
    split
    · exact ⟨'\\', ['\\'], rfl, by decide⟩
    · split
      · rename_i small
        have head : ∀ n < 32, ∃ rest, escapeControl n = '\\' :: rest := by
          intro n small
          interval_cases n <;> exact ⟨_, rfl⟩
        obtain ⟨rest, shape⟩ := head _ small
        exact ⟨'\\', rest, shape, by decide⟩
      · exact ⟨c, [], rfl, noQuote⟩

lemma readString_escape {chars : List Char} {fuel : Nat} (enough : chars.length < fuel) (rest : List Char) :
    readString fuel (chars.flatMap escapeChar ++ '"' :: rest) = some (chars, rest) := by
  induction chars generalizing fuel with
  | nil =>
    obtain ⟨fuel, rfl⟩ := Nat.exists_eq_succ_of_ne_zero (Nat.ne_of_gt enough)
    rfl
  | cons c chars ih =>
    obtain ⟨fuel, rfl⟩ := Nat.exists_eq_succ_of_ne_zero (Nat.ne_of_gt (Nat.zero_lt_of_lt enough))
    have step : readString (fuel + 1) (escapeChar c ++ (chars.flatMap escapeChar ++ '"' :: rest)) =
        (readString fuel (chars.flatMap escapeChar ++ '"' :: rest)).map fun read => (c :: read.1, read.2) := by
      obtain ⟨a, more, shape, noQuote⟩ := escapeChar_head c
      have one := readChar_escapeChar c (chars.flatMap escapeChar ++ '"' :: rest)
      rw [shape, List.cons_append] at one ⊢
      rw [readString, one]
      intro again same
      exact noQuote (List.cons.inj same).1
    rw [List.flatMap_cons, List.append_assoc, step, ih (by simpa using enough), Option.map_some]

/-! ### Numbers -/

def readNat (text : List Char) : Nat × List Char :=
  (Nat.ofDigitChars 10 (text.takeWhile Char.isDigit) 0, text.dropWhile Char.isDigit)

def readInt : List Char → Int × List Char
  | '-' :: rest => (-((readNat rest).1 : Int), (readNat rest).2)
  | text => ((readNat text).1, (readNat text).2)

/-- What follows a value. -/
def Delimited (rest : List Char) : Prop := ∃ c more, rest = c :: more ∧ (c = ',' ∨ c = ']' ∨ c = '}')

lemma Delimited.noDigit {rest : List Char} (delimited : Delimited rest) :
    ∃ c more, rest = c :: more ∧ c.isDigit = false := by
  obtain ⟨c, more, shape, which⟩ := delimited
  refine ⟨c, more, shape, ?_⟩
  rcases which with rfl | rfl | rfl <;> rfl

lemma readNat_toDigits (n : Nat) {rest : List Char} (delimited : Delimited rest) :
    readNat (Nat.toDigits 10 n ++ rest) = (n, rest) := by
  obtain ⟨c, more, rfl, noDigit⟩ := delimited.noDigit
  have digits : ∀ d ∈ Nat.toDigits 10 n, d.isDigit = true := fun d mem => Nat.isDigit_of_mem_toDigits (by decide) (by decide) mem
  unfold readNat
  rw [List.takeWhile_append_of_pos digits, List.dropWhile_append_of_pos digits,
    List.takeWhile_cons_of_neg (by simp [noDigit]), List.dropWhile_cons_of_neg (by simp [noDigit]), List.append_nil,
    Nat.ofDigitChars_toDigits (by decide) (by decide)]

lemma toDigits_head (n : Nat) : ∃ c more, Nat.toDigits 10 n = c :: more ∧ c.isDigit = true := by
  cases shape : Nat.toDigits 10 n with
  | nil =>
    have some : 0 < (Nat.toDigits 10 n).length := Nat.length_toDigits_pos
    rw [shape] at some
    cases some
  | cons c more =>
    have mem : c ∈ Nat.toDigits 10 n := by
      rw [shape]
      exact List.mem_cons_self
    exact ⟨c, more, rfl, Nat.isDigit_of_mem_toDigits (by decide) (by decide) mem⟩

lemma writeInt_ofNat (n : Nat) : writeInt (Int.ofNat n) = Nat.toDigits 10 n := Nat.toList_repr

lemma writeInt_negSucc (n : Nat) : writeInt (Int.negSucc n) = '-' :: Nat.toDigits 10 (n + 1) := by
  change ("-" ++ (n + 1).repr).toList = _
  rw [String.toList_append, Nat.toList_repr]
  rfl

lemma readInt_writeInt (n : Int) {rest : List Char} (delimited : Delimited rest) :
    readInt (writeInt n ++ rest) = (n, rest) := by
  cases n with
  | ofNat n =>
    obtain ⟨c, more, shape, digit⟩ := toDigits_head n
    rw [writeInt_ofNat, readInt, readNat_toDigits n delimited]
    · rfl
    · intro more' same
      rw [shape] at same
      rw [(List.cons.inj same).1] at digit
      cases digit
  | negSucc n =>
    rw [writeInt_negSucc, List.cons_append, readInt, readNat_toDigits (n + 1) delimited]
    rfl

/-! ### Values and fields -/

/-- A string with its quotes. The text has at least as many characters as the string. -/
def readQuoted : List Char → Option (String × List Char)
  | '"' :: rest => (readString (rest.length + 1) rest).map fun read => (String.ofList read.1, read.2)
  | _ => none

/-- Items with commas between them, up to a closing character. -/
def readItems {α : Type} (read : List Char → Option (α × List Char)) (close : Char) :
    Nat → List Char → Option (List α × List Char)
  | 0, _ => none
  | fuel + 1, text => match read text with
    | some (a, ',' :: rest) => (readItems read close fuel rest).map fun items => (a :: items.1, items.2)
    | some (a, c :: rest) => if c = close then some ([a], rest) else none
    | _ => none

/-- Such items or none. -/
def readList {α : Type} (read : List Char → Option (α × List Char)) (close : Char) (text : List Char) :
    Option (List α × List Char) :=
  match text with
  | [] => none
  | c :: rest => if c = close then some ([], rest) else readItems read close (text.length + 1) text

def readOut : List Char → Option (Out × List Char)
  | '"' :: rest => (readQuoted ('"' :: rest)).map fun read => (.str read.1, read.2)
  | 't' :: 'r' :: 'u' :: 'e' :: rest => some (.bool true, rest)
  | 'f' :: 'a' :: 'l' :: 's' :: 'e' :: rest => some (.bool false, rest)
  | '[' :: rest => (readList readQuoted ']' rest).map fun read => (.strings read.1, read.2)
  | text => some (.int (readInt text).1, (readInt text).2)

def readField (text : List Char) : Option ((String × Out) × List Char) :=
  match readQuoted text with
  | some (key, ':' :: rest) => (readOut rest).map fun read => ((key, read.1), read.2)
  | _ => none

/-- The fields of the object that a whole text is. -/
def readObject : List Char → Option (List (String × Out))
  | '{' :: rest => match readList readField '}' rest with
    | some (fields, []) => some fields
    | _ => none
  | _ => none

/-- Each character of a string takes one at least. -/
lemma length_le_escape (chars : List Char) : chars.length ≤ (chars.flatMap escapeChar).length := by
  induction chars with
  | nil => exact Nat.le_refl _
  | cons c chars ih =>
    obtain ⟨a, rest, shape, -⟩ := escapeChar_head c
    rw [List.flatMap_cons, List.length_append, List.length_cons, shape, List.length_cons]
    omega

lemma readQuoted_quote (s : String) (rest : List Char) : readQuoted (quote s ++ rest) = some (s, rest) := by
  unfold quote escape
  rw [List.cons_append, List.append_assoc, List.singleton_append, readQuoted, readString_escape, Option.map_some,
    String.ofList_toList]
  have fits := length_le_escape s.toList
  rw [List.length_append]
  omega

/-- A reader gets back what was written, in front of what can follow. -/
def Reads {α : Type} (read : List Char → Option (α × List Char)) (write : α → List Char) : Prop :=
  ∀ a rest, Delimited rest → read (write a ++ rest) = some (a, rest)

lemma reads_quoted : Reads readQuoted quote := fun s rest _ => readQuoted_quote s rest

section
variable {α : Type} {read : List Char → Option (α × List Char)} {write : α → List Char} {close : Char}

lemma readItems_commas (reads : Reads read write) (closes : close = ']' ∨ close = '}') {a : α} {items : List α}
    {fuel : Nat} (enough : items.length < fuel) (rest : List Char) :
    readItems read close fuel (commas ((a :: items).map write) ++ close :: rest) = some (a :: items, rest) := by
  induction items generalizing a fuel with
  | nil =>
    obtain ⟨fuel, rfl⟩ := Nat.exists_eq_succ_of_ne_zero (Nat.ne_of_gt enough)
    have one : read (write a ++ close :: rest) = some (a, close :: rest) :=
      reads a _ ⟨close, rest, rfl, .inr closes⟩
    rw [List.map_singleton, commas, readItems, one]
    rcases closes with rfl | rfl <;> exact if_pos rfl
  | cons b items ih =>
    obtain ⟨fuel, rfl⟩ := Nat.exists_eq_succ_of_ne_zero (Nat.ne_of_gt (Nat.zero_lt_of_lt enough))
    have one := reads a (',' :: (commas ((b :: items).map write) ++ close :: rest)) ⟨',', _, rfl, .inl rfl⟩
    rw [List.map_cons, List.map_cons, commas, List.append_assoc, List.cons_append, ← List.map_cons, readItems, one]
    change (readItems read close fuel _).map _ = _
    rw [ih (by simpa using enough), Option.map_some]

lemma length_le_commas (starts : ∀ a, write a ≠ []) (items : List α) :
    items.length ≤ (commas (items.map write)).length := by
  have one : ∀ a, 1 ≤ (write a).length := fun a => List.length_pos_iff.mpr (starts a)
  induction items with
  | nil => exact Nat.le_refl _
  | cons a items ih =>
    cases items with
    | nil => exact one a
    | cons b items =>
      have first := one a
      rw [List.map_cons, List.map_cons, commas, ← List.map_cons, List.length_append]
      simp only [List.length_cons] at ih ⊢
      omega

/-- Items are read back; what is written of an item must not start with the closing character. -/
lemma readList_commas (reads : Reads read write) (closes : close = ']' ∨ close = '}')
    (starts : ∀ a, ∃ c more, write a = c :: more ∧ c ≠ close) (items : List α) (rest : List Char) :
    readList read close (commas (items.map write) ++ close :: rest) = some (items, rest) := by
  cases items with
  | nil =>
    rw [List.map_nil, commas, List.nil_append, readList, if_pos rfl]
  | cons a items =>
    have nonempty : ∀ a, write a ≠ [] := by
      intro a
      obtain ⟨c, more, shape, -⟩ := starts a
      rw [shape]
      exact List.cons_ne_nil _ _
    have enough : items.length < (commas ((a :: items).map write) ++ close :: rest).length + 1 := by
      have fits := length_le_commas nonempty (a :: items)
      rw [List.length_cons] at fits
      rw [List.length_append]
      omega
    have read := readItems_commas reads closes (a := a) enough rest
    obtain ⟨c, more, shape, other⟩ := starts a
    obtain ⟨more', whole⟩ : ∃ more', commas ((a :: items).map write) ++ close :: rest = c :: more' := by
      cases items with
      | nil =>
        rw [List.map_singleton, commas, shape]
        exact ⟨_, rfl⟩
      | cons b items =>
        rw [List.map_cons, List.map_cons, commas, shape]
        exact ⟨_, rfl⟩
    rw [whole] at read ⊢
    rw [readList, if_neg other]
    exact read

end

lemma quote_head (s : String) : ∃ more, quote s = '"' :: more := ⟨_, rfl⟩

lemma reads_out : Reads readOut writeOut := by
  intro out rest delimited
  cases out with
  | str text =>
    have read := readQuoted_quote text rest
    obtain ⟨more, shape⟩ := quote_head text
    rw [writeOut]
    rw [shape, List.cons_append] at read ⊢
    rw [readOut, read, Option.map_some]
  | int n =>
    have read := readInt_writeInt n delimited
    have number : ∃ c more, writeInt n = c :: more ∧ (c = '-' ∨ c.isDigit = true) := by
      cases n with
      | ofNat n =>
        obtain ⟨c, more, shape, digit⟩ := toDigits_head n
        exact ⟨c, more, (writeInt_ofNat n).trans shape, .inr digit⟩
      | negSucc n => exact ⟨'-', _, writeInt_negSucc n, .inl rfl⟩
    obtain ⟨c, more, shape, which⟩ := number
    have head : ∀ d, d = '"' ∨ d = 't' ∨ d = 'f' ∨ d = '[' → c ≠ d := by
      rintro d (rfl | rfl | rfl | rfl) rfl <;> rcases which with which | which <;> cases which
    rw [writeOut, readOut, read] <;> intro more' same <;> rw [shape] at same <;>
      exact head _ (by decide) (List.cons.inj same).1
  | bool b => cases b <;> rfl
  | strings texts =>
    have read := readList_commas reads_quoted (.inl rfl) (fun s => ⟨'"', _, rfl, by decide⟩) texts rest
    rw [writeOut, List.cons_append, List.append_assoc, List.singleton_append, readOut, read, Option.map_some]

lemma reads_field : Reads readField writeField := by
  rintro ⟨key, out⟩ rest delimited
  have read := readQuoted_quote key (':' :: (writeOut out ++ rest))
  rw [writeField, List.append_assoc, List.cons_append, readField, read]
  simp only
  rw [reads_out out rest delimited, Option.map_some]

lemma readFields_commas (fields : List (String × Out)) (rest : List Char) :
    readList readField '}' (commas (fields.map writeField) ++ '}' :: rest) = some (fields, rest) :=
  readList_commas reads_field (.inr rfl) (fun _ => ⟨'"', _, rfl, by decide⟩) fields rest

lemma readObject_dumpChars (fields : List (String × Out)) : readObject (dumpChars fields) = some fields := by
  rw [dumpChars, readObject, readFields_commas]

lemma dump_injective {fields fields' : List (String × Out)} (same : dump fields = dump fields') : fields = fields' := by
  have read := readObject_dumpChars fields
  rw [String.ofList_injective same, readObject_dumpChars] at read
  exact (Option.some.inj read).symm

/-- No text of an object is the beginning of another one. -/
lemma eq_of_dumpChars_append {fields fields' : List (String × Out)} {more : List Char}
    (same : dumpChars fields' ++ more = dumpChars fields) : more = [] := by
  unfold dumpChars at same
  rw [List.cons_append, List.append_assoc, List.singleton_append] at same
  have read := readFields_commas fields' more
  rw [(List.cons.inj same).2, readFields_commas] at read
  exact (Prod.mk.inj (Option.some.inj read)).2.symm

/-! ### The library -/

instance {α : Type} (fields : List (String × α)) : Decidable (Ascending fields) :=
  inferInstanceAs (Decidable (List.Pairwise _ _))

/-- The fields of a compact text. -/
def parseCompact (text : String) : Option (List (String × Out)) :=
  match readObject text.toList with
  | some fields => if Ascending fields ∧ dump fields = text then some fields else none
  | none => none

lemma parseCompact_iff {text : String} {fields : List (String × Out)} :
    parseCompact text = some fields ↔ Ascending fields ∧ dump fields = text := by
  unfold parseCompact
  constructor
  · intro parsed
    cases read : readObject text.toList with
    | none =>
      rw [read] at parsed
      cases parsed
    | some found =>
      rw [read] at parsed
      dsimp only at parsed
      split at parsed
      · rename_i both
        cases parsed
        exact both
      · cases parsed
  · rintro ⟨ascending, rfl⟩
    rw [dump, String.toList_ofList, readObject_dumpChars]
    exact if_pos ⟨ascending, rfl⟩

/-- A library that accepts compact texts. -/
def compact : Library where
  parse text := (parseCompact text).map fun fields => some (view fields)
  ascending := by
    intro text fields parsed
    obtain ⟨found, compacted, same⟩ := Option.map_eq_some_iff.mp parsed
    cases same
    exact (parseCompact_iff.mp compacted).1.view
  parse_dump := by
    intro fields ascending _
    rw [parseCompact_iff.mpr ⟨ascending, rfl⟩, Option.map_some]
  compact := by
    intro text fields parsed
    obtain ⟨found, compacted, same⟩ := Option.map_eq_some_iff.mp parsed
    obtain rfl := view_injective (Option.some.inj same)
    rw [(parseCompact_iff.mp compacted).2]

end PjCloud.Lib.Json
