import Mathlib.Data.List.DropRight
import PjCloud.Lib.Lua.Numeral
import PjCloud.Query.Meaning

/-!
# Picking a value

`quoteValueForQuery` of `query/edit.h` of the plugin. A value that is picked for a key should select the sequences that
have it: it is quoted for the lexer of queries, which decides with `strtod` what a number is, and then read by Lua, which
has numerals of its own.
-/

namespace PjCloud.Query
open Lib

def escapeQuotes : Text → Text
  | [] => []
  | c :: rest => if c = '"' ∨ c = '\\' then '\\' :: c :: escapeQuotes rest else c :: escapeQuotes rest

def quoteValueForQuery (value : Text) : Text :=
  if value ≠ [] ∧ isNumber value then value else '"' :: escapeQuotes value ++ ['"']

def picked (key value : Text) : Text := key ++ " == ".toList ++ quoteValueForQuery value

/-- The picked value makes one comparison, which selects what has the value. -/
def Selects (host : Lua.Host) (key value : Text) : Prop :=
  (∃ k op v, (query (picked key value)).ast = some (.compare k op v) ∧ k.text = key) ∧
    (query (picked key value)).complete = true ∧
    eval host (set library [(key, value)]) (query (picked key value)) = true

/-- Lua reads the number that `strtod` reads: it has no plus sign and is no word, and as an integer of 64 bits it is not
another number than as a double. -/
def keepsNumber (value : Text) : Bool :=
  let text := value.dropWhile isSpace
  let body := (signed text).2
  decide (text.head? ≠ some '+') && (unsigned body).isSome &&
    match Lua.numeral body with
    | some (.int n) => decide (strtod value = some (.finite (if (signed text).1 then Lua.wrap (-n) else n)))
    | _ => true

/-- What can be picked for a key: the key is not read as a number, a number is one for Lua too, and a string is on one
line. -/
def pickable (key value : Text) : Bool :=
  !isNumber key && if isNumber value then keepsNumber value else decide ('\n' ∉ value ∧ '\r' ∉ value)

/-! ## Words -/

def separators : List Char :=
  [' ', '\t', '\n', '\x0b', '\x0c', '\r', '(', ')', '=', '~', '<', '>', '"', '\'']

lemma isWordChar_of_not_mem {c : Char} (other : c ∉ separators) : isWordChar c = true := by
  simp only [separators, List.mem_cons, List.not_mem_nil, or_false, not_or] at other
  rw [isWordChar_iff, ← Bool.not_eq_true (isPunct c), isPunct_iff]
  refine ⟨?_, by tauto⟩
  simp only [isSpace, Bool.or_eq_false_iff, decide_eq_false_iff_not]
  tauto

lemma isWordChar_of {p : Char → Bool} {c : Char} (kind : p c = true) (apart : separators.all (!p ·) = true) :
    isWordChar c = true := by
  refine isWordChar_of_not_mem fun mem => ?_
  have := List.all_eq_true.mp apart c mem
  simp [kind] at this

lemma isWordChar_of_isNameChar {c : Char} (name : Lua.isNameChar c = true) : isWordChar c = true :=
  isWordChar_of name (by decide)

lemma isNameChar_of_isNameStart {c : Char} (start : Lua.isNameStart c = true) : Lua.isNameChar c = true := by
  simp only [Lua.isNameStart, Lua.isNameChar, Bool.or_eq_true, Char.isAlphanum] at start ⊢
  tauto

lemma lexeme_key {key : Text} (named : Lua.isName key = true) (more : Text) :
    Lexeme (if isNumber key then .value else .key) key (' ' :: more) := by
  cases key with
  | nil => cases named
  | cons c rest =>
    simp only [Lua.isName, Bool.and_eq_true, decide_eq_true_eq] at named
    have class_ : classifyWord (c :: rest) = if isNumber (c :: rest) then .value else .key := by
      unfold classifyWord
      split_ifs with isAnd isOr isNot
      all_goals first | rfl | simp_all [Lua.word]
    rw [← class_]
    refine .word (isWordChar_of_isNameChar (isNameChar_of_isNameStart named.1.1)) ?_ rfl
    exact List.all_eq_true.mpr fun d mem => isWordChar_of_isNameChar (List.all_eq_true.mp named.1.2 d mem)

lemma tokenize_clause {key piece : Text} {tokens : List Token} (named : Lua.isName key = true)
    (scans : Scans (key.length + 4) piece tokens) : tokenize (key ++ " == ".toList ++ piece) =
      { type := if isNumber key then .value else .key, text := key, start := 0, stop := key.length } ::
        { type := .operator, text := "==".toList, start := key.length + 1, stop := key.length + 3 } :: tokens := by
  have clause : Scans 0 (key ++ (' ' :: (['=', '='] ++ (' ' :: piece)))) _ :=
    .token (lexeme_key named _) (.space rfl (.token (.twoChar rfl) (.space rfl (by simpa [Nat.add_assoc] using scans))))
  have eq := clause.tokenize
  simpa [Nat.add_assoc] using eq

lemma parse_value {t : Token} {tokens : List Token} (isValue : t.type = .value) : (parse (t :: tokens)).ast = none := by
  have reads : Reads (.chain .or) { tokens := t :: tokens } none { tokens } := by
    refine .chainNone (.chainNone (.plain (by simp [isValue]) ?_))
    exact .skip rfl (by simp [isValue]) (by simp [isValue]) (fun _ => rfl)
  rw [parse_eq (by simp) reads]

lemma parse_clause {k op v : Token} (isKey : k.type = .key) (hasText : k.text ≠ []) (isOp : op.type = .operator)
    (isValue : v.type = .value) : parse [k, op, v] = { ast := some (.compare k op v), complete := true, error := "" } := by
  have sentence : Sentence (.chain .or) none ([k, op, v] ++ [] ++ []) (.compare k op v) (some (k, op)) :=
    .chain (.chain (.plain (.compare isKey isOp isValue)) .done) .done
  refine parse_sentence ?_ sentence
  intro t mem
  simp only [List.mem_cons, List.not_mem_nil, or_false] at mem
  rcases mem with rfl | rfl | rfl
  · exact fun _ => hasText
  · simp [isOp]
  · simp [isValue]

lemma parse_clause_paren {k op v t : Token} {tokens : List Token} (isKey : k.type = .key) (isOp : op.type = .operator)
    (isValue : v.type = .value) (opens : t.type = .openParen) : (parse (k :: op :: v :: t :: tokens)).complete = false := by
  have reads : Reads (.chain .or) { tokens := k :: op :: v :: t :: tokens } (some (.compare k op v))
      { tokens := t :: tokens, lastKey := k, lastOp := op } := by
    refine .chain (.chain (.plain (by simp [isKey]) (.compare rfl isKey isOp isValue)) (.stop ?_)) (.stop ?_)
    · simp [opens, Connective.type]
    · simp [opens, Connective.type]
  rw [parse_eq (by simp) reads]
  simp

/-! ## Numbers in a query -/

def isNumeralChar (c : Char) : Bool := isHexDigit c || decide (c ∈ ['.', '-', '+', 'x', 'X', 'p', 'P'])

lemma numeralSpan_chars {marks : Text} (plain : ∀ c ∈ marks, isNumeralChar c = true) (text : Text) :
    ∀ c ∈ (Lua.numeralSpan marks text).1, isNumeralChar c = true := by
  have part {c : Char} (kind : c ∈ marks ∨ isHexDigit c = true ∨ c = '.') : isNumeralChar c = true := by
    rcases kind with mark | digit | rfl
    · exact plain c mark
    · simp [isNumeralChar, digit]
    · rfl
  fun_induction Lua.numeralSpan marks text with
  | case1 | case3 | case6 => simp
  | case2 c kind =>
    intro d mem
    obtain rfl := List.mem_singleton.mp mem
    exact part kind
  | case4 c d rest sign body left eq ih =>
    rw [eq] at ih
    refine List.forall_mem_cons.mpr ⟨plain c sign.1, List.forall_mem_cons.mpr ⟨?_, ih⟩⟩
    rcases sign.2 with rfl | rfl <;> rfl
  | case5 c d rest _ kind body left eq ih =>
    rw [eq] at ih
    exact List.forall_mem_cons.mpr ⟨part kind, ih⟩

lemma numeralText_chars {c : Char} (first : isNumeralChar c = true) (rest : Text) :
    ∀ d ∈ (Lua.numeralText c rest).1, isNumeralChar d = true := by
  fun_cases Lua.numeralText c rest with
  | case1 => simpa using first
  | case2 x rest hex =>
    refine List.forall_mem_cons.mpr ⟨first, List.forall_mem_cons.mpr ⟨?_, numeralSpan_chars (by simp; decide) rest⟩⟩
    rcases hex.2 with rfl | rfl <;> rfl
  | case3 x rest => exact List.forall_mem_cons.mpr ⟨first, numeralSpan_chars (by simp; decide) _⟩

lemma isWordChar_of_unsigned {text : Text} (isNumber : (unsigned text).isSome) : text.all isWordChar = true := by
  obtain ⟨c, rest, rfl, first, whole⟩ := Lua.numeralText_unsigned isNumber
  have first : isNumeralChar c = true := by
    rcases first with digit | ⟨rfl, _⟩
    · simp [isNumeralChar, Lua.isHexDigit_of_isDigit digit]
    · rfl
  have chars := numeralText_chars first rest
  rw [whole] at chars
  exact List.all_eq_true.mpr fun d mem => isWordChar_of (chars d mem) (by decide)

def numberWords : List Text := ["inf", "infinity", "nan"].map String.toList

lemma wordNumber_cases {body : Text} (isWord : (wordNumber body).isSome) :
    lower body ∈ numberWords ∨ ∃ name rest, body = name ++ '(' :: rest ∧ lower name = "nan".toList := by
  unfold wordNumber at isWord
  split_ifs at isWord with isInf isNan isTagged
  · rcases isInf with eq | eq <;> simp [eq, numberWords]
  · simp [isNan, numberWords]
  · refine .inr ?_
    rcases body with _ | ⟨a, _ | ⟨b, _ | ⟨c, _ | ⟨d, rest⟩⟩⟩⟩ <;> simp [lower] at isTagged
    obtain ⟨⟨isA, isB, isC, isD⟩, -⟩ := isTagged
    obtain rfl := (Ascii.toLower_eq_iff (by decide)).mp isD
    exact ⟨[a, b, c], rest, rfl, by simp [lower, isA, isB, isC]⟩
  · cases isWord

lemma numberWords_letters {body : Text} (isWord : lower body ∈ numberWords) :
    body ≠ [] ∧ ∀ c ∈ body, c.toLower.isAlpha = true := by
  have letters : ∀ word ∈ numberWords, word ≠ [] ∧ word.all Char.isAlpha = true := by
    simp only [numberWords, List.map_cons, List.map_nil, List.forall_mem_cons]
    decide
  obtain ⟨some, all⟩ := letters _ isWord
  refine ⟨?_, by simpa [lower] using all⟩
  rintro rfl
  exact some rfl

lemma isAlpha_of_toLower {c : Char} (letter : c.toLower.isAlpha = true) : c.isAlpha = true := by
  rw [← Bool.not_eq_false, Ascii.not_alpha_iff] at letter ⊢
  have moved := Ascii.toNat_toLower c
  split at moved <;> omega

lemma unsigned_letter {c : Char} {rest : Text} (letter : c.toLower.isAlpha = true) : unsigned (c :: rest) = none := by
  rw [← Option.not_isSome_iff_eq_none]
  intro isNumber
  obtain ⟨_, _, ⟨⟩, digit | ⟨rfl, _⟩, -⟩ := Lua.numeralText_unsigned isNumber
  · have apart := (Lua.isDigit_apart digit).1
    simp [Lua.isNameStart, isAlpha_of_toLower letter] at apart
  · exact absurd letter (by decide)

/-- What a number looks like after its sign: a number for Lua too, a word, or `nan(…)`. -/
lemma number_cases {value : Text} (isNumber : isNumber value = true) (body : Text)
    (eq : (signed (value.dropWhile isSpace)).2 = body) :
    ((unsigned body).isSome ∧ wordNumber body = none) ∨ (unsigned body = none ∧ lower body ∈ numberWords) ∨
      (unsigned body = none ∧ ∃ name rest, body = name ++ '(' :: rest ∧ lower name = "nan".toList) := by
  have letter {name : Text} (isName : lower name ∈ numberWords) (rest : Text) : unsigned (name ++ rest) = none := by
    obtain ⟨some, letters⟩ := numberWords_letters isName
    cases name with
    | nil => exact absurd rfl some
    | cons c name => exact unsigned_letter (letters c (by simp))
  cases word : wordNumber body with
  | none =>
    refine .inl ⟨?_, rfl⟩
    simpa [Query.isNumber, strtod, eq, word] using isNumber
  | some d =>
    rcases wordNumber_cases (Option.isSome_iff_exists.mpr ⟨d, word⟩) with isWord | ⟨name, rest, rfl, isNan⟩
    · exact .inr (.inl ⟨by simpa using letter isWord [], isWord⟩)
    · exact .inr (.inr ⟨letter (by simp [isNan, numberWords]) _, name, rest, rfl, isNan⟩)

lemma strtod_dropWhile (text : Text) : strtod (text.dropWhile isSpace) = strtod text := by
  have twice : (text.dropWhile isSpace).dropWhile isSpace = text.dropWhile isSpace := List.dropWhile_idempotent isSpace text
  simp only [strtod, twice]

lemma classifyWord_number {word : Text} (isNumber : isNumber word = true) : classifyWord word = .value := by
  unfold classifyWord
  split_ifs with isAnd isOr isNot
  · subst isAnd
    exact absurd isNumber (by decide)
  · subst isOr
    exact absurd isNumber (by decide)
  · subst isNot
    exact absurd isNumber (by decide)
  · rfl

lemma Scans.spaces {spaces text : Text} {tokens : List Token} (blank : ∀ c ∈ spaces, isSpace c = true) {i : Nat}
    (scans : Scans (i + spaces.length) text tokens) : Scans i (spaces ++ text) tokens := by
  induction spaces generalizing i with
  | nil => exact scans
  | cons c spaces ih =>
    obtain ⟨first, others⟩ := List.forall_mem_cons.mp blank
    refine .space first (ih others ?_)
    rw [List.length_cons] at scans
    rwa [Nat.add_assoc, Nat.add_comm 1]

lemma isSome_wordNumber {name : Text} (isWord : lower name ∈ numberWords) : (wordNumber name).isSome := by
  simp only [numberWords, List.map_cons, List.map_nil, List.mem_cons, List.not_mem_nil, or_false] at isWord
  rcases isWord with eq | eq | eq <;> simp [wordNumber, eq]

lemma isNumber_word {sign name : Text} (isSign : sign ∈ [[], ['-'], ['+']]) (isWord : lower name ∈ numberWords) :
    isNumber (sign ++ name) = true ∧ sign ++ name ≠ [] ∧ (sign ++ name).all isWordChar = true := by
  obtain ⟨some, letters⟩ := numberWords_letters isWord
  have isNumber := isSome_wordNumber isWord
  have word : name.all isWordChar = true := List.all_eq_true.mpr fun c mem =>
    @isWordChar_of (fun c => c.toLower.isAlpha) c (letters c mem) (by decide)
  simp only [List.mem_cons, List.not_mem_nil, or_false] at isSign
  rcases isSign with rfl | rfl | rfl
  · refine ⟨?_, some, word⟩
    cases name with
    | nil => exact absurd rfl some
    | cons c name =>
      rw [List.all_cons, Bool.and_eq_true, isWordChar_iff] at word
      have plain : signed (c :: name) = (false, c :: name) := by
        rcases signed_cases (c :: name) with ⟨eq, _⟩ | ⟨eq, _⟩ | ⟨eq, isPlus, _⟩
        · cases eq
          exact absurd (letters '-' (by simp)) (by decide)
        · cases eq
          exact absurd (letters '+' (by simp)) (by decide)
        · exact Prod.ext isPlus eq.symm
      simp [Query.isNumber, strtod, word.1.1, plain, isNumber]
  · have text : ('-' :: name).dropWhile isSpace = '-' :: name := rfl
    refine ⟨?_, by simp, by rw [List.singleton_append, List.all_cons, word]; decide⟩
    simp [Query.isNumber, strtod, text, signed, isNumber]
  · have text : ('+' :: name).dropWhile isSpace = '+' :: name := rfl
    refine ⟨?_, by simp, by rw [List.singleton_append, List.all_cons, word]; decide⟩
    simp [Query.isNumber, strtod, text, signed, isNumber]

lemma scans_number {value : Text} (isNumber : isNumber value = true) (i : Nat) :
    let text := value.dropWhile isSpace
    let body := (signed text).2
    ((unsigned body).isSome ∨ lower body ∈ numberWords) →
      ∃ start stop, Scans i value [{ type := .value, text, start, stop }] := by
  intro text body plain
  have word : text.all isWordChar = true := by
    have bodyWord : body.all isWordChar = true := by
      rcases plain with isUnsigned | isWord
      · exact isWordChar_of_unsigned isUnsigned
      · exact List.all_eq_true.mpr fun c mem =>
          @isWordChar_of (fun c => c.toLower.isAlpha) c ((numberWords_letters isWord).2 c mem) (by decide)
    rcases signed_cases text with ⟨eq, _⟩ | ⟨eq, _⟩ | ⟨eq, _⟩
    · rw [eq, List.all_cons, Bool.and_eq_true]
      exact ⟨by decide, bodyWord⟩
    · rw [eq, List.all_cons, Bool.and_eq_true]
      exact ⟨by decide, bodyWord⟩
    · rw [eq]
      exact bodyWord
  have isNumber' : Query.isNumber text = true := by
    rw [Query.isNumber, strtod_dropWhile]
    exact isNumber
  have split : value.takeWhile isSpace ++ text = value := List.takeWhile_append_dropWhile
  rcases eq : text with _ | ⟨c, rest⟩
  · rw [eq] at isNumber'
    cases isNumber'
  · rw [eq] at word isNumber' split
    rw [List.all_cons, Bool.and_eq_true] at word
    have token : Lexeme .value (c :: rest) [] := by
      rw [← classifyWord_number isNumber']
      exact .word word.1 word.2 rfl
    have scans : Scans (i + (value.takeWhile isSpace).length) (c :: rest ++ []) _ := .token token .nil
    rw [List.append_nil] at scans
    rw [← split]
    exact ⟨_, _, scans.spaces fun c mem => List.mem_takeWhile_imp mem⟩

/-- After `nan` a parenthesis is another token. -/
lemma scans_nan {value name rest : Text} (eq : (signed (value.dropWhile isSpace)).2 = name ++ '(' :: rest)
    (isNan : lower name = "nan".toList) (i : Nat) :
    ∃ t t' tokens, Scans i value (t :: t' :: tokens) ∧ t.type = .value ∧ t'.type = .openParen := by
  have isWord : lower name ∈ numberWords := by simp [isNan, numberWords]
  have split : value.takeWhile isSpace ++ value.dropWhile isSpace = value := List.takeWhile_append_dropWhile
  obtain ⟨sign, isSign, text⟩ : ∃ sign ∈ [[], ['-'], ['+']], value.dropWhile isSpace = (sign ++ name) ++ '(' :: rest := by
    rcases signed_cases (value.dropWhile isSpace) with ⟨eq', _⟩ | ⟨eq', _⟩ | ⟨eq', _⟩
    · exact ⟨['-'], by simp, by rw [eq', eq]; simp⟩
    · exact ⟨['+'], by simp, by rw [eq', eq]; simp⟩
    · exact ⟨[], by simp, by rw [eq', eq]; simp⟩
  obtain ⟨isNumber, some, word⟩ := isNumber_word isSign isWord
  rcases first : sign ++ name with _ | ⟨c, more⟩
  · exact absurd first some
  · rw [first] at isNumber word text
    rw [List.all_cons, Bool.and_eq_true] at word
    have token : Lexeme .value (c :: more) ('(' :: rest) := by
      rw [← classifyWord_number isNumber]
      exact .word word.1 word.2 rfl
    have paren : Lexeme .openParen ['('] rest := .openParen
    have scans {i : Nat} : Scans i (c :: more ++ (['('] ++ rest)) _ := .token token (.token paren (scans_scan le_rfl))
    rw [← split, text]
    exact ⟨_, _, _, scans.spaces fun c mem => List.mem_takeWhile_imp mem, rfl, rfl⟩

/-! ## Evaluation -/

lemma lexes_key {key : Text} (named : Lua.isName key = true) : Lua.Lexes (key ++ " ==".toList) [.name key, .op .eq] := by
  have op : Lua.Lexes " ==".toList [.op .eq] := .of_lex (by decide)
  exact (Lua.Lexes.name named).append rfl op

section Clause

variable {host : Lua.Host} {globals : Lua.Globals} {key piece text : Text} {start stop : Nat}
  (named : Lua.isName key = true) (isKey : isNumber key = false)
  (scans : Scans (key.length + 4) piece [{ type := .value, text, start, stop }])
include named isKey scans

lemma query_clause : ∃ k op v, query (key ++ " == ".toList ++ piece) =
      { ast := some (.compare k op v), complete := true, lua := key ++ (" == ".toList ++ text) } ∧
    k.text = key ∧ op.text = "==".toList ∧ v.text = text := by
  have tokens := tokenize_clause named scans
  simp only [isKey, Bool.false_eq_true, if_false] at tokens
  have some : key ≠ [] := by
    rintro rfl
    cases named
  refine ⟨{ type := .key, text := key, start := 0, stop := key.length },
    { type := .operator, text := "==".toList, start := key.length + 1, stop := key.length + 3 },
    { type := .value, text, start, stop }, ?_, rfl, rfl, rfl⟩
  unfold query
  rw [tokens, parse_clause rfl some rfl rfl]
  simp [serialize]

lemma eval_literal {value : Lua.Value} (isLiteral : literal text = some value) :
    eval host globals (query (key ++ " == ".toList ++ piece)) = (globals key).equal value := by
  obtain ⟨k, op, v, eq, rfl, isOp, rfl⟩ := query_clause named isKey scans
  have isEq : operator op.text = some .eq := by
    rw [isOp]
    decide
  rw [eval_guarded (by rw [eq]) (by rw [eq]) (by simp [Expr.wellFormed, named, isLiteral]) rfl]
  simp [Expr.holds, Expr.operators, Expr.truth, isEq, isLiteral, Lua.Host.apply, Lua.Value.truthy]

lemma eval_fails (fails : Lua.Fails (text ++ [')'])) :
    eval host globals (query (key ++ " == ".toList ++ piece)) = false := by
  obtain ⟨k, op, v, eq, -⟩ := query_clause named isKey scans
  have inner : Lua.Fails (key ++ " ==".toList ++ (' ' :: (text ++ [')']))) :=
    (lexes_key named).fails rfl (.blank rfl fails)
  have word : Lua.Lexes "return".toList [.ret] := .of_lex (by decide)
  have group : Lua.Fails ('(' :: (key ++ " ==".toList ++ (' ' :: (text ++ [')'])))) := .cons (by decide) rfl inner
  have chunk := word.fails rfl (group.blank (show isSpace ' ' = true from rfl))
  have none : Lua.parseChunk ("return (".toList ++ (key ++ (" == ".toList ++ text)) ++ [')']) = none := by
    unfold Lua.parseChunk
    have := chunk ("return (".toList ++ (key ++ (" == ".toList ++ text)) ++ [')']).length
    simp at this ⊢
    rw [this]
  rw [eval, eq]
  simp only [evalLua, none, ite_self]

lemma eval_name (isName : Lua.isName text = true) :
    eval host globals (query (key ++ " == ".toList ++ piece)) = (globals key).equal (globals text) := by
  obtain ⟨k, op, v, eq, -⟩ := query_clause named isKey scans
  have lexes := (lexes_key named).append rfl (lexes_blank (Lua.Lexes.name isName))
  have derives : Lua.Derives (.sub 0) ([.name key, .op .eq] ++ [.name text] ++ [.rparen])
      (.binary .eq (.var key) (.var text)) [.rparen] :=
    .name rfl (.op (by decide) (.name rfl (.stop nofun)) (.stop nofun))
  have some : key ++ " ==".toList ++ ' ' :: text ≠ [] := by simp
  have evaluated := @evalLua_of_derives host globals _ _ _ lexes some derives
  rw [eval, eq]
  simpa [Lua.Host.truth, Lua.Host.eval, Lua.Host.apply, Lua.Value.truthy] using evaluated

lemma eval_minus_name {name : Text} (eq : text = '-' :: name) (isName : Lua.isName name = true) :
    eval host globals (query (key ++ " == ".toList ++ piece)) = false := by
  obtain ⟨k, op, v, eq', -⟩ := query_clause named isKey scans
  subst eq
  have minus : Lua.Lexes ('-' :: name) [.minus, .name name] := by
    refine .cons rfl ?_ (Lua.Lexes.name isName)
    cases name with
    | nil => cases isName
    | cons c name =>
      simp only [Lua.isName, Bool.and_eq_true] at isName
      have other : c ≠ '-' := by
        rintro rfl
        exact absurd isName.1.1 (by decide)
      simp [Lua.lexOne, Lua.isNameStart, Lua.symbol, other]
  have lexes := lex_chunk ((lexes_key named).append rfl (lexes_blank minus))
  rw [eval, eq']
  have none : Lua.parseChunk ("return (".toList ++ (key ++ (" == ".toList ++ '-' :: name)) ++ [')']) = none := by
    unfold Lua.parseChunk
    have := lexes _ le_rfl
    simp at this ⊢
    rw [this]
    simp [Lua.parseExp, Lua.calls, Lua.Op.priority]
  simp only [evalLua, none, ite_self]

end Clause

/-! ## Numbers -/

lemma numeral_float {body : Text} {d : Double} (isFloat : Lua.numeral body = some (.float d)) :
    ∃ q, unsigned body = some q ∧ d = .ofRat q := by
  have decimals (isFloat : Lua.numeral.decimal body = some (.float d)) : ∃ q, unsigned body = some q ∧ d = .ofRat q := by
    unfold Lua.numeral.decimal at isFloat
    split at isFloat
    · cases isFloat
    · obtain ⟨q, eq, ⟨⟩⟩ := Option.map_eq_some_iff.mp isFloat
      exact ⟨q, eq, rfl⟩
  unfold Lua.numeral at isFloat
  split at isFloat
  · split at isFloat
    · cases isFloat
    · exact decimals isFloat
  · exact decimals isFloat

lemma literal_number {body : Text} (isNumber : (unsigned body).isSome) : ∃ n, Lua.numeral body = some n ∧
    literal body = some (.number n) ∧ literal ('-' :: body) = some (.number n.neg) := by
  cases body with
  | nil => cases isNumber
  | cons c rest =>
    obtain ⟨n, eq, black, other, read⟩ := Lua.lexOne_unsigned isNumber
    have lexes : Lua.Lexes (c :: rest) [.number n] := .cons black read .nil
    have minus : Lua.Lexes ('-' :: c :: rest) [.minus, .number n] := by
      refine .cons rfl ?_ lexes
      simp [Lua.lexOne, Lua.isNameStart, Lua.symbol, other]
    exact ⟨n, eq, by simp only [literal, lexes _ le_rfl], by simp only [literal, minus _ le_rfl]⟩

/-- The number that Lua reads is the one of the metadata, but for integers that the double is not. -/
lemma equal_number {value body : Text} {negative : Bool} {n : Lua.Number}
    (eq : signed (value.dropWhile isSpace) = (negative, body)) (isNumber : (unsigned body).isSome)
    (noWord : wordNumber body = none) (isNumeral : Lua.numeral body = some n)
    (noPlus : (value.dropWhile isSpace).head? ≠ some '+') :
    (inject value).equal (.number (if negative then n.neg else n)) = keepsNumber value := by
  obtain ⟨q, isQ⟩ := Option.isSome_iff_exists.mp isNumber
  have read : strtod value = some (if negative then (Double.ofRat q).neg else .ofRat q) := by
    simp [strtod, eq, noWord, isQ]
  have some : value ≠ [] := by
    rintro rfl
    cases read
  have injected : inject value = .number (.float (if negative then (Double.ofRat q).neg else .ofRat q)) := by
    simp [inject, tryNumber, some, read]
  rw [injected, Lua.Value.equal]
  have isReal : (if negative then (Double.ofRat q).neg else .ofRat q) ≠ .nan := by
    have := Double.ofRat_ne_nan q
    cases eq' : Double.ofRat q <;> cases negative <;> simp_all [Double.neg]
  cases n with
  | float d =>
    obtain ⟨q', isQ', rfl⟩ := numeral_float isNumeral
    obtain rfl : q = q' := Option.some.inj (isQ.symm.trans isQ')
    have keeps : keepsNumber value = true := by
      simp [keepsNumber, eq, noPlus, isNumber, isNumeral]
    rw [keeps]
    cases negative
    · exact Double.eq_self isReal
    · exact Double.eq_self isReal
  | int m =>
    rw [Bool.eq_iff_iff]
    cases negative
    · simp [keepsNumber, eq, noPlus, isNumber, isNumeral, read, Lua.Number.eq, Lua.Number.exact, Double.eq_finite]
    · simp [keepsNumber, eq, noPlus, isNumber, isNumeral, read, Lua.Number.eq, Lua.Number.exact, Double.eq_finite,
        Lua.Number.neg]

lemma isName_word {body : Text} (isWord : lower body ∈ numberWords) : Lua.isName body = true ∧ library body = .nil := by
  obtain ⟨some, letters⟩ := numberWords_letters isWord
  have other : body ∉ Lua.reserved ++ libraryNames ++ ["and", "or", "not", "nil", "true", "false", "return"].map String.toList := by
    intro mem
    have apart : ∀ name ∈ Lua.reserved ++ libraryNames ++
        ["and", "or", "not", "nil", "true", "false", "return"].map String.toList, lower name ∉ numberWords := by
      decide
    exact apart body mem isWord
  simp only [List.map_cons, List.map_nil, List.mem_append, List.mem_cons, List.not_mem_nil, or_false, not_or] at other
  obtain ⟨⟨noKeyword, noLibrary⟩, noAnd, noOr, noNot, noNil, noTrue, noFalse, noReturn⟩ := other
  have isName : Lua.word body = .name body := by
    simp only [Lua.word, noAnd, noOr, noNot, noNil, noTrue, noFalse, noReturn, noKeyword, if_false]
  have noVersion : body ≠ "_VERSION".toList := by
    rintro rfl
    exact noLibrary (by decide)
  refine ⟨?_, by simp only [library, noVersion, noLibrary, if_false]⟩
  cases body with
  | nil => exact absurd rfl some
  | cons c rest =>
    have alpha : ∀ d ∈ c :: rest, d.isAlpha = true := fun d mem => isAlpha_of_toLower (letters d mem)
    obtain ⟨first, others⟩ := List.forall_mem_cons.mp alpha
    have chars : rest.all Lua.isNameChar = true := by
      refine List.all_eq_true.mpr fun d mem => ?_
      simp [Lua.isNameChar, Char.isAlphanum, others d mem]
    simp [Lua.isName, Lua.isNameStart, first, chars, isName]

/-! ## Strings -/

lemma quoted_escapeQuotes (value : Text) : Quoted '"' (escapeQuotes value) := by
  induction value with
  | nil => exact .nil
  | cons c rest ih =>
    by_cases special : c = '"' ∨ c = '\\'
    · rw [escapeQuotes, if_pos special]
      exact .escape ih
    · rw [escapeQuotes, if_neg special]
      exact .cons (fun eq => special (.inl eq)) (fun eq => special (.inr eq)) ih

/-- What is in quotes for the query is so for Lua. -/
lemma rawString_quoted {quote : Char} {body : Text} (plain : quote ≠ '\\') (inner : Quoted quote body) (more : Text) :
    Lua.rawString quote (body ++ quote :: more) = some (body, more) := by
  induction inner with
  | nil => cases more <;> simp [Lua.rawString]
  | @escape d body _ ih => simp [Lua.rawString, plain.symm, ih]
  | @cons c body other noEscape _ ih =>
    cases body with
    | nil => cases more <;> simp [Lua.rawString, other, noEscape]
    | cons d body =>
      simp only [List.cons_append] at ih ⊢
      simp [Lua.rawString, other, noEscape, ih]

lemma unescape_escapeQuotes (value : Text) : ∀ {fuel : Nat}, (escapeQuotes value).length ≤ fuel →
    Lua.unescape fuel (escapeQuotes value) = if '\n' ∉ value ∧ '\r' ∉ value then some value else none := by
  induction value with
  | nil =>
    intro fuel _
    cases fuel <;> rfl
  | cons c rest ih =>
    intro fuel enough
    by_cases special : c = '"' ∨ c = '\\'
    · rw [escapeQuotes, if_pos special] at enough ⊢
      simp only [List.length_cons] at enough
      obtain ⟨fuel, rfl⟩ := Nat.exists_eq_add_one_of_ne_zero (show fuel ≠ 0 by omega)
      have after := @ih fuel (by omega)
      have same : Lua.escape c (escapeQuotes rest) = some ([c], escapeQuotes rest) := by
        rcases special with rfl | rfl <;> rfl
      have line : c ≠ '\n' ∧ c ≠ '\r' := by
        rcases special with rfl | rfl <;> decide
      simp only [Lua.unescape, if_true, same, Option.bind_some, after, List.mem_cons, line.1.symm, line.2.symm, false_or]
      split <;> rfl
    · rw [escapeQuotes, if_neg special] at enough ⊢
      simp only [List.length_cons] at enough
      obtain ⟨fuel, rfl⟩ := Nat.exists_eq_add_one_of_ne_zero (show fuel ≠ 0 by omega)
      have after := @ih fuel (by omega)
      have noEscape : c ≠ '\\' := fun eq => special (.inr eq)
      by_cases line : c = '\n' ∨ c = '\r'
      · unfold Lua.unescape
        rw [if_neg noEscape, if_pos line, if_neg]
        rcases line with rfl | rfl <;> simp
      · unfold Lua.unescape
        rw [if_neg noEscape, if_neg line, after]
        obtain ⟨noNewline, noReturn⟩ := not_or.mp line
        simp only [List.mem_cons, Ne.symm noNewline, Ne.symm noReturn, false_or]
        split <;> rfl

/-- A string in quotes is a literal, unless it has another line. -/
lemma readString_escapeQuotes (value more : Text) : Lua.lexOne '"' (escapeQuotes value ++ '"' :: more) =
    if '\n' ∉ value ∧ '\r' ∉ value then some (.string value, more) else none := by
  have raw := rawString_quoted (by decide) (quoted_escapeQuotes value) more
  have read : Lua.lexOne '"' (escapeQuotes value ++ '"' :: more) =
      (Lua.unescape (escapeQuotes value).length (escapeQuotes value)).map fun s => (.string s, more) := by
    simp [Lua.lexOne, Lua.isNameStart, Lua.symbol, Lua.readString, raw]
  rw [read, unescape_escapeQuotes value le_rfl]
  split <;> rfl

/-! ## Picked values -/

section Picked

variable {host : Lua.Host} {key value : Text} (named : Lua.isName key = true) (isKey : isNumber key = false)
include named isKey

lemma selects_of_scans {text : Text} {start stop : Nat}
    (scans : Scans (key.length + 4) (quoteValueForQuery value) [{ type := .value, text, start, stop }]) :
    Selects host key value ↔ eval host (set library [(key, value)]) (query (picked key value)) = true := by
  obtain ⟨k, op, v, eq, isK, -⟩ := query_clause named isKey scans
  have ast : (query (picked key value)).ast = some (.compare k op v) := congrArg Parsed.ast eq
  have complete : (query (picked key value)).complete = true := congrArg Parsed.complete eq
  exact ⟨fun selects => selects.2.2, fun selected => ⟨⟨k, op, v, ast, isK⟩, complete, selected⟩⟩

omit named isKey in
lemma set_self : set library [(key, value)] key = inject value := by
  simp [set]

lemma selects_string (noNumber : isNumber value = false) :
    Selects host key value ↔ '\n' ∉ value ∧ '\r' ∉ value := by
  have quoted : quoteValueForQuery value = '"' :: escapeQuotes value ++ ['"'] := by
    simp [quoteValueForQuery, noNumber]
  have scans : Scans (key.length + 4) ('"' :: escapeQuotes value ++ ['"'] ++ []) _ :=
    .token (.closed (.inl rfl) (quoted_escapeQuotes value)) .nil
  rw [List.append_nil, ← quoted] at scans
  rw [selects_of_scans named isKey scans, picked]
  have injected : set library [(key, value)] key = .string value := by
    have noRead : strtod value = none := by simpa [isNumber] using noNumber
    simp [set_self, inject, tryNumber, noRead]
  by_cases line : '\n' ∉ value ∧ '\r' ∉ value
  · have read := readString_escapeQuotes value []
    rw [if_pos line] at read
    have lexes : Lua.Lexes ('"' :: (escapeQuotes value ++ ['"'])) [.string value] := .cons rfl read .nil
    have isLiteral : literal (quoteValueForQuery value) = some (.string value) := by
      rw [quoted, List.cons_append]
      simp only [literal, lexes _ le_rfl]
    rw [eval_literal named isKey scans isLiteral, injected]
    simp [Lua.Value.equal, line]
  · have read := readString_escapeQuotes value [')']
    rw [if_neg line] at read
    have fails : Lua.Fails ('"' :: (escapeQuotes value ++ ['"', ')'])) := .of_lexOne rfl read
    rw [eval_fails named isKey scans (by rw [quoted]; simpa using fails)]
    simp [line]

lemma eval_plus {body : Text} {start stop : Nat} (plus : value.dropWhile isSpace = '+' :: body)
    (scans : Scans (key.length + 4) value [{ type := .value, text := value.dropWhile isSpace, start, stop }]) :
    eval host (set library [(key, value)]) (query (key ++ " == ".toList ++ value)) = false := by
  refine eval_fails named isKey scans ?_
  rw [plus]
  exact .of_lexOne rfl (by simp [Lua.lexOne, Lua.isNameStart, Lua.symbol])

section Number

variable (isNumber : isNumber value = true) {negative : Bool} {body : Text}
  (eq : signed (value.dropWhile isSpace) = (negative, body))
include isNumber

omit named isKey in
lemma quote_number : quoteValueForQuery value = value := by
  have some : value ≠ [] := by
    rintro rfl
    cases isNumber
  simp [quoteValueForQuery, some, isNumber]

include eq

omit named isKey isNumber in
lemma sign_cases : value.dropWhile isSpace = '-' :: body ∧ negative = true ∨
    value.dropWhile isSpace = '+' :: body ∧ keepsNumber value = false ∨
    value.dropWhile isSpace = body ∧ negative = false ∧ (value.dropWhile isSpace).head? ≠ some '+' := by
  have cases := signed_cases (value.dropWhile isSpace)
  rw [eq] at cases
  rcases cases with ⟨text, isMinus⟩ | ⟨text, -⟩ | ⟨text, isPlus, -, noPlus⟩
  · exact .inl ⟨text, isMinus⟩
  · exact .inr (.inl ⟨text, by simp [keepsNumber, text]⟩)
  · exact .inr (.inr ⟨text, isPlus, noPlus⟩)

lemma selects_numeral (isUnsigned : (unsigned body).isSome) (noWord : wordNumber body = none) :
    Selects host key value ↔ keepsNumber value = true := by
  obtain ⟨start, stop, scans⟩ := scans_number isNumber (key.length + 4) (.inl (by rw [eq]; exact isUnsigned))
  rw [selects_of_scans named isKey (by rw [quote_number isNumber]; exact scans), picked, quote_number isNumber]
  obtain ⟨n, isNumeral, isLiteral, isNegative⟩ := literal_number isUnsigned
  have equal := equal_number eq isUnsigned noWord isNumeral
  rcases sign_cases eq with ⟨text, rfl⟩ | ⟨text, noKeep⟩ | ⟨text, rfl, noPlus⟩
  · rw [← text] at isNegative
    rw [eval_literal named isKey scans isNegative, set_self, ← equal (by simp [text])]
    rfl
  · rw [eval_plus named isKey text scans, noKeep]
  · rw [← text] at isLiteral
    rw [eval_literal named isKey scans isLiteral, set_self, ← equal noPlus]
    rfl

/-- Lua takes `inf` and its like for names of globals that are not set. -/
lemma selects_word (noUnsigned : unsigned body = none) (isWord : lower body ∈ numberWords) :
    Selects host key value ↔ keepsNumber value = true := by
  obtain ⟨start, stop, scans⟩ := scans_number isNumber (key.length + 4) (.inr (by rw [eq]; exact isWord))
  have noKeep : keepsNumber value = false := by simp [keepsNumber, eq, noUnsigned]
  obtain ⟨isName, unset⟩ := isName_word isWord
  rw [selects_of_scans named isKey (by rw [quote_number isNumber]; exact scans), picked, quote_number isNumber, noKeep]
  rcases sign_cases eq with ⟨text, -⟩ | ⟨text, -⟩ | ⟨text, -⟩
  · rw [eval_minus_name named isKey scans text isName]
  · rw [eval_plus named isKey text scans]
  · rw [text] at scans
    have other : body ≠ key := by
      rintro rfl
      have isWordNumber := (@isNumber_word [] body (by simp) isWord).1
      rw [List.nil_append, isKey] at isWordNumber
      cases isWordNumber
    have unsetNow : set library [(key, value)] body = .nil := by simp [set, Function.update, other, unset]
    rw [eval_name named isKey scans isName, set_self, unsetNow]
    unfold inject
    split <;> simp [Lua.Value.equal]

end Number

lemma selects_number (isNumber : isNumber value = true) : Selects host key value ↔ keepsNumber value = true := by
  rcases eq : signed (value.dropWhile isSpace) with ⟨negative, body⟩
  have eqBody : (signed (value.dropWhile isSpace)).2 = body := by rw [eq]
  rcases number_cases isNumber body eqBody with ⟨isUnsigned, noWord⟩ | ⟨noUnsigned, isWord⟩ | ⟨noUnsigned, name, rest, rfl, isNan⟩
  · exact selects_numeral named isKey isNumber eq isUnsigned noWord
  · exact selects_word named isKey isNumber eq noUnsigned isWord
  · obtain ⟨t, t', tokens, scans, isValue, opens⟩ := scans_nan eqBody isNan (key.length + 4)
    have noKeep : keepsNumber value = false := by simp [keepsNumber, eq, noUnsigned]
    rw [noKeep]
    refine ⟨fun selects => ?_, nofun⟩
    have complete : (parse (tokenize (picked key value))).complete = true := selects.2.1
    rw [picked, quote_number isNumber, tokenize_clause named scans] at complete
    simp only [isKey, Bool.false_eq_true, if_false] at complete
    rw [parse_clause_paren rfl rfl isValue opens] at complete
    cases complete

end Picked

/-- A picked value selects what has it where it can be picked: the key is no number for the lexer of queries, a value
that is a number has no plus sign and no word and is the same number for Lua, and another value is on one line. -/
theorem picked_value_selects_iff (host : Lua.Host) {key value : Text} (named : Lua.isName key = true) :
    Selects host key value ↔ pickable key value = true := by
  by_cases isKey : isNumber key = true
  · rw [pickable, isKey]
    refine ⟨fun ⟨⟨k, op, v, ast, _⟩, _⟩ => ?_, nofun⟩
    have none : (parse (tokenize (picked key value))).ast = none := by
      rw [picked, tokenize_clause named (scans_scan le_rfl)]
      exact parse_value (by simp [isKey])
    have ast : (parse (tokenize (picked key value))).ast = some (.compare k op v) := ast
    rw [none] at ast
    cases ast
  · have isKey : isNumber key = false := by simpa using isKey
    by_cases isNumber : isNumber value = true
    · rw [selects_number named isKey isNumber]
      simp [pickable, isKey, isNumber]
    · rw [selects_string named isKey (by simpa using isNumber)]
      simp [pickable, isKey, isNumber]

theorem picked_quote_selects : Selects plainHost "robot".toList "a \"b\" \\".toList :=
  (picked_value_selects_iff plainHost (by decide)).mpr (by decide +kernel)

/-- A value with a plus sign is picked as a number, which Lua does not read. -/
theorem picked_plus_selects_nothing : Lua.isName "offset".toList = true ∧ library "offset".toList = .nil ∧
    (query (picked "offset".toList "+5".toList)).complete = true ∧
    eval plainHost (set library [("offset".toList, "+5".toList)]) (query (picked "offset".toList "+5".toList)) = false := by
  decide

end PjCloud.Query
