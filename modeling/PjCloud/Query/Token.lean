import PjCloud.Lib.Strtod

/-!
# The tokens of a query

`query/token.h` of the plugin. A text is a list of bytes, and offsets count them.
-/

namespace PjCloud.Query
open Lib

abbrev Text := List Char

inductive TokenType where
  | key
  | operator
  | value
  | and
  | or
  | not
  | openParen
  | closeParen
  deriving DecidableEq, Repr

/-- `stop` is `end` in the source. -/
structure Token where
  type : TokenType
  text : Text := []
  start : Nat := 0
  stop : Nat := 0
  deriving DecidableEq, Repr

/-! ## Lexer -/

def isPunct (c : Char) : Bool :=
  c = '(' || c = ')' || c = '=' || c = '~' || c = '<' || c = '>' || c = '"' || c = '\''

def isWordChar (c : Char) : Bool := !isSpace c && !isPunct c

/-- `==`, `~=`, `<=`, `>=` -/
def isTwoChar (c d : Char) : Bool := d = '=' && (c = '=' || c = '~' || c = '<' || c = '>')

def isNumber (word : Text) : Bool := (strtod word).isSome

def classifyWord (word : Text) : TokenType :=
  if word = "and".toList then .and
  else if word = "or".toList then .or
  else if word = "not".toList then .not
  else if isNumber word then .value
  else .key

/-- What is read after the opening quote, with the closing one, and what is left. A backslash takes the next byte with
it unless it is the last byte. -/
def quoted (quote : Char) : Text → Text × Text
  | [] => ([], [])
  | [c] => ([c], [])
  | c :: d :: rest =>
    if c = quote then ([c], d :: rest)
    else if c = '\\' then
      let (body, left) := quoted quote rest
      (c :: d :: body, left)
    else
      let (body, left) := quoted quote (d :: rest)
      (c :: body, left)

/-- One token from its first byte, which is no white space, on: its type, its text and what is left. -/
def lexeme (c : Char) (rest : Text) : TokenType × Text × Text :=
  if (rest.head?.any fun d => isTwoChar c d) then (.operator, c :: rest.take 1, rest.drop 1)
  else if c = '<' ∨ c = '>' then (.operator, [c], rest)
  else if c = '(' then (.openParen, [c], rest)
  else if c = ')' then (.closeParen, [c], rest)
  else if c = '"' ∨ c = '\'' then
    let (body, left) := quoted c rest
    (.value, c :: body, left)
  else if c = '=' ∨ c = '~' then (.operator, [c], rest)
  -- every other byte starts a word: the source's last branch, for bytes of no kind, is not reached
  else
    let word := c :: rest.takeWhile isWordChar
    (classifyWord word, word, rest.dropWhile isWordChar)

/-- The loop of `tokenize`, from the offset `i` on. A turn takes a byte at least. -/
def scan : Nat → Nat → Text → List Token
  | 0, _, _ => []
  | _ + 1, _, [] => []
  | fuel + 1, i, c :: rest =>
    if isSpace c then scan fuel (i + 1) rest
    else
      let (type, text, left) := lexeme c rest
      { type, text, start := i, stop := i + text.length } :: scan fuel (i + text.length) left

def tokenize (source : Text) : List Token := scan source.length 0 source

example : (tokenize "robot == \"boni\\\"rob\" or not (x<=-1.5e3)".toList).map (fun t => (t.type, t.start, t.stop)) =
    [(.key, 0, 5), (.operator, 6, 8), (.value, 9, 20), (.or, 21, 23), (.not, 24, 27), (.openParen, 28, 29),
      (.key, 29, 30), (.operator, 30, 32), (.value, 32, 38), (.closeParen, 38, 39)] := by decide +kernel

/-! ## What a token is -/

/-- The bytes between two quotes: no backslash stands alone, and no other quote of the kind. -/
inductive Quoted (quote : Char) : Text → Prop where
  | nil : Quoted quote []
  | escape {d body} : Quoted quote body → Quoted quote ('\\' :: d :: body)
  | cons {c body} : c ≠ quote → c ≠ '\\' → Quoted quote body → Quoted quote (c :: body)

def isQuote (c : Char) : Prop := c = '"' ∨ c = '\''

/-- A token and what may come right after it. -/
inductive Lexeme : TokenType → Text → Text → Prop where
  | twoChar {c d more} : isTwoChar c d = true → Lexeme .operator [c, d] more
  | oneChar {c more} : c = '<' ∨ c = '>' ∨ c = '=' ∨ c = '~' → more.head? ≠ some '=' → Lexeme .operator [c] more
  | openParen {more} : Lexeme .openParen ['('] more
  | closeParen {more} : Lexeme .closeParen [')'] more
  | closed {quote body more} : isQuote quote → Quoted quote body → Lexeme .value (quote :: body ++ [quote]) more
  | unclosed {quote body} : isQuote quote → Quoted quote body → Lexeme .value (quote :: body) []
  | dangling {quote body} : isQuote quote → Quoted quote body → Lexeme .value (quote :: body ++ ['\\']) []
  | word {c rest more} : isWordChar c = true → rest.all isWordChar = true → more.head?.all (!isWordChar ·) = true →
    Lexeme (classifyWord (c :: rest)) (c :: rest) more

lemma isQuote.ne_backslash {quote : Char} (isQuote : isQuote quote) : quote ≠ '\\' := by
  rcases isQuote with rfl | rfl <;> decide

lemma quoted_closed {quote : Char} {body : Text} (plain : quote ≠ '\\') (inner : Quoted quote body) (more : Text) :
    quoted quote (body ++ quote :: more) = (body ++ [quote], more) := by
  induction inner with
  | nil => cases more <;> simp [quoted]
  | @escape d body _ ih => simp [quoted, plain.symm, ih]
  | @cons c body other noEscape _ ih =>
    cases body with
    | nil => cases more <;> simp [quoted, other, noEscape]
    | cons d body =>
      simp only [List.cons_append] at ih ⊢
      simp [quoted, other, noEscape, ih]

lemma quoted_unclosed {quote : Char} {body : Text} (plain : quote ≠ '\\') (inner : Quoted quote body) :
    quoted quote body = (body, []) := by
  induction inner with
  | nil => rfl
  | @escape d body _ ih => simp [quoted, plain.symm, ih]
  | @cons c body other noEscape _ ih =>
    cases body with
    | nil => rfl
    | cons d body => simp [quoted, other, noEscape, ih]

lemma quoted_dangling {quote : Char} {body : Text} (plain : quote ≠ '\\') (inner : Quoted quote body) :
    quoted quote (body ++ ['\\']) = (body ++ ['\\'], []) := by
  induction inner with
  | nil => rfl
  | @escape d body _ ih => simp [quoted, plain.symm, ih]
  | @cons c body other noEscape _ ih =>
    cases body with
    | nil => simp [quoted, other, noEscape]
    | cons d body =>
      simp only [List.cons_append] at ih ⊢
      simp [quoted, other, noEscape, ih]

lemma quoted_cases (quote : Char) (rest : Text) : ∃ body, Quoted quote body ∧
    ((∃ more, rest = body ++ quote :: more ∧ quoted quote rest = (body ++ [quote], more)) ∨
      (rest = body ∧ quoted quote rest = (body, [])) ∨
      (rest = body ++ ['\\'] ∧ quoted quote rest = (body ++ ['\\'], []))) := by
  fun_induction quoted quote rest with
  | case1 => exact ⟨[], .nil, .inr (.inl ⟨rfl, rfl⟩)⟩
  | case2 c =>
    by_cases close : c = quote
    · exact ⟨[], .nil, .inl ⟨[], by simp [close]⟩⟩
    · by_cases escape : c = '\\'
      · exact ⟨[], .nil, .inr (.inr (by simp [escape]))⟩
      · exact ⟨[c], .cons close escape .nil, .inr (.inl ⟨rfl, rfl⟩)⟩
  | case3 d rest => exact ⟨[], .nil, .inl ⟨d :: rest, rfl, rfl⟩⟩
  | case4 d rest inner left eq other ih =>
    obtain ⟨body, isBody, ends⟩ := ih
    refine ⟨_ :: d :: body, .escape isBody, ?_⟩
    rw [eq] at ends
    simpa [Prod.ext_iff] using ends
  | case5 c d rest other noEscape inner left eq ih =>
    obtain ⟨body, isBody, ends⟩ := ih
    refine ⟨c :: body, .cons other noEscape isBody, ?_⟩
    rw [eq] at ends
    simpa [Prod.ext_iff] using ends

lemma isTwoChar_iff {c d : Char} : isTwoChar c d = true ↔ d = '=' ∧ (c = '=' ∨ c = '~' ∨ c = '<' ∨ c = '>') := by
  simp [isTwoChar, or_assoc]

lemma isPunct_iff {c : Char} : isPunct c = true ↔
    c = '(' ∨ c = ')' ∨ c = '=' ∨ c = '~' ∨ c = '<' ∨ c = '>' ∨ c = '"' ∨ c = '\'' := by
  simp [isPunct, or_assoc]

lemma isWordChar_iff {c : Char} : isWordChar c = true ↔ isSpace c = false ∧ isPunct c = false := by
  simp [isWordChar]

lemma not_isWordChar_of_isSpace {c : Char} (space : isSpace c = true) : isWordChar c = false := by
  simp [isWordChar, space]

lemma takeWhile_of_all {rest more : Text} (all : rest.all isWordChar = true)
    (stops : more.head?.all (!isWordChar ·) = true) : (rest ++ more).takeWhile isWordChar = rest := by
  rw [List.takeWhile_append_of_pos (by simpa using all)]
  cases more with
  | nil => simp
  | cons d more =>
    have stop : isWordChar d = false := by simpa using stops
    simp [stop]

lemma dropWhile_of_all {rest more : Text} (all : rest.all isWordChar = true)
    (stops : more.head?.all (!isWordChar ·) = true) : (rest ++ more).dropWhile isWordChar = more := by
  rw [List.dropWhile_append_of_pos (by simpa using all)]
  cases more with
  | nil => rfl
  | cons d more =>
    have stop : isWordChar d = false := by simpa using stops
    simp [stop]

lemma head_dropWhile (rest : Text) : (rest.dropWhile isWordChar).head?.all (!isWordChar ·) = true := by
  induction rest with
  | nil => rfl
  | cons d rest ih =>
    by_cases word : isWordChar d = true
    · simpa [List.dropWhile_cons, word] using ih
    · simp [word]

lemma Lexeme.of_oneChar {c : Char} {rest : Text} (one : c = '<' ∨ c = '>' ∨ c = '=' ∨ c = '~')
    (single : ¬ (rest.head?.any fun d => isTwoChar c d) = true) : Lexeme .operator [c] rest := by
  apply Lexeme.oneChar one
  intro head
  rw [head, Option.any_some, isTwoChar_iff] at single
  tauto

lemma lexeme_spec {c : Char} (black : isSpace c = false) (rest : Text) :
    Lexeme (lexeme c rest).1 (lexeme c rest).2.1 (lexeme c rest).2.2 ∧
      c :: rest = (lexeme c rest).2.1 ++ (lexeme c rest).2.2 := by
  have quotes (isQuote : isQuote c) : ∀ p, p = quoted c rest → Lexeme .value (c :: p.1) p.2 ∧
      c :: rest = c :: p.1 ++ p.2 := by
    rintro _ rfl
    obtain ⟨body, inner, ⟨more, rfl, eq⟩ | ⟨rfl, eq⟩ | ⟨rfl, eq⟩⟩ := quoted_cases c rest
    · rw [eq]
      exact ⟨.closed isQuote inner, by simp⟩
    · rw [eq]
      exact ⟨.unclosed isQuote inner, by simp⟩
    · rw [eq]
      exact ⟨.dangling isQuote inner, by simp⟩
  fun_cases lexeme c rest with
  | case1 two =>
    cases rest with
    | nil => simp at two
    | cons d rest => exact ⟨.twoChar (by simpa using two), by simp⟩
  | case2 single angle => exact ⟨.of_oneChar (by tauto) single, rfl⟩
  | case3 _ _ opens =>
    subst opens
    exact ⟨.openParen, rfl⟩
  | case4 _ _ _ closes =>
    subst closes
    exact ⟨.closeParen, rfl⟩
  | case5 _ _ _ _ isQuote body left eq => exact quotes isQuote _ eq.symm
  | case6 single _ _ _ _ lone => exact ⟨.of_oneChar (by tauto) single, rfl⟩
  | case7 single angle opens closes isQuote lone word =>
    have plain : isPunct c = false := by
      rw [← Bool.not_eq_true, isPunct_iff]
      tauto
    exact ⟨.word (isWordChar_iff.mpr ⟨black, plain⟩) (by simp) (head_dropWhile rest), by simp [word]⟩

lemma lexeme_of {type : TokenType} {c : Char} {text more : Text} (token : Lexeme type (c :: text) more) :
    lexeme c (text ++ more) = (type, c :: text, more) := by
  generalize eq : c :: text = whole at token
  cases token with
  | twoChar two =>
    cases eq
    simp [lexeme, two]
  | oneChar one follows =>
    cases eq
    have single : (more.head?.any fun d => isTwoChar c d) = false := by
      cases more with
      | nil => rfl
      | cons d more =>
        have other : d ≠ '=' := by simpa using follows
        simp [isTwoChar, other]
    rcases one with rfl | rfl | rfl | rfl <;> simp [lexeme, single]
  | openParen =>
    cases eq
    cases more <;> simp [lexeme, isTwoChar]
  | closeParen =>
    cases eq
    cases more <;> simp [lexeme, isTwoChar]
  | @closed quote body _ isQuote inner =>
    rw [List.cons_append] at eq
    cases eq
    have read := quoted_closed isQuote.ne_backslash inner more
    rcases isQuote with rfl | rfl <;> cases body <;> simp [lexeme, isTwoChar] at read ⊢ <;> simp [read]
  | @unclosed quote body isQuote inner =>
    cases eq
    have read := quoted_unclosed isQuote.ne_backslash inner
    rcases isQuote with rfl | rfl <;> cases text <;> simp [lexeme, isTwoChar, read]
  | @dangling quote body isQuote inner =>
    rw [List.cons_append] at eq
    cases eq
    have read := quoted_dangling isQuote.ne_backslash inner
    rcases isQuote with rfl | rfl <;> cases body <;> simp [lexeme, isTwoChar] at read ⊢ <;> simp [read]
  | @word _ _ _ first all stops =>
    cases eq
    have plain := isWordChar_iff.mp first
    have none : ¬ (c = '(' ∨ c = ')' ∨ c = '=' ∨ c = '~' ∨ c = '<' ∨ c = '>' ∨ c = '"' ∨ c = '\'') := by
      rw [← isPunct_iff, Bool.not_eq_true]
      exact plain.2
    have single : ((text ++ more).head?.any fun d => isTwoChar c d) = false := by
      cases text ++ more with
      | nil => rfl
      | cons d rest =>
        rw [← Bool.not_eq_true, List.head?_cons, Option.any_some, isTwoChar_iff]
        tauto
    unfold lexeme
    rw [takeWhile_of_all all stops, dropWhile_of_all all stops, if_neg (by rw [single]; decide), if_neg (by tauto),
      if_neg (by tauto), if_neg (by tauto), if_neg (by tauto), if_neg (by tauto)]

lemma Lexeme.ne_nil {type : TokenType} {text more : Text} (token : Lexeme type text more) : text ≠ [] := by
  cases token <;> simp

lemma Lexeme.black {type : TokenType} {c : Char} {text more : Text} (token : Lexeme type (c :: text) more) :
    isSpace c = false := by
  generalize eq : c :: text = whole at token
  cases token with
  | twoChar two =>
    cases eq
    obtain ⟨rfl, rfl | rfl | rfl | rfl⟩ := isTwoChar_iff.mp two <;> decide
  | oneChar one =>
    cases eq
    rcases one with rfl | rfl | rfl | rfl <;> decide
  | openParen =>
    cases eq
    decide
  | closeParen =>
    cases eq
    decide
  | closed isQuote | unclosed isQuote | dangling isQuote =>
    cases eq
    rcases isQuote with rfl | rfl <;> decide
  | word first =>
    cases eq
    exact (isWordChar_iff.mp first).1

/-! ## The tokens of a text -/

/-- A text from the offset `i` on, and its tokens. -/
inductive Scans : Nat → Text → List Token → Prop where
  | nil {i} : Scans i [] []
  | space {i c rest tokens} : isSpace c = true → Scans (i + 1) rest tokens → Scans i (c :: rest) tokens
  | token {i type text more tokens} : Lexeme type text more → Scans (i + text.length) more tokens →
    Scans i (text ++ more) ({ type, text, start := i, stop := i + text.length } :: tokens)

lemma scans_scan {fuel : Nat} : ∀ {i : Nat} {source : Text}, source.length ≤ fuel → Scans i source (scan fuel i source) := by
  induction fuel with
  | zero =>
    intro i source enough
    rw [List.length_eq_zero_iff.mp (Nat.le_zero.mp enough)]
    exact .nil
  | succ fuel ih =>
    intro i source enough
    cases source with
    | nil => exact .nil
    | cons c rest =>
      rw [List.length_cons] at enough
      by_cases space : isSpace c = true
      · rw [scan, if_pos space]
        exact .space space (ih (by omega))
      · rw [scan, if_neg space]
        obtain ⟨token, eq⟩ := lexeme_spec (by simpa using space) rest
        have some := List.length_pos_iff.mpr token.ne_nil
        have lengths := congrArg List.length eq
        rw [List.length_cons, List.length_append] at lengths
        rw [eq]
        exact .token token (ih (by omega))

lemma scans_tokenize (source : Text) : Scans 0 source (tokenize source) := scans_scan le_rfl

lemma Scans.scan {i : Nat} {source : Text} {tokens : List Token} (scans : Scans i source tokens) :
    ∀ {fuel : Nat}, source.length ≤ fuel → Query.scan fuel i source = tokens := by
  induction scans with
  | nil =>
    intro fuel _
    cases fuel <;> rfl
  | space isSpace _ ih =>
    intro fuel enough
    obtain ⟨fuel, rfl⟩ := Nat.exists_eq_add_one_of_ne_zero (show fuel ≠ 0 by rintro rfl; simp at enough)
    rw [Query.scan, if_pos isSpace]
    exact ih (by simpa using enough)
  | @token i type text more tokens token _ ih =>
    intro fuel enough
    cases text with
    | nil => exact absurd rfl token.ne_nil
    | cons c text =>
      rw [List.length_append, List.length_cons] at enough
      obtain ⟨fuel, rfl⟩ := Nat.exists_eq_add_one_of_ne_zero (show fuel ≠ 0 by omega)
      rw [List.cons_append, Query.scan, if_neg (by simp [token.black]), lexeme_of token]
      exact congrArg _ (ih (by omega))

lemma Scans.tokenize {source : Text} {tokens : List Token} (scans : Scans 0 source tokens) :
    Query.tokenize source = tokens := scans.scan le_rfl

end PjCloud.Query
