import Mathlib.Data.List.TakeWhile
import PjCloud.Lib.Strtod

/-!
# The words of Lua

Lua 5.4 expressions that compare and connect: names, literals, comparisons, `~`, `and`, `or`, `not`, parentheses and a
minus before a numeral. A text with any other word is not read. As for C, a text is a list of bytes.
-/

namespace PjCloud.Lib.Lua

/-! ## Values -/

/-- A 64-bit integer or a double. -/
inductive Number where
  | int (n : Int)
  | float (d : Double)
  deriving DecidableEq

/-- `lua_Integer` arithmetic wraps around. -/
def wrap (n : Int) : Int := (n + 2 ^ 63) % 2 ^ 64 - 2 ^ 63

namespace Number

def neg : Number → Number
  | int n => int (wrap (-n))
  | float d => float d.neg

/-- The number itself: an integer is compared with a double without rounding. -/
def exact : Number → Double
  | int n => .finite n
  | float d => d

def eq (a b : Number) : Bool := a.exact.eq b.exact

def lt (a b : Number) : Bool := a.exact.lt b.exact

def le (a b : Number) : Bool := a.lt b || a.eq b

end Number

/-- An `object` is a table or a function. -/
inductive Value where
  | nil
  | bool (b : Bool)
  | number (n : Number)
  | string (s : List Char)
  | object (id : Nat)
  deriving DecidableEq

def Value.truthy : Value → Bool
  | nil => false
  | bool b => b
  | _ => true

/-! ## Literals -/

/-- `luaO_str2num` of a numeral: an integer that does not fit is a double if it is decimal, and wraps around if it is
hexadecimal. -/
def numeral (text : List Char) : Option Number :=
  match text with
  | '0' :: x :: digits =>
    if (x = 'x' ∨ x = 'X') ∧ digits ≠ [] ∧ digits.all isHexDigit then some (.int (wrap (ofDigits 16 digits)))
    else decimal text
  | _ => decimal text
where
  decimal (text : List Char) : Option Number :=
    if text ≠ [] ∧ text.all Char.isDigit ∧ ofDigits 10 text < 2 ^ 63 then some (.int (ofDigits 10 text))
    else (unsigned text).map fun q => .float (.ofRat q)

/-- `read_numeral`: the bytes of a numeral whose exponent starts with one of `marks`, and what is left. -/
def numeralSpan (marks : List Char) : List Char → List Char × List Char
  | [] => ([], [])
  | [c] => if c ∈ marks ∨ isHexDigit c ∨ c = '.' then ([c], []) else ([], [c])
  | c :: d :: rest =>
    if c ∈ marks ∧ (d = '-' ∨ d = '+') then
      let (body, left) := numeralSpan marks rest
      (c :: d :: body, left)
    else if c ∈ marks ∨ isHexDigit c ∨ c = '.' then
      let (body, left) := numeralSpan marks (d :: rest)
      (c :: body, left)
    else ([], c :: d :: rest)

def isNameStart (c : Char) : Bool := c.isAlpha || c = '_'

def isNameChar (c : Char) : Bool := c.isAlphanum || c = '_'

/-- All bytes of a numeral, and what is left. -/
def numeralText (c : Char) (rest : List Char) : List Char × List Char :=
  match rest with
  | [] => ([c], [])
  | x :: rest' =>
    if c = '0' ∧ (x = 'x' ∨ x = 'X') then (c :: x :: (numeralSpan ['p', 'P'] rest').1, (numeralSpan ['p', 'P'] rest').2)
    else (c :: (numeralSpan ['e', 'E'] rest).1, (numeralSpan ['e', 'E'] rest).2)

def readNumeral (c : Char) (rest : List Char) : Option (Number × List Char) :=
  let (body, left) := numeralText c rest
  if left.head?.any isNameStart then none else (numeral body).map fun n => (n, left)

/-- The bytes up to the closing quote, where a backslash takes the next byte with it, and what is left. -/
def rawString (quote : Char) : List Char → Option (List Char × List Char)
  | [] => none
  | [c] => if c = quote then some ([], []) else none
  | c :: d :: rest =>
    if c = quote then some ([], d :: rest)
    else if c = '\\' then (rawString quote rest).map fun (body, left) => (c :: d :: body, left)
    else (rawString quote (d :: rest)).map fun (body, left) => (c :: body, left)

/-- `luaO_utf8esc`: the bytes of a code point, also of those above the last one of Unicode. -/
def utf8 (x : Nat) : List Char :=
  if x < 0x80 then [Char.ofNat x] else go 6 x 0x3f []
where
  go : Nat → Nat → Nat → List Char → List Char
    | 0, _, _, bytes => bytes
    | fuel + 1, x, first, bytes =>
      let bytes := Char.ofNat (0x80 + x % 64) :: bytes
      if first / 2 < x / 64 then go fuel (x / 64) (first / 2) bytes
      else Char.ofNat ((255 - first / 2) * 2 % 256 + x / 64) :: bytes

/-- What a backslash and the byte after it stand for, and what is left. -/
def escape (c : Char) (rest : List Char) : Option (List Char × List Char) :=
  match c with
  | 'a' => some (['\x07'], rest)
  | 'b' => some (['\x08'], rest)
  | 'f' => some (['\x0c'], rest)
  | 'n' => some (['\n'], rest)
  | 'r' => some (['\r'], rest)
  | 't' => some (['\t'], rest)
  | 'v' => some (['\x0b'], rest)
  | '\\' | '"' | '\'' => some ([c], rest)
  | '\n' => some (['\n'], if rest.head? = some '\r' then rest.drop 1 else rest)
  | '\r' => some (['\n'], if rest.head? = some '\n' then rest.drop 1 else rest)
  | 'x' => if (rest.take 2).length = 2 ∧ (rest.take 2).all isHexDigit then
      some ([Char.ofNat (ofDigits 16 (rest.take 2))], rest.drop 2)
    else none
  | 'z' => some ([], rest.dropWhile isSpace)
  | 'u' =>
    let digits := (rest.drop 1).takeWhile isHexDigit
    let left := (rest.drop 1).dropWhile isHexDigit
    if rest.head? = some '{' ∧ digits ≠ [] ∧ ofDigits 16 digits < 2 ^ 31 ∧ left.head? = some '}' then
      some (utf8 (ofDigits 16 digits), left.drop 1)
    else none
  | _ =>
    let digits := c :: (rest.take 2).takeWhile Char.isDigit
    if c.isDigit ∧ ofDigits 10 digits ≤ 255 then
      some ([Char.ofNat (ofDigits 10 digits)], rest.drop (digits.length - 1))
    else none

/-- The string that stands between two quotes. -/
def unescape : Nat → List Char → Option (List Char)
  | _, [] => some []
  | 0, _ :: _ => none
  | fuel + 1, c :: rest =>
    if c = '\\' then
      match rest with
      | [] => none
      | d :: rest => (escape d rest).bind fun (bytes, left) => (unescape fuel left).map (bytes ++ ·)
    else if c = '\n' ∨ c = '\r' then none
    else (unescape fuel rest).map (c :: ·)

/-! ## Tokens -/

inductive Op where
  | eq | ne | lt | gt | le | ge
  | bxor
  | and | or
  deriving DecidableEq

inductive Token where
  | name (s : List Char)
  | number (n : Number)
  | string (s : List Char)
  | op (op : Op)
  | not | minus | lparen | rparen | assign
  | nil | true | false
  | ret
  /-- Another reserved word. -/
  | reserved
  deriving DecidableEq

def reserved : List (List Char) :=
  ["break", "do", "else", "elseif", "end", "for", "function", "goto", "if", "in", "local", "repeat", "then", "until",
    "while"].map String.toList

def word (s : List Char) : Token :=
  if s = "and".toList then .op .and
  else if s = "or".toList then .op .or
  else if s = "not".toList then .not
  else if s = "nil".toList then .nil
  else if s = "true".toList then .true
  else if s = "false".toList then .false
  else if s = "return".toList then .ret
  else if s ∈ reserved then .reserved
  else .name s

/-- A `Name`: no reserved word. -/
def isName : List Char → Bool
  | [] => false
  | c :: rest => isNameStart c && rest.all isNameChar && decide (word (c :: rest) = .name (c :: rest))

def readString (quote : Char) (rest : List Char) : Option (Token × List Char) :=
  (rawString quote rest).bind fun (body, left) => (unescape body.length body).map fun s => (.string s, left)

/-- A string, a parenthesis or an operator. -/
def symbol (c : Char) (rest : List Char) : Option (Token × List Char) :=
  match c with
  | '"' | '\'' => readString c rest
  | '(' => some (.lparen, rest)
  | ')' => some (.rparen, rest)
  | '=' => if rest.head? = some '=' then some (.op .eq, rest.drop 1) else some (.assign, rest)
  | '~' => if rest.head? = some '=' then some (.op .ne, rest.drop 1) else some (.op .bxor, rest)
  | '<' =>
    if rest.head? = some '=' then some (.op .le, rest.drop 1)
    else if rest.head? = some '<' then none
    else some (.op .lt, rest)
  | '>' =>
    if rest.head? = some '=' then some (.op .ge, rest.drop 1)
    else if rest.head? = some '>' then none
    else some (.op .gt, rest)
  | '-' => if rest.head? = some '-' then none else some (.minus, rest)
  | _ => none

/-- One word from its first byte, which is no white space, on. -/
def lexOne (c : Char) (rest : List Char) : Option (Token × List Char) :=
  if isNameStart c then some (word (c :: rest.takeWhile isNameChar), rest.dropWhile isNameChar)
  else if c.isDigit ∨ c = '.' ∧ rest.head?.any Char.isDigit then
    (readNumeral c rest).map fun (n, left) => (.number n, left)
  else symbol c rest

def lex : Nat → List Char → Option (List Token)
  | _, [] => some []
  | 0, _ :: _ => none
  | fuel + 1, c :: rest =>
    if isSpace c then lex fuel rest
    else (lexOne c rest).bind fun (token, left) => (lex fuel left).map (token :: ·)

/-! ## Texts side by side -/

/-- What may stand right after a word without changing it. -/
def ends (more : List Char) : Bool := more.head?.all fun c => c = ' ' || c = ')'

lemma ends_cons {c : Char} {more : List Char} : ends (c :: more) = true ↔ c = ' ' ∨ c = ')' := by
  simp [ends]

lemma takeWhile_append {p : Char → Bool} {text more : List Char} (stops : more.head?.all (!p ·) = true) :
    (text ++ more).takeWhile p = text.takeWhile p := by
  induction text with
  | nil =>
    cases more with
    | nil => rfl
    | cons c more =>
      have stop : p c = false := by simpa using stops
      simp [stop]
  | cons c text ih => simp [List.takeWhile_cons, ih]

lemma dropWhile_append {p : Char → Bool} {text more : List Char} (stops : more.head?.all (!p ·) = true) :
    (text ++ more).dropWhile p = text.dropWhile p ++ more := by
  induction text with
  | nil =>
    cases more with
    | nil => rfl
    | cons c more =>
      have stop : p c = false := by simpa using stops
      simp [stop]
  | cons c text ih =>
    by_cases word : p c = true <;> simp [word, ih]

lemma ends.stops {more : List Char} (isEnd : ends more = true) {p : Char → Bool} (blank : p ' ' = false)
    (close : p ')' = false) : more.head?.all (!p ·) = true := by
  cases more with
  | nil => rfl
  | cons c more => rcases ends_cons.mp isEnd with rfl | rfl <;> simp [blank, close]

lemma rawString_append {quote : Char} {text body left : List Char} (read : rawString quote text = some (body, left))
    (more : List Char) : rawString quote (text ++ more) = some (body, left ++ more) := by
  fun_induction rawString quote text generalizing body left with
  | case1 => cases read
  | case2 =>
    cases read
    cases more <;> simp [rawString]
  | case3 => cases read
  | case4 =>
    cases read
    simp [rawString]
  | case5 d rest other ih =>
    obtain ⟨⟨body', left'⟩, inner, eq⟩ := Option.map_eq_some_iff.mp read
    cases eq
    simp [rawString, other, ih inner]
  | case6 c d rest other noEscape ih =>
    obtain ⟨⟨body', left'⟩, inner, eq⟩ := Option.map_eq_some_iff.mp read
    cases eq
    have := ih inner
    rw [List.cons_append] at this
    simp [rawString, other, noEscape, this]

lemma numeralSpan_ends {marks more : List Char} (isEnd : ends more = true) (plain : ' ' ∉ marks ∧ ')' ∉ marks) :
    numeralSpan marks more = ([], more) := by
  rcases more with _ | ⟨c, _ | ⟨d, more⟩⟩
  · rfl
  · rcases ends_cons.mp isEnd with rfl | rfl <;> simp [numeralSpan, plain.1, plain.2, isHexDigit]
  · rcases ends_cons.mp isEnd with rfl | rfl <;> simp [numeralSpan, plain.1, plain.2, isHexDigit]

lemma numeralSpan_append {marks text more : List Char} (isEnd : ends more = true)
    (plain : ' ' ∉ marks ∧ ')' ∉ marks) :
    numeralSpan marks (text ++ more) = ((numeralSpan marks text).1, (numeralSpan marks text).2 ++ more) := by
  have atEnd := numeralSpan_ends isEnd plain
  fun_induction numeralSpan marks text with
  | case1 => exact atEnd
  | case2 c part =>
    rcases more with _ | ⟨d, more⟩
    · simp [numeralSpan, part]
    · have noSign : ¬ (d = '-' ∨ d = '+') := by
        rcases ends_cons.mp isEnd with rfl | rfl <;> decide
      simp [numeralSpan, part, noSign, atEnd]
  | case3 c part =>
    rcases more with _ | ⟨d, more⟩
    · simp [numeralSpan, part]
    · have noMark : ¬ (c ∈ marks ∧ (d = '-' ∨ d = '+')) := by tauto
      simp [numeralSpan, part, noMark]
  | case4 c d rest sign body left eq ih =>
    rw [eq] at ih
    simp [numeralSpan, sign, ih]
  | case5 c d rest noSign part body left eq ih =>
    rw [eq, List.cons_append] at ih
    simp [numeralSpan, noSign, part, ih]
  | case6 c d rest noSign part => simp [numeralSpan, noSign, part]

lemma numeralText_append {c : Char} {text more : List Char} (isEnd : ends more = true) :
    numeralText c (text ++ more) = ((numeralText c text).1, (numeralText c text).2 ++ more) := by
  have decimal : ∀ text, numeralSpan ['e', 'E'] (text ++ more) =
      ((numeralSpan ['e', 'E'] text).1, (numeralSpan ['e', 'E'] text).2 ++ more) :=
    fun _ => numeralSpan_append isEnd (by decide)
  have hexadecimal : ∀ text, numeralSpan ['p', 'P'] (text ++ more) =
      ((numeralSpan ['p', 'P'] text).1, (numeralSpan ['p', 'P'] text).2 ++ more) :=
    fun _ => numeralSpan_append isEnd (by decide)
  cases text with
  | nil =>
    cases more with
    | nil => rfl
    | cons d more =>
      have noMark : ¬ (d = 'x' ∨ d = 'X') := by rcases ends_cons.mp isEnd with rfl | rfl <;> decide
      have atEnd := decimal []
      simp only [List.nil_append] at atEnd ⊢
      simp [numeralText, noMark, atEnd, numeralSpan]
  | cons x text =>
    have whole := decimal (x :: text)
    rw [List.cons_append] at whole ⊢
    by_cases hex : c = '0' ∧ (x = 'x' ∨ x = 'X')
    · simp only [numeralText, hex, if_true, and_self, hexadecimal]
    · simp only [numeralText, hex, if_false, whole]

lemma any_head_append {p : Char → Bool} {rest more : List Char} (isEnd : ends more = true) (blank : p ' ' = false)
    (close : p ')' = false) : (rest ++ more).head?.any p = rest.head?.any p := by
  cases rest with
  | cons d rest => rfl
  | nil =>
    cases more with
    | nil => rfl
    | cons d more => rcases ends_cons.mp isEnd with rfl | rfl <;> simp [blank, close]

lemma readNumeral_append {c : Char} {text left more : List Char} {n : Number} (isEnd : ends more = true)
    (read : readNumeral c text = some (n, left)) : readNumeral c (text ++ more) = some (n, left ++ more) := by
  simp only [readNumeral, numeralText_append isEnd, any_head_append isEnd (show isNameStart ' ' = false by decide)
    (show isNameStart ')' = false by decide)] at read ⊢
  split at read
  · cases read
  · rename_i plain
    obtain ⟨m, value, eq⟩ := Option.map_eq_some_iff.mp read
    cases eq
    rw [if_neg plain, value]
    rfl

lemma readString_append {quote : Char} {text left : List Char} {t : Token} (read : readString quote text = some (t, left))
    (more : List Char) : readString quote (text ++ more) = some (t, left ++ more) := by
  obtain ⟨⟨body, rest⟩, raw, eq⟩ := Option.bind_eq_some_iff.mp read
  obtain ⟨s, value, eq⟩ := Option.map_eq_some_iff.mp eq
  cases eq
  simp only [readString, rawString_append raw more, Option.bind_some, value, Option.map_some]

lemma head_append {rest more : List Char} (isEnd : ends more = true) (d : Char) (other : d ≠ ' ' ∧ d ≠ ')') :
    (rest ++ more).head? = some d ↔ rest.head? = some d := by
  cases rest with
  | cons e rest => rfl
  | nil =>
    cases more with
    | nil => rfl
    | cons e more =>
      rcases ends_cons.mp isEnd with rfl | rfl
      · simp [other.1.symm]
      · simp [other.2.symm]

lemma drop_append {rest more : List Char} {d : Char} (head : rest.head? = some d) :
    (rest ++ more).drop 1 = rest.drop 1 ++ more := by
  cases rest with
  | nil => cases head
  | cons e rest => rfl

lemma symbol_append {c : Char} {text left more : List Char} {t : Token} (isEnd : ends more = true)
    (read : symbol c text = some (t, left)) : symbol c (text ++ more) = some (t, left ++ more) := by
  have equals := @head_append text more isEnd '=' (by decide)
  have lesses := @head_append text more isEnd '<' (by decide)
  have greaters := @head_append text more isEnd '>' (by decide)
  have minuses := @head_append text more isEnd '-' (by decide)
  unfold symbol at read ⊢
  split at read
  case h_10 => cases read
  case h_1 | h_2 => exact readString_append read more
  case h_3 | h_4 =>
    cases read
    rfl
  all_goals
    simp only [equals, lesses, greaters, minuses]
    split_ifs at read ⊢ with first
    all_goals first | cases read; rfl | (cases read; rw [drop_append first])

/-- A word is read the same before what ends it. -/
lemma lexOne_append {c : Char} {text left more : List Char} {t : Token} (isEnd : ends more = true)
    (read : lexOne c text = some (t, left)) : lexOne c (text ++ more) = some (t, left ++ more) := by
  have digits := @any_head_append Char.isDigit text more isEnd (by decide) (by decide)
  have stops := ends.stops isEnd (show isNameChar ' ' = false by decide) (by decide)
  unfold lexOne at read ⊢
  rw [digits]
  split_ifs at read ⊢ with name number
  · rw [takeWhile_append stops, dropWhile_append stops]
    cases read
    rfl
  · obtain ⟨⟨n, rest⟩, value, eq⟩ := Option.map_eq_some_iff.mp read
    cases eq
    rw [readNumeral_append isEnd value]
    rfl
  · exact symbol_append isEnd read

lemma length_readNumeral {c : Char} {text left : List Char} {n : Number} (read : readNumeral c text = some (n, left)) :
    left.length ≤ text.length := by
  have span (marks text) : (numeralSpan marks text).2.length ≤ text.length := by
    fun_induction numeralSpan marks text <;> simp_all <;> omega
  have whole : (numeralText c text).2.length ≤ text.length := by
    fun_cases numeralText c text with
    | case1 => simp
    | case2 x rest => exact (span _ _).trans (Nat.le_succ _)
    | case3 x rest => exact span _ _
  simp only [readNumeral] at read
  split at read
  · cases read
  · obtain ⟨m, _, eq⟩ := Option.map_eq_some_iff.mp read
    cases eq
    exact whole

lemma length_readString {quote : Char} {text left : List Char} {t : Token} (read : readString quote text = some (t, left)) :
    left.length ≤ text.length := by
  have raw {text body left : List Char} (read : rawString quote text = some (body, left)) : left.length ≤ text.length := by
    fun_induction rawString quote text generalizing body left with
    | case1 | case3 => cases read
    | case2 | case4 =>
      cases read
      simp
    | case5 d rest other ih | case6 c d rest other noEscape ih =>
      obtain ⟨⟨body', left'⟩, inner, eq⟩ := Option.map_eq_some_iff.mp read
      cases eq
      have := ih inner
      simp only [List.length_cons] at this ⊢
      omega
  obtain ⟨⟨body, rest⟩, inner, eq⟩ := Option.bind_eq_some_iff.mp read
  obtain ⟨s, _, eq⟩ := Option.map_eq_some_iff.mp eq
  cases eq
  exact raw inner

lemma length_lexOne {c : Char} {text left : List Char} {t : Token} (read : lexOne c text = some (t, left)) :
    left.length ≤ text.length := by
  unfold lexOne at read
  split_ifs at read with name number
  · cases read
    exact (List.dropWhile_sublist _).length_le
  · obtain ⟨⟨n, rest⟩, value, eq⟩ := Option.map_eq_some_iff.mp read
    cases eq
    exact length_readNumeral value
  · unfold symbol at read
    split at read
    case h_10 => cases read
    case h_1 | h_2 => exact length_readString read
    case h_3 | h_4 =>
      cases read
      simp
    all_goals
      split_ifs at read
      all_goals
        cases read
        simp

/-- The words of a text. -/
def Lexes (text : List Char) (tokens : List Token) : Prop := ∀ fuel : Nat, text.length ≤ fuel → lex fuel text = some tokens

lemma Lexes.nil : Lexes [] [] := by
  intro fuel _
  cases fuel <;> rfl

lemma Lexes.blank {c : Char} {text : List Char} {tokens : List Token} (space : isSpace c = true)
    (lexes : Lexes text tokens) : Lexes (c :: text) tokens := by
  intro fuel enough
  cases fuel with
  | zero => simp at enough
  | succ fuel =>
    rw [lex, if_pos space]
    exact lexes fuel (Nat.le_of_succ_le_succ enough)

lemma Lexes.cons {c : Char} {text left : List Char} {t : Token} {tokens : List Token} (black : isSpace c = false)
    (read : lexOne c text = some (t, left)) (lexes : Lexes left tokens) : Lexes (c :: text) (t :: tokens) := by
  intro fuel enough
  cases fuel with
  | zero => simp at enough
  | succ fuel =>
    rw [lex, if_neg (by simp [black]), read]
    have := length_lexOne read
    simp only [List.length_cons] at enough
    simp [lexes fuel (by omega)]

/-- Words before what ends them are the words of the one text and of the other. -/
lemma lexes_append {fuel : Nat} : ∀ {text more : List Char} {tokens others : List Token}, lex fuel text = some tokens →
    ends more = true → Lexes more others → Lexes (text ++ more) (tokens ++ others) := by
  induction fuel with
  | zero =>
    intro text more tokens others read isEnd lexes
    cases text with
    | nil =>
      cases read
      exact lexes
    | cons c text => cases read
  | succ fuel ih =>
    intro text more tokens others read isEnd lexes
    cases text with
    | nil =>
      cases read
      exact lexes
    | cons c text =>
      rw [lex] at read
      split at read
      · rename_i space
        exact .blank space (ih read isEnd lexes)
      · rename_i black
        obtain ⟨⟨t, left⟩, first, eq⟩ := Option.bind_eq_some_iff.mp read
        obtain ⟨rest, after, eq⟩ := Option.map_eq_some_iff.mp eq
        cases eq
        exact .cons (by simpa using black) (lexOne_append isEnd first) (ih after isEnd lexes)

lemma Lexes.append {text more : List Char} {tokens others : List Token} (lexes : Lexes text tokens)
    (isEnd : ends more = true) (lexes' : Lexes more others) : Lexes (text ++ more) (tokens ++ others) :=
  lexes_append (lexes _ le_rfl) isEnd lexes'

lemma Lexes.of_lex {text : List Char} {tokens : List Token} (read : lex text.length text = some tokens) :
    Lexes text tokens := by
  have whole := lexes_append read rfl .nil
  simpa using whole

/-- A text with a word that is not read. -/
def Fails (text : List Char) : Prop := ∀ fuel, lex fuel text = none

lemma Fails.of_lexOne {c : Char} {rest : List Char} (black : isSpace c = false) (fails : lexOne c rest = none) :
    Fails (c :: rest) := by
  intro fuel
  cases fuel with
  | zero => rfl
  | succ fuel => simp [lex, black, fails]

lemma Fails.blank {c : Char} {text : List Char} (space : isSpace c = true) (fails : Fails text) : Fails (c :: text) := by
  intro fuel
  cases fuel with
  | zero => rfl
  | succ fuel => simp [lex, space, fails fuel]

lemma Fails.cons {c : Char} {text left : List Char} {t : Token} (black : isSpace c = false)
    (read : lexOne c text = some (t, left)) (fails : Fails left) : Fails (c :: text) := by
  intro fuel
  cases fuel with
  | zero => rfl
  | succ fuel => simp [lex, black, read, fails fuel]

lemma fails_append {fuel : Nat} : ∀ {text more : List Char} {tokens : List Token}, lex fuel text = some tokens →
    ends more = true → Fails more → Fails (text ++ more) := by
  induction fuel with
  | zero =>
    intro text more tokens read isEnd fails
    cases text with
    | nil => exact fails
    | cons c text => cases read
  | succ fuel ih =>
    intro text more tokens read isEnd fails
    cases text with
    | nil => exact fails
    | cons c text =>
      rw [lex] at read
      split at read
      · rename_i space
        exact .blank space (ih read isEnd fails)
      · rename_i black
        obtain ⟨⟨t, left⟩, first, eq⟩ := Option.bind_eq_some_iff.mp read
        obtain ⟨rest, after, -⟩ := Option.map_eq_some_iff.mp eq
        exact .cons (by simpa using black) (lexOne_append isEnd first) (ih after isEnd fails)

lemma Lexes.fails {text more : List Char} {tokens : List Token} (lexes : Lexes text tokens) (isEnd : ends more = true)
    (fails : Fails more) : Fails (text ++ more) := fails_append (lexes _ le_rfl) isEnd fails

lemma not_isNameStart_of_isSpace {c : Char} (space : isSpace c = true) : isNameStart c = false := by
  simp only [isSpace, Bool.or_eq_true, decide_eq_true_eq] at space
  rcases space with ((((rfl | rfl) | rfl) | rfl) | rfl) | rfl <;> rfl

lemma Lexes.name {text : List Char} (named : isName text = true) : Lexes text [.name text] := by
  cases text with
  | nil => cases named
  | cons c rest =>
    simp only [isName, Bool.and_eq_true, decide_eq_true_eq] at named
    obtain ⟨⟨start, all⟩, isName⟩ := named
    have black : isSpace c = false := by
      by_contra space
      simp [not_isNameStart_of_isSpace (by simpa using space)] at start
    have all : ∀ d ∈ rest, isNameChar d = true := List.all_eq_true.mp all
    have taken : rest.takeWhile isNameChar = rest := List.takeWhile_eq_self_iff.mpr all
    have left : rest.dropWhile isNameChar = [] := List.dropWhile_eq_nil_iff.mpr all
    have read : lexOne c rest = some (.name (c :: rest), []) := by
      simp [lexOne, start, taken, left, isName]
    exact .cons black read .nil

end PjCloud.Lib.Lua
