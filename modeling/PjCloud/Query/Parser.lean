import PjCloud.Query.Token

/-!
# The parser of queries

`query/ast.h` of the plugin. The parser never fails: it recovers from a connective without an operand, a parenthesis that
is not closed and a token that does not fit, and judges afterwards from the tree whether the query is complete.
-/

namespace PjCloud.Query

inductive Expr where
  | compare (key op value : Token)
  | binary (left : Expr) (connective : Token) (right : Expr)
  | not (notToken : Token) (operand : Expr)
  | group (opening : Token) (inner : Expr) (closing : Token)
  /-- A group whose `inner` is null. -/
  | emptyGroup (opening closing : Token)
  | key (key : Token)
  /-- `PartialExpr` -/
  | keyOp (key op : Token)
  deriving DecidableEq

inductive Connective where
  | and
  | or
  deriving DecidableEq

def Connective.type : Connective → TokenType
  | and => .and
  | or => .or

/-- The functions of the parser. `chain .or` is `parse_or` and `chain .and` is `parse_and`. `rest` is the loop of the
one or the other with what it has read so far. -/
inductive Level where
  | chain (c : Connective)
  | rest (c : Connective) (left : Expr)
  | unary
  | primary

def Connective.operand : Connective → Level
  | or => .chain .and
  | and => .unary

/-- `tokens` are those from `pos_` on. -/
structure Parser where
  tokens : List Token
  lastKey : Token := { type := .key }
  lastOp : Token := { type := .key }
  deriving DecidableEq

/-- The token `t` where a clause has to start, before the tokens `rest`, if it is no parenthesis. -/
def Parser.leaf (p : Parser) (t : Token) (rest : List Token) : Option Expr × Parser :=
  if t.type = .value ∧ p.lastKey.text ≠ [] then
    (some (.compare p.lastKey p.lastOp t), { p with tokens := rest })
  else if t.type = .key then
    match rest with
    | [] => (some (.key t), { p with tokens := rest })
    | op :: rest' =>
      if op.type = .operator then
        match rest' with
        | [] => (some (.keyOp t op), { tokens := rest', lastKey := t, lastOp := op })
        | v :: left =>
          if v.type = .value then (some (.compare t op v), { tokens := left, lastKey := t, lastOp := op })
          else (some (.keyOp t op), { tokens := rest', lastKey := t, lastOp := op })
      else (some (.key t), { p with tokens := rest })
  else (none, { p with tokens := rest })

def parseAt : Nat → Level → Parser → Option Expr × Parser
  | 0, _, p => (none, p)
  | fuel + 1, .chain c, p =>
    match parseAt fuel c.operand p with
    | (none, p) => (none, p)
    | (some left, p) => parseAt fuel (.rest c left) p
  | fuel + 1, .rest c left, p =>
    match p.tokens with
    | [] => (some left, p)
    | t :: rest =>
      if t.type = c.type then
        match parseAt fuel c.operand { p with tokens := rest } with
        -- nothing after the connective: it is taken all the same
        | (none, p) => (some left, p)
        | (some right, p) => parseAt fuel (.rest c (.binary left t right)) p
      else (some left, p)
  | fuel + 1, .unary, p =>
    match p.tokens with
    | [] => parseAt fuel .primary p
    | t :: rest =>
      if t.type = .not then
        match parseAt fuel .unary { p with tokens := rest } with
        | (none, p) => (none, p)
        | (some operand, p) => (some (.not t operand), p)
      else parseAt fuel .primary p
  | fuel + 1, .primary, p =>
    match p.tokens with
    | [] => (none, p)
    | t :: rest =>
      if t.type = .openParen then
        match parseAt fuel (.chain .or) { p with tokens := rest } with
        | (inner, p) =>
          match p.tokens with
          | [] => (inner, p)
          | close :: left =>
            if close.type = .closeParen then
              match inner with
              | none => (some (.emptyGroup t close), { p with tokens := left })
              | some inner => (some (.group t inner close), { p with tokens := left })
            else (inner, p)
      else p.leaf t rest

def Expr.checkComplete : Expr → Bool
  | .compare .. => true
  | .binary left _ right => left.checkComplete && right.checkComplete
  | .not _ operand => operand.checkComplete
  | .group _ inner _ => inner.checkComplete
  | .emptyGroup .. | .key _ | .keyOp .. => false

structure ParseResult where
  ast : Option Expr
  complete : Bool
  error : String
  deriving DecidableEq

/-- Four turns a token are enough. -/
def parse (tokens : List Token) : ParseResult :=
  if tokens = [] then { ast := none, complete := false, error := "empty" }
  else
    let (expr, p) := parseAt (4 * tokens.length + 4) (.chain .or) { tokens }
    let leftover := p.tokens ≠ []
    { ast := expr
      complete := expr.any Expr.checkComplete && decide (¬ leftover)
      error := if leftover then "unexpected tokens" else "" }

/-! ## What the parser does -/

def headIs (tokens : List Token) (type : TokenType) : Prop := tokens.head?.map Token.type = some type

/-- One call of a function of the parser: what it found and the parser after it. -/
inductive Reads : Level → Parser → Option Expr → Parser → Prop where
  | chainNone {c p q} : Reads c.operand p none q → Reads (.chain c) p none q
  | chain {c p left q found r} : Reads c.operand p (some left) q → Reads (.rest c left) q found r →
    Reads (.chain c) p found r
  | stop {c left p} : ¬ headIs p.tokens c.type → Reads (.rest c left) p (some left) p
  | dangling {c left p t rest q} : p.tokens = t :: rest → t.type = c.type →
    Reads c.operand { p with tokens := rest } none q → Reads (.rest c left) p (some left) q
  | more {c left p t rest right q found r} : p.tokens = t :: rest → t.type = c.type →
    Reads c.operand { p with tokens := rest } (some right) q → Reads (.rest c (.binary left t right)) q found r →
    Reads (.rest c left) p found r
  | notNone {p t rest q} : p.tokens = t :: rest → t.type = .not → Reads .unary { p with tokens := rest } none q →
    Reads .unary p none q
  | not {p t rest operand q} : p.tokens = t :: rest → t.type = .not →
    Reads .unary { p with tokens := rest } (some operand) q → Reads .unary p (some (.not t operand)) q
  | plain {p found q} : ¬ headIs p.tokens .not → Reads .primary p found q → Reads .unary p found q
  | nothing {p} : p.tokens = [] → Reads .primary p none p
  | emptyGroup {p t rest q close left} : p.tokens = t :: rest → t.type = .openParen →
    Reads (.chain .or) { p with tokens := rest } none q → q.tokens = close :: left → close.type = .closeParen →
    Reads .primary p (some (.emptyGroup t close)) { q with tokens := left }
  | group {p t rest inner q close left} : p.tokens = t :: rest → t.type = .openParen →
    Reads (.chain .or) { p with tokens := rest } (some inner) q → q.tokens = close :: left →
    close.type = .closeParen → Reads .primary p (some (.group t inner close)) { q with tokens := left }
  | unclosed {p t rest inner q} : p.tokens = t :: rest → t.type = .openParen →
    Reads (.chain .or) { p with tokens := rest } inner q → ¬ headIs q.tokens .closeParen → Reads .primary p inner q
  | shorthand {p t rest} : p.tokens = t :: rest → t.type = .value → p.lastKey.text ≠ [] →
    Reads .primary p (some (.compare p.lastKey p.lastOp t)) { p with tokens := rest }
  | compare {p t op v rest} : p.tokens = t :: op :: v :: rest → t.type = .key → op.type = .operator →
    v.type = .value → Reads .primary p (some (.compare t op v)) { tokens := rest, lastKey := t, lastOp := op }
  | keyOp {p t op rest} : p.tokens = t :: op :: rest → t.type = .key → op.type = .operator → ¬ headIs rest .value →
    Reads .primary p (some (.keyOp t op)) { tokens := rest, lastKey := t, lastOp := op }
  | key {p t rest} : p.tokens = t :: rest → t.type = .key → ¬ headIs rest .operator →
    Reads .primary p (some (.key t)) { p with tokens := rest }
  | skip {p t rest} : p.tokens = t :: rest → t.type ≠ .openParen → t.type ≠ .key →
    (t.type = .value → p.lastKey.text = []) → Reads .primary p none { p with tokens := rest }

lemma Reads.length_le {level : Level} {p q : Parser} {found : Option Expr} (reads : Reads level p found q) :
    q.tokens.length ≤ p.tokens.length := by
  induction reads with
  | chainNone _ ih => exact ih
  | chain _ _ ih ih' => exact ih'.trans ih
  | stop => exact le_rfl
  | dangling tokens _ _ ih | notNone tokens _ _ ih | not tokens _ _ ih =>
    rw [tokens, List.length_cons]
    exact Nat.le_succ_of_le ih
  | more tokens _ _ _ ih ih' =>
    rw [tokens, List.length_cons]
    exact Nat.le_succ_of_le (ih'.trans ih)
  | plain _ _ ih => exact ih
  | nothing => exact le_rfl
  | emptyGroup tokens _ _ tokens' _ ih | group tokens _ _ tokens' _ ih =>
    rw [tokens'] at ih
    rw [tokens, List.length_cons]
    exact Nat.le_succ_of_le (Nat.le_of_succ_le ih)
  | unclosed tokens _ _ _ ih =>
    rw [tokens, List.length_cons]
    exact Nat.le_succ_of_le ih
  | shorthand tokens | compare tokens | keyOp tokens | key tokens | skip tokens =>
    rw [tokens]
    simp only [List.length_cons]
    omega

/-- Turns that are enough for `n` tokens. -/
def Level.need (n : Nat) : Level → Nat
  | .chain .or => 4 * n + 4
  | .chain .and => 4 * n + 3
  | .rest .. => 4 * n + 1
  | .unary => 4 * n + 2
  | .primary => 4 * n + 1

lemma Level.need_operand (n : Nat) (c : Connective) : c.operand.need n + 1 ≤ (Level.chain c).need n := by
  cases c <;> simp [Connective.operand, need]

@[simp] lemma headIs_cons (t : Token) (rest : List Token) (type : TokenType) :
    headIs (t :: rest) type ↔ t.type = type := by
  simp [headIs]

@[simp] lemma not_headIs_nil (type : TokenType) : ¬ headIs [] type := by
  simp [headIs]

lemma Level.need_rest (n : Nat) (c : Connective) (left : Expr) : (Level.rest c left).need n + 2 ≤ (Level.chain c).need n := by
  cases c <;> simp [need]

lemma Level.need_operand_le {m n : Nat} (less : m < n) (c : Connective) (left : Expr) :
    c.operand.need m + 1 ≤ (Level.rest c left).need n := by
  cases c <;> simp only [Connective.operand, need] <;> omega

lemma Level.need_mono {m n : Nat} (le : m ≤ n) (level : Level) : level.need m ≤ level.need n := by
  cases level with
  | chain c => cases c <;> simp only [need] <;> omega
  | _ =>
    simp only [need]
    omega

lemma Level.turn {n fuel : Nat} {level : Level} (enough : level.need n ≤ fuel) : ∃ left, fuel = left + 1 := by
  apply Nat.exists_eq_add_one_of_ne_zero
  rintro rfl
  cases level with
  | chain c => cases c <;> simp [need] at enough
  | _ => simp [need] at enough

lemma reads_leaf {p : Parser} {t : Token} {rest : List Token} (tokens : p.tokens = t :: rest)
    (opens : t.type ≠ .openParen) : Reads .primary p (p.leaf t rest).1 (p.leaf t rest).2 := by
  fun_cases Parser.leaf p t rest with
  | case1 _ short => exact .shorthand tokens short.1 short.2
  | case2 _ isKey => exact .key tokens isKey (by simp)
  | case3 _ isKey op isOp => exact .keyOp tokens isKey isOp (by simp)
  | case4 _ isKey op isOp v left isValue => exact .compare tokens isKey isOp isValue
  | case5 _ isKey op isOp v left isValue => exact .keyOp tokens isKey isOp (by simpa using isValue)
  | case6 _ isKey op rest isOp => exact .key tokens isKey (by simpa using isOp)
  | case7 _ short isKey => exact .skip tokens opens isKey (by tauto)

lemma reads_parseAt {fuel : Nat} : ∀ {level : Level} {p : Parser}, level.need p.tokens.length ≤ fuel →
    Reads level p (parseAt fuel level p).1 (parseAt fuel level p).2 := by
  induction fuel with
  | zero =>
    intro level p enough
    obtain ⟨_, impossible⟩ := Level.turn enough
    omega
  | succ fuel ih =>
    intro level p enough
    cases level with
    | chain c =>
      have first := @ih c.operand p (by have := Level.need_operand p.tokens.length c; omega)
      rw [parseAt]
      rcases eq : parseAt fuel c.operand p with ⟨_ | left, q⟩
      · rw [eq] at first
        exact .chainNone first
      · rw [eq] at first
        refine .chain first (ih ?_)
        have := Level.need_mono first.length_le (.rest c left)
        have := Level.need_rest p.tokens.length c left
        omega
    | rest c left =>
      rcases tokens : p.tokens with _ | ⟨t, rest⟩
      · simpa only [parseAt, tokens] using .stop (by simp [tokens])
      · by_cases isConnective : t.type = c.type
        · have fewer : c.operand.need rest.length + 1 ≤ (Level.rest c left).need p.tokens.length :=
            Level.need_operand_le (by simp [tokens]) c left
          have next := @ih c.operand { p with tokens := rest } (by simp only; omega)
          simp only [parseAt, tokens, isConnective, if_true]
          rcases eq : parseAt fuel c.operand { p with tokens := rest } with ⟨_ | right, q⟩
          · rw [eq] at next
            exact .dangling tokens isConnective next
          · rw [eq] at next
            refine .more tokens isConnective next (ih ?_)
            have shorter : q.tokens.length ≤ rest.length := next.length_le
            simp only [Level.need, tokens, List.length_cons] at enough ⊢
            omega
        · simpa only [parseAt, tokens, isConnective, if_false] using .stop (by simpa [tokens] using isConnective)
    | unary =>
      have enough : 4 * p.tokens.length + 2 ≤ fuel + 1 := enough
      have plain := @ih .primary p (by simp only [Level.need]; omega)
      rcases tokens : p.tokens with _ | ⟨t, rest⟩
      · simpa only [parseAt, tokens] using .plain (by simp [tokens]) plain
      · rw [tokens, List.length_cons] at enough
        by_cases isNot : t.type = .not
        · have next := @ih .unary { p with tokens := rest } (by simp only [Level.need]; omega)
          simp only [parseAt, tokens, isNot, if_true]
          rcases eq : parseAt fuel .unary { p with tokens := rest } with ⟨_ | operand, q⟩
          · rw [eq] at next
            exact .notNone tokens isNot next
          · rw [eq] at next
            exact .not tokens isNot next
        · simpa only [parseAt, tokens, isNot, if_false] using .plain (by simpa [tokens] using isNot) plain
    | primary =>
      have enough : 4 * p.tokens.length + 1 ≤ fuel + 1 := enough
      rcases tokens : p.tokens with _ | ⟨t, rest⟩
      · simpa only [parseAt, tokens] using .nothing tokens
      rw [tokens, List.length_cons] at enough
      by_cases opens : t.type = .openParen
      · have inside := @ih (.chain .or) { p with tokens := rest } (by simp only [Level.need]; omega)
        simp only [parseAt, tokens, opens, if_true]
        rcases eq : parseAt fuel (.chain .or) { p with tokens := rest } with ⟨found, q⟩
        rw [eq] at inside
        rcases after : q.tokens with _ | ⟨close, left⟩
        · simpa only [after] using .unclosed tokens opens inside (by simp [after])
        · by_cases closes : close.type = .closeParen
          · cases found with
            | none => simpa only [after, closes, if_true] using .emptyGroup tokens opens inside after closes
            | some inner => simpa only [after, closes, if_true] using .group tokens opens inside after closes
          · simpa only [after, closes, if_false] using .unclosed tokens opens inside (by simpa [after] using closes)
      · simpa only [parseAt, tokens, opens, if_false] using reads_leaf tokens opens

lemma Reads.parseAt {level : Level} {p q : Parser} {found : Option Expr} (reads : Reads level p found q) :
    ∀ {fuel : Nat}, level.need p.tokens.length ≤ fuel → Query.parseAt fuel level p = (found, q) := by
  induction reads with
  | @chainNone c p q _ ih =>
    intro fuel enough
    have less := Level.need_operand p.tokens.length c
    obtain ⟨fuel, rfl⟩ := Level.turn enough
    simp only [Query.parseAt, ih (show c.operand.need p.tokens.length ≤ fuel by omega)]
  | @chain c p left q found r first _ ih ih' =>
    intro fuel enough
    have less := Level.need_operand p.tokens.length c
    have rest := Level.need_rest p.tokens.length c left
    have mono := Level.need_mono first.length_le (.rest c left)
    obtain ⟨fuel, rfl⟩ := Level.turn enough
    simp only [Query.parseAt, ih (show c.operand.need p.tokens.length ≤ fuel by omega)]
    exact ih' (by omega)
  | @stop c left p other =>
    intro fuel enough
    obtain ⟨fuel, rfl⟩ := Level.turn enough
    rcases tokens : p.tokens with _ | ⟨t, rest⟩
    · simp only [Query.parseAt, tokens]
    · rw [tokens, headIs_cons] at other
      simp only [Query.parseAt, tokens, other, if_false]
  | @dangling c left p t rest q tokens isConnective _ ih =>
    intro fuel enough
    have less := Level.need_operand_le (show rest.length < p.tokens.length by simp [tokens]) c left
    obtain ⟨fuel, rfl⟩ := Level.turn enough
    simp only [Query.parseAt, tokens, isConnective, if_true, ih (show c.operand.need rest.length ≤ fuel by omega)]
  | @more c left p t rest right q found r tokens isConnective next _ ih ih' =>
    intro fuel enough
    have less := Level.need_operand_le (show rest.length < p.tokens.length by simp [tokens]) c left
    have shorter : q.tokens.length ≤ rest.length := next.length_le
    obtain ⟨fuel, rfl⟩ := Level.turn enough
    simp only [Query.parseAt, tokens, isConnective, if_true, ih (show c.operand.need rest.length ≤ fuel by omega)]
    simp only [Level.need, tokens, List.length_cons] at enough ih'
    exact ih' (by omega)
  | @notNone p t rest q tokens isNot _ ih =>
    intro fuel enough
    obtain ⟨fuel, rfl⟩ := Level.turn enough
    simp only [Level.need, tokens, List.length_cons] at enough ih
    simp only [Query.parseAt, tokens, isNot, if_true, ih (show 4 * rest.length + 2 ≤ fuel by omega)]
  | @not p t rest operand q tokens isNot _ ih =>
    intro fuel enough
    obtain ⟨fuel, rfl⟩ := Level.turn enough
    simp only [Level.need, tokens, List.length_cons] at enough ih
    simp only [Query.parseAt, tokens, isNot, if_true, ih (show 4 * rest.length + 2 ≤ fuel by omega)]
  | @plain p found q other _ ih =>
    intro fuel enough
    obtain ⟨fuel, rfl⟩ := Level.turn enough
    simp only [Level.need] at enough ih
    have primary := ih (show 4 * p.tokens.length + 1 ≤ fuel by omega)
    rcases tokens : p.tokens with _ | ⟨t, rest⟩
    · simp only [Query.parseAt, tokens, primary]
    · rw [tokens, headIs_cons] at other
      simp only [Query.parseAt, tokens, other, if_false, primary]
  | @nothing p tokens =>
    intro fuel enough
    obtain ⟨fuel, rfl⟩ := Level.turn enough
    simp only [Query.parseAt, tokens]
  | @emptyGroup p t rest q close left tokens opens _ after closes ih
  | @group p t rest inner q close left tokens opens _ after closes ih =>
    intro fuel enough
    obtain ⟨fuel, rfl⟩ := Level.turn enough
    simp only [Level.need, tokens, List.length_cons] at enough ih
    simp only [Query.parseAt, tokens, opens, if_true, ih (show 4 * rest.length + 4 ≤ fuel by omega), after, closes]
  | @unclosed p t rest inner q tokens opens _ other ih =>
    intro fuel enough
    obtain ⟨fuel, rfl⟩ := Level.turn enough
    simp only [Level.need, tokens, List.length_cons] at enough ih
    simp only [Query.parseAt, tokens, opens, if_true, ih (show 4 * rest.length + 4 ≤ fuel by omega)]
    rcases after : q.tokens with _ | ⟨close, left⟩
    · rfl
    · rw [after, headIs_cons] at other
      simp only [other, if_false]
  | @shorthand p t rest tokens isValue known =>
    intro fuel enough
    obtain ⟨fuel, rfl⟩ := Level.turn enough
    simp [Query.parseAt, tokens, isValue, Parser.leaf, known]
  | @compare p t op v rest tokens isKey isOp isValue =>
    intro fuel enough
    obtain ⟨fuel, rfl⟩ := Level.turn enough
    simp [Query.parseAt, tokens, Parser.leaf, isKey, isOp, isValue]
  | @keyOp p t op rest tokens isKey isOp other =>
    intro fuel enough
    obtain ⟨fuel, rfl⟩ := Level.turn enough
    cases rest with
    | nil => simp [Query.parseAt, tokens, Parser.leaf, isKey, isOp]
    | cons v left =>
      rw [headIs_cons] at other
      simp [Query.parseAt, tokens, Parser.leaf, isKey, isOp, other]
  | @key p t rest tokens isKey other =>
    intro fuel enough
    obtain ⟨fuel, rfl⟩ := Level.turn enough
    cases rest with
    | nil => simp [Query.parseAt, tokens, Parser.leaf, isKey]
    | cons op left =>
      rw [headIs_cons] at other
      simp [Query.parseAt, tokens, Parser.leaf, isKey, other]
  | @skip p t rest tokens opens isKey unknown =>
    intro fuel enough
    obtain ⟨fuel, rfl⟩ := Level.turn enough
    have short : ¬ (t.type = .value ∧ p.lastKey.text ≠ []) := by tauto
    simp only [Query.parseAt, tokens, opens, Parser.leaf, short, isKey, if_false]

/-! ## Where the tokens of a tree come from -/

/-- The tokens of a tree are among these, each of its kind. -/
def Expr.Of (all : List Token) : Expr → Prop
  | .compare k op v => (k ∈ all ∧ k.type = .key) ∧ (op ∈ all ∧ op.type = .operator) ∧ v ∈ all ∧ v.type = .value
  | .binary left t right => left.Of all ∧ (t ∈ all ∧ ∃ c : Connective, t.type = c.type) ∧ right.Of all
  | .not _ e | .group _ e _ => e.Of all
  | .emptyGroup .. | .key _ | .keyOp .. => True

/-- So are the tokens of a parser. -/
structure Parser.Of (all : List Token) (p : Parser) : Prop where
  tokens : p.tokens ⊆ all
  last : p.lastKey.text ≠ [] →
    (p.lastKey ∈ all ∧ p.lastKey.type = .key) ∧ p.lastOp ∈ all ∧ p.lastOp.type = .operator

lemma Parser.Of.tail {all : List Token} {p : Parser} {t : Token} {rest : List Token} (of : p.Of all)
    (tokens : p.tokens = t :: rest) : t ∈ all ∧ ({ p with tokens := rest } : Parser).Of all :=
  ⟨of.tokens (by simp [tokens]), fun _ mem => of.tokens (by simp [tokens, mem]), of.last⟩

lemma Reads.of {all : List Token} {level : Level} {p q : Parser} {found : Option Expr} (reads : Reads level p found q) :
    p.Of all → (∀ c left, level = .rest c left → left.Of all) → (∀ e ∈ found, e.Of all) ∧ q.Of all := by
  induction reads with
  | @chainNone c _ _ _ ih => exact fun of _ => ih of (by cases c <;> nofun)
  | @chain c _ _ _ _ _ _ _ ih ih' =>
    intro of _
    obtain ⟨found, of⟩ := ih of (by cases c <;> nofun)
    exact ih' of (by rintro _ _ ⟨⟩; exact found _ rfl)
  | stop => exact fun of left => ⟨by rintro _ ⟨⟩; exact left _ _ rfl, of⟩
  | @dangling c _ _ _ _ _ tokens _ _ ih =>
    exact fun of left => ⟨by rintro _ ⟨⟩; exact left _ _ rfl, (ih (of.tail tokens).2 (by cases c <;> nofun)).2⟩
  | @more c _ _ _ _ _ _ _ _ tokens isConnective _ _ ih ih' =>
    intro of left
    obtain ⟨mem, of⟩ := of.tail tokens
    obtain ⟨found, of⟩ := ih of (by cases c <;> nofun)
    exact ih' of (by rintro _ _ ⟨⟩; exact ⟨left _ _ rfl, ⟨mem, c, isConnective⟩, found _ rfl⟩)
  | notNone tokens _ _ ih => exact fun of _ => ih (of.tail tokens).2 nofun
  | not tokens _ _ ih =>
    intro of _
    obtain ⟨found, of⟩ := ih (of.tail tokens).2 nofun
    have operand := found _ rfl
    exact ⟨by rintro _ ⟨⟩; exact operand, of⟩
  | plain _ _ ih => exact fun of _ => ih of nofun
  | nothing => exact fun of _ => ⟨nofun, of⟩
  | emptyGroup tokens _ _ after _ ih =>
    intro of _
    obtain ⟨_, of⟩ := ih (of.tail tokens).2 nofun
    exact ⟨by rintro _ ⟨⟩; trivial, (of.tail after).2⟩
  | group tokens _ _ after _ ih =>
    intro of _
    obtain ⟨found, of⟩ := ih (of.tail tokens).2 nofun
    have inner := found _ rfl
    exact ⟨by rintro _ ⟨⟩; exact inner, (of.tail after).2⟩
  | unclosed tokens _ _ _ ih => exact fun of _ => ih (of.tail tokens).2 nofun
  | shorthand tokens isValue known =>
    intro of _
    obtain ⟨mem, tail⟩ := of.tail tokens
    exact ⟨by rintro _ ⟨⟩; exact ⟨(of.last known).1, (of.last known).2, mem, isValue⟩, tail⟩
  | @compare p t op v rest tokens isKey isOp isValue =>
    intro of _
    have mem : ∀ x ∈ t :: op :: v :: rest, x ∈ all := fun x mem => of.tokens (by rw [tokens]; exact mem)
    have key : t ∈ all ∧ t.type = .key := ⟨mem _ (by simp), isKey⟩
    have operator : op ∈ all ∧ op.type = .operator := ⟨mem _ (by simp), isOp⟩
    exact ⟨by rintro _ ⟨⟩; exact ⟨key, operator, mem _ (by simp), isValue⟩,
      fun x inRest => mem _ (by simp [show x ∈ rest from inRest]), fun _ => ⟨key, operator⟩⟩
  | @keyOp p t op rest tokens isKey isOp _ =>
    intro of _
    have mem : ∀ x ∈ t :: op :: rest, x ∈ all := fun x mem => of.tokens (by rw [tokens]; exact mem)
    exact ⟨by rintro _ ⟨⟩; trivial, fun x inRest => mem _ (by simp [show x ∈ rest from inRest]),
      fun _ => ⟨⟨mem _ (by simp), isKey⟩, mem _ (by simp), isOp⟩⟩
  | key tokens => exact fun of _ => ⟨by rintro _ ⟨⟩; trivial, (of.tail tokens).2⟩
  | skip tokens => exact fun of _ => ⟨nofun, (of.tail tokens).2⟩

end PjCloud.Query
