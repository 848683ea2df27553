import PjCloud.Lib.Lua.Expression
import PjCloud.Query.Grammar

/-!
# What a query means

`serialize` of `query/ast.h`, `query/query.h` and `query/engine.h` of the plugin. The tree of a complete query is written
as a Lua expression, without a parenthesis that is not in the tree, and Lua reads it with its own priorities.
-/

namespace PjCloud.Query
open Lib

def serialize : Expr → Text
  | .compare key op value => key.text ++ ' ' :: op.text ++ ' ' :: value.text
  | .binary left connective right => serialize left ++ ' ' :: connective.text ++ ' ' :: serialize right
  | .not _ operand => "not ".toList ++ serialize operand
  | .group _ inner _ => '(' :: serialize inner ++ [')']
  | .emptyGroup .. => ['(', ')']
  | .key key => key.text
  | .keyOp key op => key.text ++ ' ' :: op.text

/-- `Query`, without `source_` and `tokens_`, which are the arguments. -/
structure Parsed where
  ast : Option Expr
  complete : Bool
  lua : Text

def query (source : Text) : Parsed :=
  let result := parse (tokenize source)
  { ast := result.ast
    complete := result.complete
    lua := if result.complete then (result.ast.map serialize).getD [] else source }

/-! ## The engine -/

abbrev Metadata := List (Text × Text)

/-- The names that `open_libraries` defines for the libraries base, string, math and table. -/
def libraryNames : List Text :=
  ["_G", "_VERSION", "assert", "collectgarbage", "dofile", "error", "getmetatable", "ipairs", "load", "loadfile", "math",
    "next", "pairs", "pcall", "print", "rawequal", "rawget", "rawlen", "rawset", "select", "setmetatable", "string", "table",
    "tonumber", "tostring", "type", "warn", "xpcall"].map String.toList

lemma lawful_text : LawfulBEq Text := inferInstance

attribute [local instance] lawful_text

/-- The globals of a new engine. -/
def library : Lua.Globals := fun name =>
  if name = "_VERSION".toList then .string "Lua 5.4".toList
  else if name ∈ libraryNames then .object (libraryNames.idxOf name)
  else .nil

def tryNumber (s : Text) : Option Double := if s = [] then none else strtod s

/-- What a value of the metadata is in Lua. -/
def inject (value : Text) : Lua.Value :=
  match tryNumber value with
  | some number => .number (.float number)
  | none => .string value

def set (globals : Lua.Globals) (metadata : Metadata) : Lua.Globals :=
  metadata.foldl (fun globals (key, value) => Function.update globals key (inject value)) globals

/-- `Engine::eval` of a Lua text: an error of the parser or of the run is false. -/
def evalLua (host : Lua.Host) (globals : Lua.Globals) (lua : Text) : Bool :=
  if lua = [] then false
  else match Lua.parseChunk ("return (".toList ++ lua ++ [')']) with
    | none => false
    | some e => decide (host.truth globals e = some true)

def eval (host : Lua.Host) (globals : Lua.Globals) (q : Parsed) : Bool := evalLua host globals q.lua

/-! ## The tree evaluated -/

/-- The operators that Lua has for these texts. A single `=` is none of an expression. -/
def operator (text : Text) : Option Lua.Op :=
  match Lua.lex text.length text with
  | some [.op op] => some op
  | _ => none

/-- The value of a literal of Lua. -/
def literal (text : Text) : Option Lua.Value :=
  match Lua.lex text.length text with
  | some [.string s] => some (.string s)
  | some [.number n] => some (.number n)
  | some [.minus, .number n] => some (.number n.neg)
  | _ => none

/-- Keys are names of Lua and values are literals of Lua. -/
def Expr.wellFormed : Expr → Bool
  | .compare k _ v => Lua.isName k.text && (literal v.text).isSome
  | .binary left _ right => left.wellFormed && right.wellFormed
  | .not _ e | .group _ e _ => e.wellFormed
  | .emptyGroup .. | .key _ | .keyOp .. => true

/-- No clause has an operator that Lua does not have. -/
def Expr.operators : Expr → Bool
  | .compare _ op _ => (Query.operator op.text).isSome
  | .binary left _ right => left.operators && right.operators
  | .not _ e | .group _ e _ => e.operators
  | .emptyGroup .. | .key _ | .keyOp .. => true

/-- The truth of a tree, or an error: `not` is of all of its operand, `and` and `or` are where they are in the tree. -/
def Expr.truth (host : Lua.Host) (globals : Lua.Globals) : Expr → Option Bool
  | .compare k op v =>
    (Query.operator op.text).bind fun o => (literal v.text).bind fun value =>
      (host.apply (globals k.text) value o).map Lua.Value.truthy
  | .binary left t right =>
    if t.type = .and then Lua.both (left.truth host globals) (right.truth host globals)
    else Lua.either (left.truth host globals) (right.truth host globals)
  | .not _ e => (e.truth host globals).map (!·)
  | .group _ e _ => e.truth host globals
  | .emptyGroup .. | .key _ | .keyOp .. => none

def Expr.holds (host : Lua.Host) (globals : Lua.Globals) (e : Expr) : Bool :=
  e.operators && decide (e.truth host globals = some true)

/-! ## Trees that Lua reads as they are -/

def Expr.isOr : Expr → Bool
  | .binary _ t _ => t.type = .or
  | _ => false

def Expr.bare : Expr → Bool
  | .compare .. | .binary .. => true
  | _ => false

/-- `not` stands before a group or another `not`, and `and` has no `or` next to it that is in no group. -/
def Expr.guarded : Expr → Bool
  | .binary left t right => left.guarded && right.guarded && (t.type ≠ .and || !left.isOr && !right.isOr)
  | .not _ e => e.guarded && !e.bare
  | .group _ e _ => e.guarded
  | .compare .. | .emptyGroup .. | .key _ | .keyOp .. => true

/-! ## The words that Lua reads -/

def words (text : Text) : List Lua.Token := (Lua.lex text.length text).getD []

def Connective.op : Connective → Lua.Op
  | and => .and
  | or => .or

def Expr.luaTokens : Expr → List Lua.Token
  | .compare k op v => .name k.text :: (words op.text ++ words v.text)
  | .binary left t right => left.luaTokens ++ .op (if t.type = .and then .and else .or) :: right.luaTokens
  | .not _ e => .not :: e.luaTokens
  | .group _ e _ => .lparen :: (e.luaTokens ++ [.rparen])
  | .emptyGroup .. | .key _ | .keyOp .. => []

def operatorTexts : List Text := ["==", "~=", "<=", ">=", "<", ">", "=", "~"].map String.toList

/-- What the text of a token is where its type says so. -/
def Spelled (t : Token) : Prop :=
  (t.type = .and → t.text = "and".toList) ∧ (t.type = .or → t.text = "or".toList) ∧
    (t.type = .operator → t.text ∈ operatorTexts)

lemma classifyWord_cases (word : Text) :
    (classifyWord word = .and → word = "and".toList) ∧ (classifyWord word = .or → word = "or".toList) ∧
      classifyWord word ≠ .operator := by
  unfold classifyWord
  split_ifs <;> simp_all

lemma Lexeme.spelled {type : TokenType} {text more : Text} {start stop : Nat} (token : Lexeme type text more) :
    Spelled { type, text, start, stop } := by
  cases token with
  | twoChar two =>
    refine ⟨nofun, nofun, fun _ => ?_⟩
    obtain ⟨rfl, rfl | rfl | rfl | rfl⟩ := isTwoChar_iff.mp two <;> simp [operatorTexts]
  | oneChar one =>
    refine ⟨nofun, nofun, fun _ => ?_⟩
    rcases one with rfl | rfl | rfl | rfl <;> simp [operatorTexts]
  | word =>
    obtain ⟨isAnd, isOr, other⟩ := classifyWord_cases _
    exact ⟨isAnd, isOr, fun isOperator => absurd isOperator other⟩
  | _ => exact ⟨nofun, nofun, nofun⟩

lemma Scans.spelled {i : Nat} {source : Text} {tokens : List Token} (scans : Scans i source tokens) :
    ∀ t ∈ tokens, Spelled t := by
  induction scans with
  | nil => nofun
  | space _ _ ih => exact ih
  | token token _ ih =>
    rintro t (_ | ⟨_, mem⟩)
    · exact token.spelled
    · exact ih t mem

lemma lex_operator : ∀ text ∈ operatorTexts, Lua.lex text.length text = some [.assign] ∧ operator text = none ∨
    ∃ op : Lua.Op, 2 < op.priority ∧ Lua.lex text.length text = some [.op op] ∧ operator text = some op := by
  simp only [operatorTexts, List.forall_mem_cons, List.map_cons, List.map_nil]
  refine ⟨.inr ⟨.eq, ?_⟩, .inr ⟨.ne, ?_⟩, .inr ⟨.le, ?_⟩, .inr ⟨.ge, ?_⟩, .inr ⟨.lt, ?_⟩, .inr ⟨.gt, ?_⟩, .inl ?_,
    .inr ⟨.bxor, ?_⟩, nofun⟩ <;> decide +kernel

lemma lexes_words {text : Text} (some : (Lua.lex text.length text).isSome) : Lua.Lexes text (words text) := by
  obtain ⟨tokens, eq⟩ := Option.isSome_iff_exists.mp some
  rw [words, eq]
  exact .of_lex eq

lemma isSome_lex_literal {text : Text} (isLiteral : (literal text).isSome) : (Lua.lex text.length text).isSome := by
  unfold literal at isLiteral
  cases eq : Lua.lex text.length text
  · rw [eq] at isLiteral
    cases isLiteral
  · rfl

lemma lexes_blank {text : Text} {tokens : List Lua.Token} (lexes : Lua.Lexes text tokens) :
    Lua.Lexes (' ' :: text) tokens := .blank rfl lexes

lemma lexes_serialize {all : List Token} (spelled : ∀ t ∈ all, Spelled t) {e : Expr} (of : e.Of all)
    (complete : e.checkComplete = true) (wellFormed : e.wellFormed = true) : Lua.Lexes (serialize e) e.luaTokens := by
  induction e with
  | compare k op v =>
    obtain ⟨-, ⟨mem, isOp⟩, -⟩ := of
    simp only [Expr.wellFormed, Bool.and_eq_true] at wellFormed
    have isOperator := (spelled op mem).2.2 isOp
    have opWords : Lua.Lexes op.text (words op.text) := by
      refine lexes_words ?_
      rcases lex_operator _ isOperator with ⟨eq, _⟩ | ⟨_, _, eq, _⟩ <;> rw [eq] <;> rfl
    have value := lexes_blank (lexes_words (isSome_lex_literal wellFormed.2))
    have clause := lexes_blank (opWords.append rfl value)
    simpa [serialize, Expr.luaTokens] using (Lua.Lexes.name wellFormed.1).append rfl clause
  | binary left t right ih ih' =>
    obtain ⟨ofLeft, ⟨mem, c, isConnective⟩, ofRight⟩ := of
    simp only [Expr.wellFormed, Expr.checkComplete, Bool.and_eq_true] at complete wellFormed
    have connective : Lua.Lexes t.text [.op (if t.type = .and then .and else .or)] := by
      cases c with
      | and =>
        rw [(spelled t mem).1 isConnective, if_pos (show t.type = .and from isConnective)]
        exact .of_lex (by decide)
      | or =>
        rw [(spelled t mem).2.1 isConnective, if_neg (by simp [isConnective, Connective.type])]
        exact .of_lex (by decide)
    have after := lexes_blank (connective.append rfl (lexes_blank (ih' ofRight complete.2 wellFormed.2)))
    simpa [serialize, Expr.luaTokens] using (ih ofLeft complete.1 wellFormed.1).append rfl after
  | not t e ih =>
    have word : Lua.Lexes "not".toList [.not] := .of_lex (by decide)
    exact word.append rfl (lexes_blank (ih of complete wellFormed))
  | group t e close ih =>
    have after : Lua.Lexes [')'] [.rparen] := .of_lex (by decide)
    exact .cons (by decide) rfl ((ih of complete wellFormed).append rfl after)
  | emptyGroup | key | keyOp => cases complete

/-! ## The tree that Lua finds -/

def Expr.level : Expr → Nat
  | .binary _ t _ => if t.type = .or then 1 else 2
  | _ => 3

variable (host : Lua.Host) (globals : Lua.Globals)

/-- Lua starts to read the tree here and finds something that is true when the tree is. -/
def Reread (e : Expr) : Prop :=
  ∀ limit, (e.bare = true → limit < e.level) → ∃ x, host.truth globals x = e.truth host globals ∧
    Lua.Continues e.level (.sub limit) e.luaTokens (.climb limit x)

def Connective.combine : Connective → Option Bool → Option Bool → Option Bool
  | and => Lua.both
  | or => Lua.either

/-- Lua goes on with the tree after a connective. -/
def Attaches (e : Expr) : Prop :=
  ∀ (c : Connective) limit left, limit < c.op.priority → (c = .and → e.isOr = false) →
    ∃ x, host.truth globals x = c.combine (host.truth globals left) (e.truth host globals) ∧
      Lua.Continues c.op.priority (.climb limit left) (.op c.op :: e.luaTokens) (.climb limit x)

variable {host globals}

lemma le_level {c : Connective} {e : Expr} (apart : c = .and → e.isOr = false) : c.op.priority ≤ e.level := by
  have small : c.op.priority ≤ 2 := by cases c <;> decide
  cases e with
  | binary left t right =>
    by_cases isOr : t.type = .or
    · cases c with
      | or => simp [Expr.level, isOr, Connective.op, Lua.Op.priority]
      | and => simp [Expr.isOr, isOr] at apart
    · simpa [Expr.level, isOr] using small
  | _ => exact small.trans (by decide : 2 ≤ 3)

lemma Connective.priority_lt (c : Connective) : c.op.priority < 3 := by
  cases c <;> decide

lemma level_of_not_bare {e : Expr} (grouped : e.bare = false) : e.level = 3 := by
  cases e <;> first | rfl | cases grouped

lemma level_pos (e : Expr) : 0 < e.level := by
  unfold Expr.level
  split
  · split <;> decide
  · decide

lemma truth_combine (c : Connective) (left right : Lua.Exp) : host.truth globals (.binary c.op left right) =
    c.combine (host.truth globals left) (host.truth globals right) := by
  cases c
  · exact Lua.truth_and ..
  · exact Lua.truth_or ..

lemma derives_literal {text : Text} {value : Lua.Value} (isLiteral : literal text = some value) {n : Nat}
    {rest : List Lua.Token} (stops : Lua.Stops n rest) : Lua.Derives (.sub n) (words text ++ rest) (.const value) rest := by
  unfold literal at isLiteral
  unfold words
  split at isLiteral
  · rename_i s eq
    cases isLiteral
    rw [eq]
    exact .string (.stop stops)
  · rename_i n eq
    cases isLiteral
    rw [eq]
    exact .number (.stop stops)
  · rename_i n eq
    cases isLiteral
    rw [eq]
    exact .minus (.stop stops)
  · cases isLiteral

lemma eval_binary {o : Lua.Op} (high : 2 < o.priority) (left right : Lua.Exp) : host.eval globals (.binary o left right) =
    (host.eval globals left).bind fun a => (host.eval globals right).bind fun b => host.apply a b o := by
  cases o with
  | and | or => exact absurd high (by decide)
  | _ => rfl

lemma reread_compare {k op v : Token} {o : Lua.Op} {value : Lua.Value} (isOp : operator op.text = some o)
    (high : 2 < o.priority) (opWords : words op.text = [.op o]) (isLiteral : literal v.text = some value) :
    Reread host globals (.compare k op v) := by
  intro limit low
  have low : limit < o.priority := Nat.lt_of_lt_of_le (low rfl) high
  refine ⟨.binary o (.var k.text) (.const value), ?_, fun rest e rest' noCall stops next => ?_⟩
  · simp [Lua.Host.truth, eval_binary high, Lua.Host.eval, Expr.truth, isOp, isLiteral]
  · rw [Expr.luaTokens, opWords, List.cons_append, List.append_assoc]
    exact .name rfl (.op low (derives_literal isLiteral (stops.mono high)) next)

section Chain

variable {c : Connective} {left right : Expr} {t : Token} (isConnective : t.type = c.type)
include isConnective

lemma luaTokens_binary : (Expr.binary left t right).luaTokens = left.luaTokens ++ .op c.op :: right.luaTokens := by
  cases c <;> simp [Expr.luaTokens, isConnective, Connective.type, Connective.op]

lemma truth_binary : (Expr.binary left t right).truth host globals =
    c.combine (left.truth host globals) (right.truth host globals) := by
  cases c <;> simp [Expr.truth, isConnective, Connective.type, Connective.combine]

lemma level_binary : (Expr.binary left t right).level = c.op.priority := by
  cases c <;> simp [Expr.level, isConnective, Connective.type, Connective.op, Lua.Op.priority]

lemma attaches_chain (first : Attaches host globals left) (second : Attaches host globals right)
    (apart : c = .and → left.isOr = false ∧ right.isOr = false) (limit : Nat) (low : limit < c.op.priority)
    (before : Lua.Exp) : ∃ x, host.truth globals x =
        c.combine (host.truth globals before) ((Expr.binary left t right).truth host globals) ∧
      Lua.Continues c.op.priority (.climb limit before) (.op c.op :: (Expr.binary left t right).luaTokens)
        (.climb limit x) := by
  obtain ⟨x, truth, reads⟩ := first c limit before low (fun isAnd => (apart isAnd).1)
  obtain ⟨y, truth', reads'⟩ := second c limit x low (fun isAnd => (apart isAnd).2)
  refine ⟨y, ?_, fun rest e rest' noCall stops next => ?_⟩
  · rw [truth', truth, truth_binary isConnective]
    cases c
    · exact Lua.both_assoc ..
    · exact Lua.either_assoc ..
  · have after := reads' rest e rest' noCall stops next
    have whole := reads _ e rest' rfl (fun op head => by cases head; exact le_rfl) after
    rw [luaTokens_binary isConnective]
    simpa using whole

lemma reread_chain (first : Reread host globals left) (second : Attaches host globals right)
    (apart : c = .and → left.isOr = false ∧ right.isOr = false) : Reread host globals (.binary left t right) := by
  intro limit low
  rw [level_binary isConnective] at low ⊢
  have above := le_level (fun isAnd => (apart isAnd).1)
  obtain ⟨x, truth, reads⟩ := first limit (fun _ => Nat.lt_of_lt_of_le (low rfl) above)
  obtain ⟨y, truth', reads'⟩ := second c limit x (low rfl) (fun isAnd => (apart isAnd).2)
  refine ⟨y, ?_, fun rest e rest' noCall stops next => ?_⟩
  · rw [truth', truth, truth_binary isConnective]
  · have after := reads' rest e rest' noCall stops next
    have whole := reads _ e rest' rfl (fun op head => by cases head; exact above) after
    rw [luaTokens_binary isConnective]
    simpa using whole

end Chain

lemma attaches_operand {c : Connective} {e : Expr} (reread : Reread host globals e) (tight : e.bare = true → c.op.priority < e.level)
    (apart : c = .and → e.isOr = false) (limit : Nat) (low : limit < c.op.priority) (left : Lua.Exp) :
    ∃ x, host.truth globals x = c.combine (host.truth globals left) (e.truth host globals) ∧
      Lua.Continues c.op.priority (.climb limit left) (.op c.op :: e.luaTokens) (.climb limit x) := by
  obtain ⟨x, truth, reads⟩ := reread c.op.priority tight
  refine ⟨.binary c.op left x, by rw [truth_combine, truth], fun rest y rest' noCall stops next => ?_⟩
  exact .op low (reads rest x rest noCall (stops.mono (le_level apart)) (.stop stops)) next

lemma reread_guarded {all : List Token} (spelled : ∀ t ∈ all, Spelled t) {e : Expr} (of : e.Of all)
    (complete : e.checkComplete = true) (wellFormed : e.wellFormed = true) (operators : e.operators = true)
    (guarded : e.guarded = true) : Reread host globals e ∧ Attaches host globals e := by
  induction e with
  | compare k op v =>
    obtain ⟨-, ⟨mem, isOp⟩, -⟩ := of
    simp only [Expr.wellFormed, Bool.and_eq_true] at wellFormed
    obtain ⟨value, isLiteral⟩ := Option.isSome_iff_exists.mp wellFormed.2
    rcases lex_operator _ ((spelled op mem).2.2 isOp) with ⟨_, none⟩ | ⟨o, high, opWords, isOperator⟩
    · simp [Expr.operators, none] at operators
    · have reread : Reread host globals (.compare k op v) :=
        reread_compare isOperator high (by rw [words, opWords]; rfl) isLiteral
      exact ⟨reread, fun c limit left low apart =>
        attaches_operand reread (fun _ => c.priority_lt) apart limit low left⟩
  | binary left t right ih ih' =>
    obtain ⟨ofLeft, ⟨mem, c, isConnective⟩, ofRight⟩ := of
    simp only [Expr.wellFormed, Expr.checkComplete, Expr.operators, Expr.guarded, Bool.and_eq_true] at complete wellFormed operators guarded
    obtain ⟨reread, attaches⟩ := ih ofLeft complete.1 wellFormed.1 operators.1 guarded.1.1
    obtain ⟨-, attaches'⟩ := ih' ofRight complete.2 wellFormed.2 operators.2 guarded.1.2
    have apart : c = .and → left.isOr = false ∧ right.isOr = false := by
      rintro rfl
      simpa [isConnective, Connective.type] using guarded.2
    have whole := reread_chain isConnective reread attaches' apart
    refine ⟨whole, fun c' limit before low apart' => ?_⟩
    by_cases same : c' = c
    · subst same
      exact attaches_chain isConnective attaches attaches' apart limit low before
    · refine attaches_operand whole (fun _ => ?_) apart' limit low before
      rw [level_binary isConnective]
      cases c <;> cases c' <;> simp_all [Expr.isOr, Connective.type, Connective.op, Lua.Op.priority]
  | not t e ih =>
    simp only [Expr.guarded, Bool.and_eq_true] at guarded
    obtain ⟨reread, -⟩ := ih of complete wellFormed operators guarded.1
    have whole : Reread host globals (.not t e) := by
      intro limit _
      obtain ⟨x, truth, reads⟩ := reread Lua.unaryPriority (fun bare => by simp [bare] at guarded)
      rw [level_of_not_bare (by simpa using guarded.2)] at reads
      refine ⟨.not x, by rw [Lua.truth_not, truth]; rfl, fun rest y rest' noCall stops next => ?_⟩
      have inner : Lua.Stops Lua.unaryPriority rest := stops.mono (show 3 ≤ 12 by decide)
      exact .not (reads rest x rest noCall stops (.stop inner)) next
    exact ⟨whole, fun c limit left low apart => attaches_operand whole (by simp [Expr.bare]) apart limit low left⟩
  | group t e close ih =>
    obtain ⟨reread, -⟩ := ih of complete wellFormed operators guarded
    have whole : Reread host globals (.group t e close) := by
      intro limit _
      obtain ⟨x, truth, reads⟩ := reread 0 (fun _ => level_pos e)
      refine ⟨x, truth, fun rest y rest' noCall stops next => ?_⟩
      have inner := reads (.rparen :: rest) x (.rparen :: rest) rfl Lua.stops_rparen (.stop Lua.stops_rparen)
      simpa [Expr.luaTokens] using Lua.Derives.paren inner noCall next
    exact ⟨whole, fun c limit left low apart => attaches_operand whole (by simp [Expr.bare]) apart limit low left⟩
  | emptyGroup | key | keyOp => cases complete

/-! ## Queries -/

lemma serialize_ne_nil {e : Expr} (complete : e.checkComplete = true) : serialize e ≠ [] := by
  cases e <;> simp_all [serialize, Expr.checkComplete]

lemma lex_chunk {text : Text} {tokens : List Lua.Token} (lexes : Lua.Lexes text tokens) :
    Lua.Lexes ("return (".toList ++ text ++ [')']) (.ret :: .lparen :: (tokens ++ [.rparen])) := by
  have close : Lua.Lexes [')'] [.rparen] := .of_lex (by decide)
  have inner : Lua.Lexes ('(' :: (text ++ [')'])) (.lparen :: (tokens ++ [.rparen])) :=
    .cons (by decide) rfl (lexes.append rfl close)
  have word : Lua.Lexes "return".toList [.ret] := .of_lex (by decide)
  exact word.append rfl (lexes_blank inner)

lemma evalLua_of_derives {text : Text} {tokens : List Lua.Token} {x : Lua.Exp} (lexes : Lua.Lexes text tokens)
    (some : text ≠ []) (derives : Lua.Derives (.sub 0) (tokens ++ [.rparen]) x [.rparen]) :
    evalLua host globals text = decide (host.truth globals x = Option.some true) := by
  have whole : Lua.Derives (.sub 0) (.lparen :: (tokens ++ [.rparen])) x [] := .paren derives rfl (.stop nofun)
  simp only [evalLua, some, if_false, Lua.parseChunk_of_derives (lex_chunk lexes) whole]

/-- A clause with a single `=` is no expression. -/
lemma assign_mem {all : List Token} (spelled : ∀ t ∈ all, Spelled t) {e : Expr} (of : e.Of all)
    (complete : e.checkComplete = true) (operators : e.operators = false) : .assign ∈ e.luaTokens := by
  induction e with
  | compare k op v =>
    obtain ⟨-, ⟨mem, isOp⟩, -⟩ := of
    rcases lex_operator _ ((spelled op mem).2.2 isOp) with ⟨eq, _⟩ | ⟨o, _, _, isOperator⟩
    · simp [Expr.luaTokens, words, eq]
    · simp [Expr.operators, isOperator] at operators
  | binary left t right ih ih' =>
    obtain ⟨ofLeft, -, ofRight⟩ := of
    simp only [Expr.checkComplete, Expr.operators, Bool.and_eq_true, Bool.and_eq_false_iff] at complete operators
    rw [Expr.luaTokens, List.mem_append, List.mem_cons]
    rcases operators with none | none
    · exact .inl (ih ofLeft complete.1 none)
    · exact .inr (.inr (ih' ofRight complete.2 none))
  | not t e ih => exact List.mem_cons_of_mem _ (ih of complete operators)
  | group t e close ih => exact List.mem_cons_of_mem _ (List.mem_append_left _ (ih of complete operators))
  | emptyGroup | key | keyOp => cases complete

lemma evalLua_of_assign {text : Text} {tokens : List Lua.Token} (lexes : Lua.Lexes text tokens)
    (assign : .assign ∈ tokens) : evalLua host globals text = false := by
  have none := Lua.parseChunk_of_assign (lex_chunk lexes) (by simp [assign])
  simp only [evalLua, none, ite_self]

lemma query_complete {source : Text} {e : Expr} (ast : (query source).ast = some e)
    (complete : (query source).complete = true) :
    (query source).lua = serialize e ∧ e.checkComplete = true ∧ e.Of (tokenize source) := by
  have ast : (parse (tokenize source)).ast = some e := ast
  have complete : (parse (tokenize source)).complete = true := complete
  refine ⟨by simp [query, complete, ast], ?_⟩
  obtain ⟨found, q, reads⟩ := exists_reads (tokenize source)
  have nonempty : tokenize source ≠ [] := by
    intro empty
    simp [empty, parse] at ast
  have result := parse_eq nonempty reads
  rw [result] at ast complete
  obtain rfl : found = some e := ast
  simp only [Option.any_some, Bool.and_eq_true] at complete
  exact ⟨complete.1, (reads.of ⟨fun _ mem => mem, fun known => absurd rfl known⟩ (by rintro _ _ ⟨⟩)).1 e rfl⟩

lemma eval_guarded {source : Text} {e : Expr} (ast : (query source).ast = some e)
    (complete : (query source).complete = true) (wellFormed : e.wellFormed = true) (guarded : e.guarded = true) :
    eval host globals (query source) = e.holds host globals := by
  obtain ⟨lua, full, of⟩ := query_complete ast complete
  have spelled := (scans_tokenize source).spelled
  have lexes := lexes_serialize spelled of full wellFormed
  rw [eval, lua]
  by_cases operators : e.operators = true
  · obtain ⟨reread, -⟩ := @reread_guarded host globals _ spelled _ of full wellFormed operators guarded
    obtain ⟨x, truth, reads⟩ := reread 0 (fun _ => level_pos e)
    have derives := reads [.rparen] x [.rparen] rfl Lua.stops_rparen (.stop Lua.stops_rparen)
    rw [evalLua_of_derives lexes (serialize_ne_nil full) derives, truth, Expr.holds, operators, Bool.true_and]
  · have operators : e.operators = false := by simpa using operators
    rw [evalLua_of_assign lexes (assign_mem spelled of full operators), Expr.holds, operators, Bool.false_and]

/-- Lua compares with the literal whether the key is set at all. -/
lemma eval_not_compare {source : Text} {t k op v : Token} {o : Lua.Op} {value : Lua.Value}
    (ast : (query source).ast = some (.not t (.compare k op v))) (complete : (query source).complete = true)
    (wellFormed : (Expr.not t (.compare k op v)).wellFormed = true) (isOp : operator op.text = some o)
    (isLiteral : literal v.text = some value) : eval host globals (query source) =
      decide ((host.apply (.bool (!(globals k.text).truthy)) value o).map Lua.Value.truthy = some true) := by
  obtain ⟨lua, full, of⟩ := query_complete ast complete
  have spelled := (scans_tokenize source).spelled
  have lexes := lexes_serialize spelled of full wellFormed
  obtain ⟨-, ⟨mem, isOperator⟩, -⟩ := of
  obtain ⟨o', high, opWords, isOp'⟩ := (lex_operator _ ((spelled op mem).2.2 isOperator)).resolve_left
    (fun ⟨_, missing⟩ => by simp [isOp] at missing)
  obtain rfl : o = o' := Option.some.inj (isOp.symm.trans isOp')
  have low : o.priority ≤ Lua.unaryPriority := by cases o <;> decide
  have derives : Lua.Derives (.sub 0) ((Expr.not t (.compare k op v)).luaTokens ++ [.rparen])
      (.binary o (.not (.var k.text)) (.const value)) [.rparen] := by
    simp only [Expr.luaTokens, words, opWords, Option.getD_some, List.cons_append, List.nil_append]
    refine .not (.name rfl (.stop fun op head => by cases head; exact low)) ?_
    exact .op (Nat.lt_trans (by decide) high) (derives_literal isLiteral nofun) (.stop nofun)
  rw [eval, lua, evalLua_of_derives lexes (serialize_ne_nil full) derives, Lua.Host.truth, eval_binary high]
  rfl

lemma literal_cases {text : Text} {value : Lua.Value} (isLiteral : literal text = some value) :
    (∃ s, value = .string s) ∨ ∃ n, value = .number n := by
  unfold literal at isLiteral
  split at isLiteral
  · cases isLiteral
    exact .inl ⟨_, rfl⟩
  · cases isLiteral
    exact .inr ⟨_, rfl⟩
  · cases isLiteral
    exact .inr ⟨_, rfl⟩
  · cases isLiteral

lemma exists_unequal {text : Text} {value : Lua.Value} (isLiteral : literal text = some value) :
    (∀ b, (Lua.Value.bool b).equal value = false) ∧ ∃ s, (inject s).equal value = false := by
  have empty : inject [] = .string [] := by decide
  have letter : inject ['x'] = .string ['x'] := by decide
  rcases literal_cases isLiteral with ⟨s, rfl⟩ | ⟨n, rfl⟩
  · refine ⟨fun b => rfl, ?_⟩
    by_cases none : s = []
    · exact ⟨['x'], by simp [letter, Lua.Value.equal, none]⟩
    · exact ⟨[], by simp [empty, Lua.Value.equal, Ne.symm none]⟩
  · exact ⟨fun b => rfl, [], by simp [empty, Lua.Value.equal]⟩

/-- Where `not` stands before groups only, and no `or` is next to an `and` without its own parentheses, the engine
evaluates a complete query as the tree says. Where `not` stands before a single comparison of `==` or `~=`, it does
not. -/
theorem guarded_query_keeps_meaning (host : Lua.Host) (globals : Lua.Globals) {source : Text} {e : Expr}
    (ast : (query source).ast = some e) (complete : (query source).complete = true)
    (wellFormed : e.wellFormed = true) :
    (e.guarded = true → ∀ metadata,
      eval host (set globals metadata) (query source) = e.holds host (set globals metadata)) ∧
    (∀ t k op v, e = .not t (.compare k op v) → operator op.text = some .eq ∨ operator op.text = some .ne →
      ∃ metadata, eval host (set globals metadata) (query source) ≠ e.holds host (set globals metadata)) := by
  refine ⟨fun guarded metadata => eval_guarded ast complete wellFormed guarded, ?_⟩
  rintro t k op v rfl isOp
  have clause := wellFormed
  simp only [Expr.wellFormed, Bool.and_eq_true] at clause
  obtain ⟨value, isLiteral⟩ := Option.isSome_iff_exists.mp clause.2
  obtain ⟨noBool, s, unequal⟩ := exists_unequal isLiteral
  refine ⟨[(k.text, s)], ?_⟩
  have injected : set globals [(k.text, s)] k.text = inject s := by simp [set]
  rcases isOp with isOp | isOp
  · rw [eval_not_compare ast complete wellFormed isOp isLiteral]
    simp [Expr.holds, Expr.operators, Expr.truth, isOp, isLiteral, Lua.Host.apply, injected, noBool, unequal,
      Lua.Value.truthy]
  · rw [eval_not_compare ast complete wellFormed isOp isLiteral]
    simp [Expr.holds, Expr.operators, Expr.truth, isOp, isLiteral, Lua.Host.apply, injected, noBool, unequal,
      Lua.Value.truthy]

def plainHost : Lua.Host := { strcoll := fun a b => compareOfLessAndEq a b, bxor := fun _ _ => none }

theorem not_group_keeps_meaning : ∃ e, (query "robot == \"a\" or not (sensor ~= 3)".toList).ast = some e ∧
    ∀ metadata, eval plainHost (set (fun _ => .nil) metadata) (query "robot == \"a\" or not (sensor ~= 3)".toList) =
      e.holds plainHost (set (fun _ => .nil) metadata) := by
  have checked : ((query "robot == \"a\" or not (sensor ~= 3)".toList).ast.any fun e => e.wellFormed && e.guarded) =
      true := by decide +kernel
  obtain ⟨e, ast, both⟩ := (Option.any_eq_true _ _).mp checked
  rw [Bool.and_eq_true] at both
  exact ⟨e, ast, (guarded_query_keeps_meaning plainHost _ ast (by decide +kernel) both.1).1 both.2⟩

/-- A robot of another name is not found by `not robot == "x"`. -/
theorem not_clause_changes_meaning : (query "not robot == \"x\"".toList).complete = true ∧
    ((query "not robot == \"x\"".toList).ast.any fun e =>
      e.wellFormed && e.holds plainHost (set (fun _ => .nil) [("robot".toList, "y".toList)])) = true ∧
    eval plainHost (set (fun _ => .nil) [("robot".toList, "y".toList)]) (query "not robot == \"x\"".toList) = false := by
  decide +kernel

end PjCloud.Query
