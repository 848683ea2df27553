import Mathlib.Data.List.TakeWhile
import PjCloud.Query.Token

/-!
# Completions

`analyze` and `applyCompletion` of `query/edit.h` of the plugin: a dropdown item is spliced into the text of a query at the
token that the cursor touches. What `complete` says of the text before the cursor is a parameter.
-/

namespace PjCloud.Query
open Lib

inductive Expect where
  | key
  | operator
  | value
  | connective
  | any
  deriving DecidableEq

structure Completions where
  expect : Expect := .any
  currentKey : Text := []
  suggestions : List Text := []

inductive Action where
  | disabled
  | insert
  | replace
  deriving DecidableEq

/-- `tokenIndex` is -1 in the source where it is `none` here. -/
structure CursorContext where
  cursor : Int
  tokenIndex : Option Nat
  activeToken : Token
  expect : Expect
  contextKey : Text
  suggestionCount : Nat
  keyAction : Action
  opAction : Action
  valAction : Action

def findActiveToken (tokens : List Token) (cursor : Int) : Option Nat :=
  tokens.findIdx? fun t => decide (t.start ≤ cursor ∧ cursor ≤ t.stop)

def typeBefore (tokens : List Token) (i distance : Nat) : Option TokenType :=
  if distance ≤ i then (tokens[i - distance]?).map Token.type else none

def textBefore (tokens : List Token) (i distance : Nat) : Text := ((tokens[i - distance]?).map Token.text).getD []

/-- What is expected after the active token, and the key that is in context. -/
def expectAfter (tokens : List Token) (i : Nat) (active : Token) (contextKey : Text) : Expect × Text :=
  match active.type with
  | .key => (.operator, active.text)
  | .operator => (.value, if typeBefore tokens i 1 = some .key then textBefore tokens i 1 else contextKey)
  | .value | .closeParen => (.connective,
      if typeBefore tokens i 1 = some .operator ∧ typeBefore tokens i 2 = some .key then textBefore tokens i 2
      else contextKey)
  | .and | .or | .not | .openParen => (.key, [])

def analyze (complete : Text → Int → Completions) (text : Text) (cursor : Int) : CursorContext :=
  let tokens := tokenize text
  let tokenIndex := findActiveToken tokens cursor
  let activeToken := (tokenIndex.bind fun i => tokens[i]?).getD { type := .key }
  let comp := complete text cursor
  let (expect, contextKey) := match tokenIndex with
    | some i => expectAfter tokens i activeToken comp.currentKey
    | none => (comp.expect, comp.currentKey)
  let on (type : TokenType) := tokenIndex.isSome && activeToken.type = type
  { cursor, tokenIndex, activeToken, expect, contextKey
    suggestionCount := comp.suggestions.length
    keyAction := if on .key then .replace
      else if expect = .key ∨ expect = .any ∨ expect = .connective then .insert else .disabled
    opAction := if on .operator then .replace else if expect = .operator then .insert else .disabled
    valAction := if on .value then .replace else if expect = .value then .insert else .disabled }

def isQueryWhitespace (c : Char) : Bool := c = ' ' || c = '\t' || c = '\n' || c = '\r'

structure EditResult where
  text : Text
  cursor : Nat
  deriving DecidableEq

/-- The span that is replaced, between the bytes `first` and `last` of `n`. -/
def span (n : Nat) (ctx : CursorContext) (action : Action) : Nat × Nat :=
  let (first, last) : Int × Int :=
    if action = .replace ∧ ctx.tokenIndex.isSome then (ctx.activeToken.start, ctx.activeToken.stop)
    else if ctx.tokenIndex.isSome then (ctx.activeToken.stop, ctx.activeToken.stop)
    else (ctx.cursor, ctx.cursor)
  let first : Int := if first < 0 then 0 else if first > n then n else first
  let last : Int := if last < first then first else if last > n then n else last
  (first.toNat, last.toNat)

def applyCompletion (text : Text) (ctx : CursorContext) (action : Action) (item : Text) : EditResult :=
  let replace := decide (action = .replace) && ctx.tokenIndex.isSome
  let (first, last) := span text.length ctx action
  let lead := if 0 < first ∧ (text[first - 1]?).all (!isQueryWhitespace ·) then [' '] else []
  let atEnd := decide (text.length ≤ last)
  let trail := if !replace || atEnd || (text[last]?).all (!isQueryWhitespace ·) then [' '] else []
  let piece := lead ++ item ++ trail
  { text := text.take first ++ piece ++ text.drop last, cursor := first + piece.length }

/-! ## What a splice should be -/

/-- The closing quote is the last byte. -/
def closes (quote : Char) : Text → Bool
  | [] => false
  | [c] => c = quote
  | c :: d :: rest => if c = quote then false else if c = '\\' then closes quote rest else closes quote (d :: rest)

def isClosed : Text → Bool
  | [] => true
  | c :: rest => if c = '"' ∨ c = '\'' then closes c rest else true

def quotesClosed (text : Text) : Bool := (tokenize text).all fun t => isClosed t.text

/-- Where the item goes in the list of tokens. -/
def place (tokens : List Token) (ctx : CursorContext) (action : Action) : Nat :=
  match ctx.tokenIndex with
  | some i => if action = .replace then i else i + 1
  | none => (tokens.takeWhile fun t => decide (t.stop < ctx.cursor)).length

/-- The tokens with the item in its place. -/
def spliced (tokens : List Token) (ctx : CursorContext) (action : Action) (item : Token) : List Token :=
  let n := place tokens ctx action
  let removed := if action = .replace ∧ ctx.tokenIndex.isSome then 1 else 0
  tokens.take n ++ item :: tokens.drop (n + removed)

def Token.kind (t : Token) : TokenType × Text := (t.type, t.text)

/-! ## Closed tokens -/

lemma closes_quoted {quote : Char} {body : Text} (plain : quote ≠ '\\') (inner : Quoted quote body) :
    closes quote body = false ∧ closes quote (body ++ ['\\']) = false := by
  induction inner with
  | nil => exact ⟨rfl, by simp [closes, plain.symm]⟩
  | @escape d body inner ih => simpa [closes, plain.symm] using ih
  | @cons c body other noEscape inner ih =>
    cases body with
    | nil => simp [closes, other, noEscape, plain.symm]
    | cons d body => simpa [closes, other, noEscape] using ih

lemma Lexeme.before {type : TokenType} {text more more' : Text} (token : Lexeme type text more)
    (closed : isClosed text = true) (next : more'.head? = more.head? ∨ more'.head?.all isSpace = true) :
    Lexeme type text more' := by
  have stops {p : Char → Bool} (blank : ∀ c, isSpace c = true → p c = true) (holds : more.head?.all p = true) :
      more'.head?.all p = true := by
    rcases next with same | space
    · rw [same]
      exact holds
    · cases more' with
      | nil => rfl
      | cons c more' => exact blank c space
  cases token with
  | twoChar two => exact .twoChar two
  | oneChar one single =>
    refine .oneChar one fun head => ?_
    rcases next with same | space
    · exact single (same ▸ head)
    · rw [head] at space
      cases space
  | openParen => exact .openParen
  | closeParen => exact .closeParen
  | closed isQuote inner => exact .closed isQuote inner
  | @unclosed quote body isQuote inner =>
    have isQuote' : quote = '"' ∨ quote = '\'' := isQuote
    simp [isClosed, isQuote', (closes_quoted isQuote.ne_backslash inner).1] at closed
  | @dangling quote body isQuote inner =>
    have isQuote' : quote = '"' ∨ quote = '\'' := isQuote
    simp [isClosed, isQuote', (closes_quoted isQuote.ne_backslash inner).2] at closed
  | word first all after =>
    exact .word first all (stops (fun c space => by simp [not_isWordChar_of_isSpace space]) after)

lemma Lexeme.last {type : TokenType} {text more : Text} (token : Lexeme type text more) (closed : isClosed text = true) :
    text.getLast?.all isSpace = false := by
  cases token with
  | twoChar two =>
    obtain ⟨rfl, -⟩ := isTwoChar_iff.mp two
    rfl
  | oneChar one => rcases one with rfl | rfl | rfl | rfl <;> rfl
  | openParen | closeParen => rfl
  | @closed quote body _ isQuote inner =>
    rw [show (quote :: body ++ [quote]).getLast? = some quote from List.getLast?_concat]
    rcases isQuote with rfl | rfl <;> rfl
  | @unclosed quote body isQuote inner =>
    have isQuote' : quote = '"' ∨ quote = '\'' := isQuote
    simp [isClosed, isQuote', (closes_quoted isQuote.ne_backslash inner).1] at closed
  | @dangling quote body isQuote inner =>
    have isQuote' : quote = '"' ∨ quote = '\'' := isQuote
    simp [isClosed, isQuote', (closes_quoted isQuote.ne_backslash inner).2] at closed
  | @word c rest _ first all after =>
    have word : ∀ d ∈ c :: rest, isWordChar d = true := List.forall_mem_cons.mpr ⟨first, List.all_eq_true.mp all⟩
    rw [List.getLast?_eq_some_getLast (List.cons_ne_nil c rest), Option.all_some]
    exact (isWordChar_iff.mp (word _ (List.getLast_mem (List.cons_ne_nil c rest)))).1

/-! ## Tokens of texts side by side -/

namespace Scans

lemma bounds {i : Nat} {text : Text} {tokens : List Token} (scans : Scans i text tokens) :
    ∀ t ∈ tokens, i ≤ t.start ∧ t.start < t.stop ∧ t.stop ≤ i + text.length := by
  induction scans with
  | nil => nofun
  | space _ _ ih =>
    intro t mem
    have := ih t mem
    rw [List.length_cons]
    omega
  | token token _ ih =>
    have some := List.length_pos_iff.mpr token.ne_nil
    rw [List.forall_mem_cons, List.length_append]
    refine ⟨⟨le_rfl, by simpa using some, by simp⟩, fun t mem => ?_⟩
    have := ih t mem
    omega

lemma ordered {i : Nat} {text : Text} {tokens : List Token} (scans : Scans i text tokens) :
    tokens.Pairwise fun t t' => t.stop ≤ t'.start := by
  induction scans with
  | nil => exact .nil
  | space _ _ ih => exact ih
  | token _ rest ih => exact .cons (fun t mem => (rest.bounds t mem).1) ih

/-- Tokens do not depend on where a text starts, but for their offsets. -/
lemma shift {i : Nat} {text : Text} {tokens : List Token} (scans : Scans i text tokens) (j : Nat) :
    ∃ tokens', Scans j text tokens' ∧ tokens'.map Token.kind = tokens.map Token.kind := by
  induction scans generalizing j with
  | nil => exact ⟨[], .nil, rfl⟩
  | space isSpace _ ih =>
    obtain ⟨tokens', scans, kinds⟩ := ih (j + 1)
    exact ⟨tokens', .space isSpace scans, kinds⟩
  | @token i type text more tokens token _ ih =>
    obtain ⟨tokens', scans, kinds⟩ := ih (j + text.length)
    exact ⟨_, .token token scans, by simp [Token.kind, kinds]⟩

lemma append {i : Nat} {text more : Text} {tokens others : List Token} (scans : Scans i text tokens)
    (closed : ∀ t ∈ tokens, isClosed t.text = true)
    (apart : text.getLast?.all isSpace = true ∨ more.head?.all isSpace = true)
    (after : Scans (i + text.length) more others) : Scans i (text ++ more) (tokens ++ others) := by
  induction scans with
  | nil => exact after
  | @space i c rest tokens isSpace _ ih =>
    refine .space isSpace (ih closed ?_ (by simpa [Nat.add_assoc, Nat.add_comm 1] using after))
    cases rest with
    | nil => exact .inl rfl
    | cons d rest => simpa using apart
  | @token i type text rest tokens token _ ih =>
    obtain ⟨first, later⟩ := List.forall_mem_cons.mp closed
    rw [List.append_assoc]
    cases rest with
    | nil =>
      have blank : more.head?.all isSpace = true := by
        rw [List.append_nil, token.last first] at apart
        simpa using apart
      have after' : Scans (i + text.length) ([] ++ more) (tokens ++ others) := by
        refine ih later (.inl rfl) ?_
        simpa using after
      exact .token (token.before first (.inr blank)) after'
    | cons d rest =>
      refine .token (token.before first (.inl rfl)) (ih later ?_ ?_)
      · have some : (text ++ d :: rest).getLast? = (d :: rest).getLast? := by
          rw [List.getLast?_append, List.getLast?_eq_some_getLast (List.cons_ne_nil d rest)]
          rfl
        rw [some] at apart
        exact apart
      · rw [List.length_append, ← Nat.add_assoc] at after
        exact after

lemma cut {i p : Nat} {text : Text} {tokens before after : List Token} (scans : Scans i text tokens)
    (closed : ∀ t ∈ tokens, isClosed t.text = true) (eq : tokens = before ++ after) (ge : i ≤ p)
    (le : p ≤ i + text.length) (ends : ∀ t ∈ before, t.stop ≤ p) (starts : ∀ t ∈ after, p ≤ t.start) :
    ∃ a b, text = a ++ b ∧ i + a.length = p ∧ Scans i a before ∧ Scans p b after := by
  induction scans generalizing before with
  | nil =>
    obtain ⟨rfl, rfl⟩ := List.append_eq_nil_iff.mp eq.symm
    exact ⟨[], [], rfl, by simp at le ⊢; omega, .nil, .nil⟩
  | @space i c rest tokens isSpace inner ih =>
    rcases Nat.eq_or_lt_of_le ge with rfl | lt
    · cases before with
      | nil =>
        subst eq
        exact ⟨[], c :: rest, rfl, rfl, .nil, .space isSpace inner⟩
      | cons t before =>
        have inside := inner.bounds t (by simp [eq])
        have := ends t (by simp)
        omega
    · rw [List.length_cons] at le
      obtain ⟨a, b, rfl, length, first, second⟩ := ih closed eq lt (by omega) ends
      exact ⟨c :: a, b, rfl, by rw [List.length_cons]; omega, .space isSpace first, second⟩
  | @token i type text more tokens token inner ih =>
    cases before with
    | nil =>
      subst eq
      obtain rfl : i = p := Nat.le_antisymm ge (starts _ List.mem_cons_self)
      exact ⟨[], text ++ more, rfl, rfl, .nil, .token token inner⟩
    | cons t before =>
      injection eq with head eq
      subst head
      obtain ⟨first, later⟩ := List.forall_mem_cons.mp closed
      obtain ⟨past, ends⟩ := List.forall_mem_cons.mp ends
      rw [List.length_append] at le
      obtain ⟨a, b, rfl, length, scans, second⟩ := ih later eq past (by omega) ends
      refine ⟨text ++ a, b, by simp, by rw [List.length_append]; omega, .token (token.before first ?_) scans, second⟩
      cases a with
      | nil => exact .inr rfl
      | cons c a => exact .inl rfl

end Scans

/-! ## The place of the item -/

lemma findActiveToken_some {tokens : List Token} {cursor : Int} {k : Nat} (found : findActiveToken tokens cursor = some k) :
    ∃ t, tokens[k]? = some t ∧ t.start ≤ cursor ∧ cursor ≤ t.stop := by
  obtain ⟨lt, touches, -⟩ := List.findIdx?_eq_some_iff_getElem.mp found
  exact ⟨tokens[k], List.getElem?_eq_getElem lt, by simpa using touches⟩

lemma findActiveToken_none {tokens : List Token} {cursor : Int} (missing : findActiveToken tokens cursor = none) :
    ∀ t ∈ tokens, cursor < t.start ∨ t.stop < cursor := by
  intro t mem
  have := List.findIdx?_eq_none_iff.mp missing t mem
  simp only [decide_eq_false_iff_not] at this
  omega

section Place

variable {text : Text} {tokens : List Token} (scans : Scans 0 text tokens)
include scans

lemma around {k : Nat} {t : Token} (mem : tokens[k]? = some t) :
    t.start < t.stop ∧ t.stop ≤ text.length ∧ (∀ t' ∈ tokens.take k, t'.stop ≤ t.start) ∧
      ∀ t' ∈ tokens.drop (k + 1), t.stop ≤ t'.start := by
  obtain ⟨lt, rfl⟩ := List.getElem?_eq_some_iff.mp mem
  have order := List.pairwise_iff_getElem.mp scans.ordered
  have bounds := scans.bounds _ (List.getElem_mem lt)
  refine ⟨by omega, by omega, fun t' mem' => ?_, fun t' mem' => ?_⟩
  · obtain ⟨k', lt', rfl⟩ := List.mem_take_iff_getElem.mp mem'
    exact order k' k (by omega) lt (by omega)
  · obtain ⟨k', lt', rfl⟩ := List.mem_drop_iff_getElem.mp mem'
    exact order k (k + 1 + k') lt (by omega) (by omega)

variable (closed : ∀ t ∈ tokens, isClosed t.text = true)
include closed

lemma cut_at {p n : Nat} (le : p ≤ text.length) (ends : ∀ t ∈ tokens.take n, t.stop ≤ p)
    (starts : ∀ t ∈ tokens.drop n, p ≤ t.start) :
    Scans 0 (text.take p) (tokens.take n) ∧ Scans p (text.drop p) (tokens.drop n) := by
  obtain ⟨a, b, rfl, length, first, second⟩ := scans.cut closed (List.take_append_drop n tokens).symm (Nat.zero_le p)
    (by omega) ends starts
  rw [Nat.zero_add] at length
  rw [← length, List.take_left, List.drop_left, length]
  exact ⟨first, second⟩

lemma cut_span {complete : Text → Int → Completions} {cursor : Int} {action : Action} {ctx : CursorContext}
    {n removed first last : Nat} (eq : tokens = tokenize text) (isCtx : ctx = analyze complete text cursor)
    (isPlace : place tokens ctx action = n)
    (isRemoved : (if action = .replace ∧ ctx.tokenIndex.isSome then 1 else 0) = removed)
    (isSpan : span text.length ctx action = (first, last)) :
    first ≤ last ∧ last ≤ text.length ∧ Scans 0 (text.take first) (tokens.take n) ∧
      Scans last (text.drop last) (tokens.drop (n + removed)) := by
  have index : ctx.tokenIndex = findActiveToken tokens cursor := by
    rw [eq, isCtx]
    rfl
  have isCursor : ctx.cursor = cursor := by
    rw [isCtx]
    rfl
  cases found : findActiveToken tokens cursor with
  | some k =>
    obtain ⟨t, mem, -⟩ := findActiveToken_some found
    have active : ctx.activeToken = t := by
      rw [isCtx]
      change ((findActiveToken (tokenize text) cursor).bind fun i => (tokenize text)[i]?).getD { type := .key } = t
      rw [← eq, found, Option.bind_some, mem, Option.getD_some]
    obtain ⟨some, inside, ends, starts⟩ := around scans mem
    have endsAfter : ∀ t' ∈ tokens.take (k + 1), t'.stop ≤ t.stop := by
      rw [List.take_add_one, mem]
      simp only [List.mem_append, Option.mem_toList]
      rintro t' (mem' | ⟨⟨⟩⟩)
      · exact (ends t' mem').trans some.le
      · exact le_rfl
    have startsAt : ∀ t' ∈ tokens.drop k, t.start ≤ t'.start := by
      rw [List.drop_eq_getElem?_toList_append, mem]
      simp only [List.mem_append, Option.mem_toList]
      rintro t' (⟨⟨⟩⟩ | mem')
      · exact le_rfl
      · exact some.le.trans (starts t' mem')
    obtain ⟨-, after⟩ := cut_at scans closed inside endsAfter starts
    by_cases replaces : action = .replace
    · have isSpan' : span text.length ctx action = (t.start, t.stop) := by
        simp only [span, index, found, active, replaces, Option.isSome_some, and_self, if_true]
        split_ifs <;> simp <;> omega
      cases isSpan.symm.trans isSpan'
      obtain rfl : k = n := by simpa [place, index, found, replaces] using isPlace
      obtain rfl : 1 = removed := by simpa [index, found, replaces] using isRemoved
      obtain ⟨before, -⟩ := cut_at scans closed (some.le.trans inside) ends startsAt
      exact ⟨some.le, inside, before, after⟩
    · have isSpan' : span text.length ctx action = (t.stop, t.stop) := by
        simp only [span, index, found, active, replaces, Option.isSome_some, false_and, if_false, if_true]
        split_ifs <;> simp <;> omega
      cases isSpan.symm.trans isSpan'
      obtain rfl : k + 1 = n := by simpa [place, index, found, replaces] using isPlace
      obtain rfl : 0 = removed := by simpa [replaces] using isRemoved
      obtain ⟨before, -⟩ := cut_at scans closed inside endsAfter starts
      exact ⟨le_rfl, inside, before, after⟩
  | none =>
    have missing := findActiveToken_none found
    obtain rfl : 0 = removed := by simpa [index, found] using isRemoved
    have isPlace : n = (tokens.takeWhile fun t => decide (t.stop < cursor)).length := by
      simp only [← isPlace, place, index, found, isCursor]
    obtain ⟨p, isSpan', le, low, high⟩ : ∃ p : Nat, span text.length ctx action = (p, p) ∧ p ≤ text.length ∧
        (p = 0 ∨ p ≤ cursor) ∧ (p = text.length ∨ cursor ≤ p) := by
      refine ⟨(span text.length ctx action).1, ?_⟩
      simp only [span, index, found, isCursor, Option.isSome_none, Bool.false_eq_true, and_false, if_false]
      split_ifs <;> simp <;> omega
    have split := List.takeWhile_append_dropWhile (p := fun t : Token => decide (t.stop < cursor)) (l := tokens)
    have taken : tokens.take n = tokens.takeWhile fun t => decide (t.stop < cursor) := by
      rw [isPlace]
      nth_rewrite 2 [← split]
      exact List.take_left
    have left : tokens.drop n = tokens.dropWhile fun t => decide (t.stop < cursor) := by
      rw [isPlace]
      nth_rewrite 2 [← split]
      exact List.drop_left
    have ends : ∀ t ∈ tokens.take n, t.stop ≤ p := by
      intro t mem
      have inside := (scans.bounds t (List.mem_of_mem_take mem)).2.2
      rw [taken] at mem
      have less : t.stop < cursor := by simpa using List.mem_takeWhile_imp mem
      omega
    have starts : ∀ t ∈ tokens.drop n, p ≤ t.start := by
      have ordered := scans.ordered.sublist (List.drop_sublist n tokens)
      rcases rest : tokens.drop n with _ | ⟨t, after⟩
      · nofun
      · have mem : t ∈ tokens := List.mem_of_mem_drop (rest ▸ List.mem_cons_self : t ∈ tokens.drop n)
        have notBefore : ¬ t.stop < cursor := by
          have head := List.head?_dropWhile_not (fun t : Token => decide (t.stop < cursor)) tokens
          rw [← left, rest] at head
          simpa using head
        rw [rest, List.pairwise_cons] at ordered
        have inside := scans.bounds t mem
        have here := missing t mem
        refine List.forall_mem_cons.mpr ⟨by omega, fun t' mem' => ?_⟩
        have := ordered.1 t' mem'
        omega
    obtain ⟨before, after⟩ := cut_at scans closed le ends starts
    cases isSpan.symm.trans isSpan'
    exact ⟨le_rfl, le, before, after⟩

end Place

/-! ## The splice -/

lemma isSpace_of_isQueryWhitespace {c : Char} (blank : isQueryWhitespace c = true) : isSpace c = true := by
  simp only [isQueryWhitespace, isSpace, Bool.or_eq_true, decide_eq_true_eq] at blank ⊢
  tauto

lemma closed_of_kinds {tokens tokens' : List Token} (kinds : tokens'.map Token.kind = tokens.map Token.kind)
    (closed : ∀ t ∈ tokens, isClosed t.text = true) : ∀ t ∈ tokens', isClosed t.text = true := by
  intro t mem
  have mem' : t.kind ∈ tokens.map Token.kind := kinds ▸ List.mem_map_of_mem mem
  obtain ⟨t', mem', eq⟩ := List.mem_map.mp mem'
  have same : t'.text = t.text := congrArg Prod.snd eq
  rw [← same]
  exact closed t' mem'

lemma applyCompletion_spec {text : Text} {ctx : CursorContext} {action : Action} (item : Text) {first last : Nat}
    (eq : span text.length ctx action = (first, last)) (inside : first ≤ text.length) :
    ∃ lead trail, applyCompletion text ctx action item =
        EditResult.mk (text.take first ++ (lead ++ item ++ trail) ++ text.drop last) (first + (lead ++ item ++ trail).length) ∧
      (lead = [' '] ∨ lead = [] ∧ (text.take first).getLast?.all isSpace = true) ∧
      (trail = [' '] ∨ trail = [] ∧ (text.drop last).head?.all isSpace = true) := by
  refine ⟨_, _, by simp only [applyCompletion, eq]; rfl, ?_, ?_⟩
  · split
    · exact .inl rfl
    · rename_i noLead
      refine .inr ⟨rfl, ?_⟩
      rcases Nat.eq_zero_or_pos first with rfl | some
      · simp
      · have blank : ¬ (text[first - 1]?).all (!isQueryWhitespace ·) = true := fun holds => noLead ⟨some, holds⟩
        have inText : first - 1 < text.length := by omega
        rw [List.getElem?_eq_getElem inText, Option.all_some, Bool.not_eq_true, Bool.not_eq_false'] at blank
        rw [List.getLast?_take, if_neg (by omega), List.getElem?_eq_getElem inText]
        exact isSpace_of_isQueryWhitespace blank
  · split
    · exact .inl rfl
    · rename_i noTrail
      refine .inr ⟨rfl, ?_⟩
      simp only [Bool.or_eq_true, not_or] at noTrail
      rw [List.head?_drop]
      cases next : text[last]? with
      | none => rfl
      | some c =>
        rw [next, Option.all_some] at noTrail
        exact isSpace_of_isQueryWhitespace (by simpa using noTrail.2)

lemma scans_piece {a b item lead trail : Text} {before after tokens : List Token} {last : Nat} (first : Scans 0 a before)
    (second : Scans last b after) (alone : Scans 0 item tokens) (closedBefore : ∀ t ∈ before, isClosed t.text = true)
    (closedItem : ∀ t ∈ tokens, isClosed t.text = true) (isLead : lead = [' '] ∨ lead = [] ∧ a.getLast?.all isSpace = true)
    (isTrail : trail = [' '] ∨ trail = [] ∧ b.head?.all isSpace = true) :
    ∃ shifted after', Scans 0 (a ++ (lead ++ item ++ trail) ++ b) (before ++ shifted ++ after') ∧
      shifted.map Token.kind = tokens.map Token.kind ∧ after'.map Token.kind = after.map Token.kind ∧
      ∀ t ∈ after', a.length + (lead ++ item ++ trail).length ≤ t.start := by
  obtain ⟨after', scansAfter, kindsAfter⟩ := second.shift (a.length + (lead ++ item ++ trail).length)
  obtain ⟨shifted, scansItem, kinds⟩ := alone.shift (a.length + lead.length)
  refine ⟨shifted, after', ?_, kinds, kindsAfter, fun t mem => (scansAfter.bounds t mem).1⟩
  have tail : Scans (a.length + lead.length + item.length) (trail ++ b) after' := by
    rcases isTrail with rfl | ⟨rfl, -⟩
    · refine .space rfl ?_
      simpa [Nat.add_assoc] using scansAfter
    · simpa [Nat.add_assoc] using scansAfter
  have blank : (trail ++ b).head?.all isSpace = true := by
    rcases isTrail with rfl | ⟨rfl, space⟩
    · rfl
    · exact space
  have inner := scansItem.append (closed_of_kinds kinds closedItem) (.inr blank) tail
  have outer : Scans (0 + a.length) (lead ++ (item ++ (trail ++ b))) (shifted ++ after') := by
    rw [Nat.zero_add]
    rcases isLead with rfl | ⟨rfl, -⟩
    · exact .space rfl inner
    · exact inner
  have apart : a.getLast?.all isSpace = true ∨ (lead ++ (item ++ (trail ++ b))).head?.all isSpace = true := by
    rcases isLead with rfl | ⟨rfl, space⟩
    · exact .inr rfl
    · exact .inl space
  have whole := first.append closedBefore apart outer
  simpa using whole

end PjCloud.Query
