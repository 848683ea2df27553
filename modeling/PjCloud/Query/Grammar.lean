import PjCloud.Query.Parser

/-!
# The grammar of queries

What a query is, apart from the parser: clauses under `not`, joined by `and` and `or`, where a value alone repeats the
last key and operator. The parser finds every sentence, with the tree that spells all of its tokens, and reports nothing
else complete unless it has recovered from something.
-/

namespace PjCloud.Query

abbrev Last := Option (Token × Token)

/-- The tokens that a function of the parser should take, the tree that they spell, and the last key and operator before
and after them. -/
inductive Sentence : Level → Last → List Token → Expr → Last → Prop where
  | chain {c last tokens left last' more e last''} : Sentence c.operand last tokens left last' →
    Sentence (.rest c left) last' more e last'' → Sentence (.chain c) last (tokens ++ more) e last''
  | done {c left last} : Sentence (.rest c left) last [] left last
  | more {c left last t tokens right last' more e last''} : t.type = c.type →
    Sentence c.operand last tokens right last' → Sentence (.rest c (.binary left t right)) last' more e last'' →
    Sentence (.rest c left) last (t :: tokens ++ more) e last''
  | not {last t tokens e last'} : t.type = .not → Sentence .unary last tokens e last' →
    Sentence .unary last (t :: tokens) (.not t e) last'
  | plain {last tokens e last'} : Sentence .primary last tokens e last' → Sentence .unary last tokens e last'
  | group {last t tokens close e last'} : t.type = .openParen → close.type = .closeParen →
    Sentence (.chain .or) last tokens e last' → Sentence .primary last (t :: tokens ++ [close]) (.group t e close) last'
  | compare {last key op v} : key.type = .key → op.type = .operator → v.type = .value →
    Sentence .primary last [key, op, v] (.compare key op v) (some (key, op))
  | shorthand {key op v} : v.type = .value → Sentence .primary (some (key, op)) [v] (.compare key op v) (some (key, op))

def TokenType.starts : TokenType → Bool
  | key | value | not | openParen => true
  | _ => false

def TokenType.joins : TokenType → Bool
  | and | or | not | openParen => true
  | _ => false

def starts (tokens : List Token) : Bool := tokens.head?.any fun t => t.type.starts

def joined : List Token → Bool
  | [] => true
  | t :: rest => (!t.type.joins || starts rest) && joined rest

def count (type : TokenType) (tokens : List Token) : Nat := tokens.countP fun t => decide (t.type = type)

def finished (tokens : List Token) : Bool :=
  starts tokens && joined tokens && decide (count .openParen tokens = count .closeParen tokens)

/-- Every key has a text. -/
def Named (tokens : List Token) : Prop := ∀ t ∈ tokens, t.type = .key → t.text ≠ []

/-! ## Sentences -/

lemma Sentence.starts {level : Level} {last last' : Last} {tokens : List Token} {e : Expr}
    (sentence : Sentence level last tokens e last') : (∃ c left, level = .rest c left) ∨ Query.starts tokens = true := by
  induction sentence with
  | @chain c _ tokens _ _ _ _ _ _ _ ih =>
    refine .inr ?_
    rcases ih with ⟨_, _, impossible⟩ | first
    · cases c <;> cases impossible
    · cases tokens with
      | nil => simp [Query.starts] at first
      | cons t rest => exact first
  | done | more => exact .inl ⟨_, _, rfl⟩
  | not isNot => exact .inr (by simp [Query.starts, isNot, TokenType.starts])
  | plain _ ih => exact ih.imp (fun ⟨_, _, impossible⟩ => nomatch impossible) id
  | group opens => exact .inr (by simp [Query.starts, opens, TokenType.starts])
  | compare isKey => exact .inr (by simp [Query.starts, isKey, TokenType.starts])
  | shorthand isValue => exact .inr (by simp [Query.starts, isValue, TokenType.starts])

lemma starts_operand {c : Connective} {last last' : Last} {tokens : List Token} {e : Expr}
    (sentence : Sentence c.operand last tokens e last') : starts tokens = true := by
  rcases sentence.starts with ⟨_, _, impossible⟩ | first
  · cases c <;> cases impossible
  · exact first

lemma Sentence.balanced {level : Level} {last last' : Last} {tokens : List Token} {e : Expr}
    (sentence : Sentence level last tokens e last') : count .openParen tokens = count .closeParen tokens := by
  induction sentence with
  | chain _ _ ih ih' => simp_all [count]
  | done => rfl
  | @more c _ _ t _ _ _ _ _ _ isConnective _ _ ih ih' =>
    cases c <;> simp_all [count, Connective.type]
  | not isNot _ ih => simp_all [count]
  | plain _ ih => exact ih
  | group opens closes _ ih => simp_all [count]
  | compare isKey isOp isValue => simp [count, isKey, isOp, isValue]
  | shorthand isValue => simp [count, isValue]

lemma starts_append {tokens : List Token} (first : starts tokens = true) (more : List Token) :
    starts (tokens ++ more) = true := by
  cases tokens with
  | nil => simp [starts] at first
  | cons t rest => exact first

/-- Tokens end in something that nothing has to follow, so what follows may be anything. -/
lemma Sentence.joined {level : Level} {last last' : Last} {tokens : List Token} {e : Expr}
    (sentence : Sentence level last tokens e last') : ∀ {more : List Token}, Query.joined more = true →
      Query.joined (tokens ++ more) = true := by
  induction sentence with
  | chain _ _ ih ih' =>
    intro more isJoined
    rw [List.append_assoc]
    exact ih (ih' isJoined)
  | done => exact id
  | @more c _ _ t tokens _ _ _ _ _ isConnective operand _ ih ih' =>
    intro more isJoined
    rw [List.cons_append, List.cons_append, List.append_assoc, Query.joined]
    simp [ih (ih' isJoined), starts_append (starts_operand operand)]
  | not _ operand ih =>
    intro more isJoined
    have first := operand.starts.resolve_left (by simp)
    simp [Query.joined, ih isJoined, starts_append first]
  | plain _ ih => exact ih
  | @group _ t tokens close _ _ opens closes inner ih =>
    intro more isJoined
    have first := inner.starts.resolve_left (by simp)
    have after : Query.joined (close :: more) = true := by simp [Query.joined, closes, TokenType.joins, isJoined]
    have := ih after
    simp_all [Query.joined, starts_append first]
  | compare isKey isOp isValue =>
    intro more isJoined
    simp [Query.joined, isKey, isOp, isValue, TokenType.joins, isJoined]
  | shorthand isValue =>
    intro more isJoined
    simp [Query.joined, isValue, TokenType.joins, isJoined]

lemma Sentence.finished {last last' : Last} {tokens : List Token} {e : Expr}
    (sentence : Sentence (.chain .or) last tokens e last') : Query.finished tokens = true := by
  have first := sentence.starts.resolve_left (by simp)
  have isJoined : Query.joined (tokens ++ []) = true := sentence.joined rfl
  rw [List.append_nil] at isJoined
  simp [Query.finished, first, isJoined, sentence.balanced]

lemma Sentence.knows {level : Level} {last last' : Last} {tokens : List Token} {e : Expr}
    (sentence : Sentence level last tokens e last') :
    ((∃ c left, level = .rest c left) → last ≠ none) → last' ≠ none := by
  induction sentence with
  | @chain c _ _ _ _ _ _ _ _ _ ih ih' =>
    intro _
    exact ih' fun _ => ih fun ⟨_, _, impossible⟩ => by cases c <;> cases impossible
  | done => exact fun known => known ⟨_, _, rfl⟩
  | @more c _ _ _ _ _ _ _ _ _ _ _ _ ih ih' =>
    intro _
    exact ih' fun _ => ih fun ⟨_, _, impossible⟩ => by cases c <;> cases impossible
  | not _ _ ih | plain _ ih => exact fun _ => ih (by simp)
  | group _ _ _ ih => exact fun _ => ih (by simp)
  | compare | shorthand => simp

lemma Sentence.complete {level : Level} {last last' : Last} {tokens : List Token} {e : Expr}
    (sentence : Sentence level last tokens e last') :
    (∀ c left, level = .rest c left → left.checkComplete = true) → e.checkComplete = true := by
  induction sentence with
  | @chain c _ _ _ _ _ _ _ _ _ ih ih' =>
    intro _
    apply ih'
    rintro _ _ ⟨⟩
    exact ih fun _ _ impossible => by cases c <;> cases impossible
  | done => exact fun complete => complete _ _ rfl
  | @more c _ _ _ _ _ _ _ _ _ _ _ _ ih ih' =>
    intro complete
    apply ih'
    rintro _ _ ⟨⟩
    rw [Expr.checkComplete, complete _ _ rfl, Bool.true_and]
    exact ih fun _ _ impossible => by cases c <;> cases impossible
  | not _ _ ih | plain _ ih => exact fun _ => ih (by simp)
  | group _ _ _ ih => exact fun _ => ih (by simp)
  | compare | shorthand => exact fun _ => rfl

/-! ## The parser finds every sentence -/

def Parser.last (p : Parser) : Last := if p.lastKey.text = [] then none else some (p.lastKey, p.lastOp)

/-- A function of the parser would not go on with these tokens. -/
def Level.halts (tokens : List Token) : Level → Prop
  | .chain .or | .rest .or _ => ¬ headIs tokens .or ∧ ¬ headIs tokens .and
  | .chain .and | .rest .and _ => ¬ headIs tokens .and
  | .unary | .primary => True

lemma Sentence.halts_operand {c : Connective} {left e : Expr} {last last' : Last} {tokens more : List Token}
    (sentence : Sentence (.rest c left) last tokens e last') (halts : (Level.rest c left).halts more) :
    c.operand.halts (tokens ++ more) := by
  cases sentence with
  | done => cases c <;> simp_all [Level.halts, Connective.operand]
  | more isConnective => cases c <;> simp_all [Level.halts, Connective.operand, Connective.type]

lemma Sentence.not_headIs_not {last last' : Last} {tokens : List Token} {e : Expr}
    (sentence : Sentence .primary last tokens e last') (more : List Token) : ¬ headIs (tokens ++ more) .not := by
  cases sentence <;> simp_all

lemma Named.left {tokens more : List Token} (named : Named (tokens ++ more)) : Named tokens :=
  fun t mem => named t (List.mem_append_left _ mem)

lemma Named.right {tokens more : List Token} (named : Named (tokens ++ more)) : Named more :=
  fun t mem => named t (List.mem_append_right _ mem)

lemma Named.tail {t : Token} {tokens : List Token} (named : Named (t :: tokens)) : Named tokens :=
  fun t mem => named t (List.mem_cons_of_mem _ mem)

lemma Sentence.reads {level : Level} {last last' : Last} {tokens : List Token} {e : Expr}
    (sentence : Sentence level last tokens e last') :
    ∀ {p : Parser} {more : List Token}, Named tokens → p.tokens = tokens ++ more → p.last = last → level.halts more →
      ∃ q, Reads level p (some e) q ∧ q.tokens = more ∧ q.last = last' := by
  induction sentence with
  | @chain c last tokens left last' others e last'' _ rest ih ih' =>
    intro p more named eq knows halts
    obtain ⟨q, reads, after, known⟩ := ih named.left (eq.trans (List.append_assoc ..)) knows
      (rest.halts_operand (by cases c <;> exact halts))
    obtain ⟨r, reads', after', known'⟩ := ih' named.right after known (by cases c <;> exact halts)
    exact ⟨r, .chain reads reads', after', known'⟩
  | @done c left last =>
    intro p more _ eq knows halts
    refine ⟨p, .stop ?_, eq, knows⟩
    rw [eq, List.nil_append]
    cases c <;> simp_all [Level.halts, Connective.type]
  | @more c left last t tokens right last' others e last'' isConnective _ rest ih ih' =>
    intro p more named eq knows halts
    have eq' : p.tokens = t :: (tokens ++ (others ++ more)) := by simp [eq]
    obtain ⟨q, reads, after, known⟩ := @ih { p with tokens := tokens ++ (others ++ more) } _
      named.left.tail rfl knows (rest.halts_operand (by cases c <;> exact halts))
    obtain ⟨r, reads', after', known'⟩ := ih' named.right after known (by cases c <;> exact halts)
    exact ⟨r, .more eq' isConnective reads reads', after', known'⟩
  | @not last t tokens e last' isNot _ ih =>
    intro p more named eq knows _
    obtain ⟨q, reads, after, known⟩ := @ih { p with tokens := tokens ++ more } _
      named.tail rfl knows trivial
    exact ⟨q, .not eq isNot reads, after, known⟩
  | @plain last tokens e last' primary ih =>
    intro p more named eq knows _
    obtain ⟨q, reads, after, known⟩ := ih named eq knows trivial
    exact ⟨q, .plain (eq ▸ primary.not_headIs_not more) reads, after, known⟩
  | @group last t tokens close e last' opens closes _ ih =>
    intro p more named eq knows _
    have eq' : p.tokens = t :: (tokens ++ close :: more) := by simp [eq]
    obtain ⟨q, reads, after, known⟩ := @ih { p with tokens := tokens ++ close :: more } (close :: more)
      named.left.tail rfl knows (by simp [Level.halts, closes])
    exact ⟨{ q with tokens := more }, .group eq' opens reads after closes, rfl, known⟩
  | @compare last key op v isKey isOp isValue =>
    intro p more named eq _ _
    have hasText : key.text ≠ [] := named key (by simp) isKey
    exact ⟨{ tokens := more, lastKey := key, lastOp := op }, .compare eq isKey isOp isValue, rfl, by
      simp [Parser.last, hasText]⟩
  | @shorthand key op v isValue =>
    intro p more _ eq knows _
    have known := knows
    unfold Parser.last at known
    split at known
    · cases known
    · rename_i hasText
      cases known
      exact ⟨{ p with tokens := more }, .shorthand eq isValue hasText, rfl, knows⟩

/-! ## What the parser reports complete -/

/-- Where the functions of the parser are called in a list of tokens that needs no recovery. -/
def Level.ready (p : Parser) : Level → Prop
  | .chain _ | .unary => starts p.tokens = true
  | .primary => starts p.tokens = true ∧ ¬ headIs p.tokens .not
  | .rest c _ => p.last ≠ none ∧ (c = .or → ¬ headIs p.tokens .and)

lemma ready_operand {p : Parser} {c : Connective} (first : starts p.tokens = true) : c.operand.ready p := by
  cases c <;> exact first

lemma Reads.keeps {level : Level} {p q : Parser} {found : Option Expr} (reads : Reads level p found q) :
    ∀ c left, level = .rest c left → ∃ e, found = some e ∧ (e.checkComplete = true → left.checkComplete = true) := by
  induction reads with
  | @chainNone c | @chain c => nofun
  | stop =>
    rintro _ _ ⟨⟩
    exact ⟨_, rfl, id⟩
  | dangling =>
    rintro _ _ ⟨⟩
    exact ⟨_, rfl, id⟩
  | more _ _ _ _ _ ih =>
    rintro _ _ ⟨⟩
    obtain ⟨e, eq, complete⟩ := ih _ _ rfl
    refine ⟨e, eq, fun all => ?_⟩
    have both := complete all
    rw [Expr.checkComplete, Bool.and_eq_true] at both
    exact both.1
  | _ => nofun

lemma Reads.unknown {level : Level} {p q : Parser} {found : Option Expr} (reads : Reads level p found q) :
    found = none → joined p.tokens = true → level.ready p → p.last = none := by
  induction reads with
  | chainNone _ ih => exact fun _ isJoined ready => ih rfl isJoined (ready_operand ready)
  | chain _ rest _ _ =>
    rintro rfl
    obtain ⟨_, impossible, _⟩ := rest.keeps _ _ rfl
    cases impossible
  | stop | dangling => nofun
  | more _ _ _ rest _ _ =>
    rintro rfl
    obtain ⟨_, impossible, _⟩ := rest.keeps _ _ rfl
    cases impossible
  | @notNone p t rest q tokens isNot _ ih =>
    intro _ isJoined _
    simp only [tokens, joined, isNot, TokenType.joins, Bool.not_true, Bool.false_or, Bool.and_eq_true] at isJoined
    exact ih rfl isJoined.2 isJoined.1
  | not => nofun
  | plain other _ ih => exact fun none isJoined ready => ih none isJoined ⟨ready, other⟩
  | nothing tokens =>
    intro _ _ ready
    simp [Level.ready, tokens, starts] at ready
  | @unclosed p t rest inner q tokens opens _ _ ih =>
    intro none isJoined _
    simp only [tokens, joined, opens, TokenType.joins, Bool.not_true, Bool.false_or, Bool.and_eq_true] at isJoined
    exact ih none isJoined.2 isJoined.1
  | emptyGroup | group | shorthand | compare | keyOp | key => nofun
  | @skip p t rest tokens opens isKey unknown =>
    intro _ _ ready
    simp only [Level.ready, tokens, starts, headIs_cons] at ready
    have isValue : t.type = .value := by
      cases type : t.type <;> simp_all [TokenType.starts]
    simp [Parser.last, unknown isValue]

/-- A group was not closed: then no function of the parser goes on with what is left. -/
def Broken (used left : List Token) : Prop :=
  count .closeParen used < count .openParen used ∧ ¬ headIs left .and ∧ ¬ headIs left .or ∧ ¬ headIs left .closeParen

lemma Broken.stops {used left : List Token} (broken : Broken used left) (c : Connective) : ¬ headIs left c.type := by
  cases c
  · exact broken.2.1
  · exact broken.2.2.1

lemma Reads.stops {c : Connective} {left : Expr} {p q : Parser} {found : Option Expr}
    (reads : Reads (.rest c left) p found q) (stops : ¬ headIs p.tokens c.type) : found = some left ∧ q = p := by
  cases reads with
  | stop => exact ⟨rfl, rfl⟩
  | dangling tokens isConnective => exact absurd (by simpa [tokens] using isConnective) stops
  | more tokens isConnective => exact absurd (by simpa [tokens] using isConnective) stops

lemma count_append (type : TokenType) (tokens more : List Token) :
    count type (tokens ++ more) = count type tokens + count type more := List.countP_append

lemma count_cons (type : TokenType) (t : Token) (tokens : List Token) :
    count type (t :: tokens) = count type tokens + if t.type = type then 1 else 0 := by
  simp [count, List.countP_cons]

lemma joined_tail {t : Token} {tokens : List Token} (isJoined : joined (t :: tokens) = true) : joined tokens = true := by
  rw [joined, Bool.and_eq_true] at isJoined
  exact isJoined.2

lemma joined_right {tokens more : List Token} (isJoined : joined (tokens ++ more) = true) : joined more = true := by
  induction tokens with
  | nil => exact isJoined
  | cons t tokens ih => exact ih (joined_tail isJoined)

lemma starts_of_joined {t : Token} {tokens : List Token} (isJoined : joined (t :: tokens) = true)
    (joins : t.type.joins = true) : starts tokens = true := by
  rw [joined, joins, Bool.and_eq_true] at isJoined
  exact isJoined.1

lemma after_operand {c : Connective} {left right e : Expr} {p q r : Parser} (isJoined : joined p.tokens = true)
    (named : Named p.tokens) (rest : Reads (.rest c left) q (some e) r)
    (operand : ∃ used, p.tokens = used ++ q.tokens ∧
      (Sentence c.operand p.last used right q.last ∧ c.operand.halts q.tokens ∨ Broken used q.tokens))
    (loop : joined q.tokens = true → Named q.tokens → (Level.rest c left).ready q → ∃ used, q.tokens = used ++ r.tokens ∧
      (Sentence (.rest c left) q.last used e r.last ∧ (Level.rest c left).halts r.tokens ∨ Broken used r.tokens)) :
    ∃ used more, p.tokens = used ++ more ++ r.tokens ∧
      (Sentence c.operand p.last used right q.last ∧ Sentence (.rest c left) q.last more e r.last ∧
        (Level.rest c left).halts r.tokens ∨ Broken (used ++ more) r.tokens) := by
  obtain ⟨used, eq, ⟨sentence, halts⟩ | broken⟩ := operand
  · rw [eq] at isJoined named
    have known : q.last ≠ none := sentence.knows fun ⟨_, _, impossible⟩ => by cases c <;> cases impossible
    obtain ⟨more, eq', ends⟩ := loop (joined_right isJoined) named.right ⟨known, by rintro rfl; exact halts⟩
    refine ⟨used, more, by rw [eq, eq', List.append_assoc], ?_⟩
    rcases ends with ⟨sentence', halts'⟩ | broken
    · exact .inl ⟨sentence, sentence', halts'⟩
    · refine .inr ⟨?_, broken.2⟩
      rw [count_append, count_append, sentence.balanced]
      exact Nat.add_lt_add_left broken.1 _
  · obtain ⟨_, rfl⟩ := rest.stops (broken.stops c)
    exact ⟨used, [], by simpa using eq, .inr (by simpa using broken)⟩

lemma Reads.sentence {level : Level} {p q : Parser} {found : Option Expr} (reads : Reads level p found q) :
    ∀ {e : Expr}, found = some e → e.checkComplete = true → joined p.tokens = true → Named p.tokens → level.ready p →
      ∃ used, p.tokens = used ++ q.tokens ∧
        (Sentence level p.last used e q.last ∧ level.halts q.tokens ∨ Broken used q.tokens) := by
  induction reads with
  | chainNone | notNone | nothing | skip => nofun
  | @chain c p left q found r _ rest ih ih' =>
    rintro e rfl complete isJoined named ready
    obtain ⟨_, ⟨⟩, keeps⟩ := rest.keeps _ _ rfl
    obtain ⟨used, more, eq, ends⟩ := after_operand isJoined named rest
      (ih rfl (keeps complete) isJoined named (ready_operand ready)) (ih' rfl complete)
    refine ⟨used ++ more, eq, ends.imp (fun ⟨operand, loop, halts⟩ => ⟨.chain operand loop, ?_⟩) id⟩
    cases c <;> exact halts
  | @stop c left p other =>
    rintro _ ⟨⟩ _ _ _ ready
    refine ⟨[], rfl, .inl ⟨.done, ?_⟩⟩
    cases c with
    | and => exact other
    | or => exact ⟨other, ready.2 rfl⟩
  | @dangling c left p t rest q tokens isConnective operand _ =>
    -- after a full expression a key is known, so the operand was found
    rintro _ ⟨⟩ _ isJoined _ ready
    rw [tokens] at isJoined
    have joins : t.type.joins = true := by cases c <;> rw [isConnective] <;> rfl
    exact absurd (operand.unknown rfl (joined_tail isJoined) (ready_operand (starts_of_joined isJoined joins))) ready.1
  | @more c left p t rest right q found r tokens isConnective _ loop ih ih' =>
    rintro e rfl complete isJoined named ready
    rw [tokens] at isJoined named
    have joins : t.type.joins = true := by cases c <;> rw [isConnective] <;> rfl
    obtain ⟨_, ⟨⟩, keeps⟩ := loop.keeps _ _ rfl
    have both := keeps complete
    rw [Expr.checkComplete, Bool.and_eq_true] at both
    obtain ⟨used, others, eq, ends⟩ := @after_operand c _ right e { p with tokens := rest } q r (joined_tail isJoined)
      named.tail loop (ih rfl both.2 (joined_tail isJoined) named.tail (ready_operand (starts_of_joined isJoined joins)))
      (ih' rfl complete)
    refine ⟨t :: used ++ others, by rw [tokens, List.cons_append, List.cons_append, ← eq], ?_⟩
    rcases ends with ⟨operand, loop, halts⟩ | broken
    · exact .inl ⟨.more isConnective operand loop, by cases c <;> exact halts⟩
    · have less := broken.1
      refine .inr ⟨?_, broken.2⟩
      rw [List.cons_append, count_cons, count_cons]
      cases c <;> simp [isConnective, Connective.type, less]
  | @not p t rest operand q tokens isNot _ ih =>
    rintro _ ⟨⟩ complete isJoined named _
    rw [tokens] at isJoined named
    obtain ⟨used, eq, ends⟩ := ih rfl complete (joined_tail isJoined) named.tail
      (starts_of_joined isJoined (by rw [isNot]; rfl))
    refine ⟨t :: used, by rw [tokens, List.cons_append, ← eq], ends.imp (fun ⟨inner, _⟩ => ⟨.not isNot inner, trivial⟩)
      fun broken => ⟨?_, broken.2⟩⟩
    simpa [count_cons, isNot] using broken.1
  | plain other _ ih =>
    intro e eq complete isJoined named ready
    obtain ⟨used, tokens, ends⟩ := ih eq complete isJoined named ⟨ready, other⟩
    exact ⟨used, tokens, ends.imp (fun ⟨inner, _⟩ => ⟨.plain inner, trivial⟩) id⟩
  | emptyGroup =>
    rintro _ ⟨⟩
    nofun
  | @group p t rest inner q close left tokens opens _ after closes ih =>
    rintro _ ⟨⟩ complete isJoined named _
    rw [tokens] at isJoined named
    obtain ⟨used, eq, ⟨sentence, _⟩ | broken⟩ := ih rfl complete (joined_tail isJoined) named.tail
      (starts_of_joined isJoined (by rw [opens]; rfl))
    · refine ⟨t :: used ++ [close], ?_, .inl ⟨.group opens closes sentence, trivial⟩⟩
      have eq : rest = used ++ close :: left := after ▸ eq
      simp [tokens, eq]
    · exact absurd (by simpa [after] using closes) broken.2.2.2
  | @unclosed p t rest inner q tokens opens _ other ih =>
    intro e eq complete isJoined named _
    rw [tokens] at isJoined named
    obtain ⟨used, eq', ends⟩ := ih eq complete (joined_tail isJoined) named.tail
      (starts_of_joined isJoined (by rw [opens]; rfl))
    refine ⟨t :: used, by rw [tokens, List.cons_append, ← eq'], .inr ?_⟩
    rcases ends with ⟨sentence, halts⟩ | broken
    · exact ⟨by simp [count_cons, opens, sentence.balanced], halts.2, halts.1, other⟩
    · exact ⟨by simpa [count_cons, opens] using broken.1.trans (Nat.lt_succ_self _), broken.2⟩
  | @shorthand p t rest tokens isValue known =>
    rintro _ ⟨⟩ _ _ _ _
    refine ⟨[t], tokens, .inl ⟨?_, trivial⟩⟩
    simpa [Parser.last, known] using Sentence.shorthand isValue
  | @compare p t op v rest tokens isKey isOp isValue =>
    rintro _ ⟨⟩ _ _ named _
    have hasText : t.text ≠ [] := named t (by simp [tokens]) isKey
    refine ⟨[t, op, v], tokens, .inl ⟨?_, trivial⟩⟩
    simpa [Parser.last, hasText] using Sentence.compare isKey isOp isValue
  | keyOp | key =>
    rintro _ ⟨⟩
    nofun

lemma parse_eq {tokens : List Token} {found : Option Expr} {q : Parser} (some : tokens ≠ [])
    (reads : Reads (.chain .or) { tokens } found q) : parse tokens =
      { ast := found
        complete := found.any Expr.checkComplete && decide (q.tokens = [])
        error := if q.tokens = [] then "" else "unexpected tokens" } := by
  have run : parseAt (4 * tokens.length + 4) (.chain .or) { tokens } = (found, q) := reads.parseAt le_rfl
  simp [parse, some, run]

lemma exists_reads (tokens : List Token) : ∃ found q, Reads (.chain .or) { tokens } found q :=
  ⟨_, _, reads_parseAt (le_refl (Level.need tokens.length (.chain .or)))⟩

lemma parse_sentence {tokens : List Token} {e : Expr} {last : Last} (named : Named tokens)
    (sentence : Sentence (.chain .or) none tokens e last) :
    parse tokens = { ast := some e, complete := true, error := "" } := by
  have first := sentence.starts.resolve_left (by simp)
  obtain ⟨q, reads, after, -⟩ := @Sentence.reads _ _ _ _ _ sentence { tokens } [] named (by simp) rfl (by simp [Level.halts])
  rw [parse_eq (by rintro rfl; cases first) reads]
  simp [after, sentence.complete (by simp)]

/-- The parser reports every sentence complete, with the tree that spells it. Of the lists of tokens that need no
recovery it reports nothing else complete. -/
theorem complete_iff_sentence {tokens : List Token} (named : Named tokens) :
    (∀ e last, Sentence (.chain .or) none tokens e last →
      finished tokens = true ∧ parse tokens = { ast := some e, complete := true, error := "" }) ∧
    (finished tokens = true → (parse tokens).complete = true →
      ∃ e last, (parse tokens).ast = some e ∧ Sentence (.chain .or) none tokens e last) := by
  refine ⟨fun e last sentence => ⟨sentence.finished, parse_sentence named sentence⟩, fun isFinished complete => ?_⟩
  simp only [finished, Bool.and_eq_true, decide_eq_true_eq] at isFinished
  obtain ⟨⟨first, isJoined⟩, balanced⟩ := isFinished
  obtain ⟨found, q, reads⟩ := exists_reads tokens
  rw [parse_eq (by rintro rfl; cases first) reads] at complete ⊢
  simp only [Bool.and_eq_true, decide_eq_true_eq, Option.any_eq_true] at complete
  obtain ⟨⟨e, rfl, full⟩, empty⟩ := complete
  obtain ⟨used, eq, ends⟩ := reads.sentence rfl full isJoined named first
  obtain rfl : tokens = used := by simpa [empty] using eq
  rcases ends with ⟨sentence, -⟩ | broken
  · exact ⟨e, q.last, rfl, sentence⟩
  · exact absurd broken.1 (by rw [balanced]; exact lt_irrefl _)

lemma Scans.named {i : Nat} {source : Text} {tokens : List Token} (scans : Scans i source tokens) : Named tokens := by
  induction scans with
  | nil => exact fun _ mem => nomatch mem
  | space _ _ ih => exact ih
  | token token _ ih =>
    intro t mem isKey
    rcases List.mem_cons.mp mem with rfl | mem
    · exact token.ne_nil
    · exact ih t mem isKey

lemma named_tokenize (source : Text) : Named (tokenize source) := (scans_tokenize source).named

theorem shorthand_is_sentence : Named (tokenize "robot == \"a\" or \"b\"".toList) ∧ ∃ e last,
    (parse (tokenize "robot == \"a\" or \"b\"".toList)).ast = some e ∧
      Sentence (.chain .or) none (tokenize "robot == \"a\" or \"b\"".toList) e last :=
  ⟨named_tokenize _, (complete_iff_sentence (named_tokenize _)).2 (by decide +kernel) (by decide +kernel)⟩

/-- A connective without an operand is dropped from the tree of a query that is reported complete. -/
theorem dangling_connective_is_complete : (parse (tokenize "a == \"1\" or".toList)).complete = true ∧
    ¬ ∃ e last, Sentence (.chain .or) none (tokenize "a == \"1\" or".toList) e last := by
  refine ⟨by decide +kernel, fun ⟨e, last, sentence⟩ => ?_⟩
  exact absurd sentence.finished (by decide +kernel)

end PjCloud.Query
