import PjCloud.Lib.Lua.Lexer

/-!
# Lua expressions

The parser of Lua 5.4 for the words that are read, with its priorities, and the meaning of what it finds.
-/

namespace PjCloud.Lib.Lua

inductive Exp where
  | const (v : Value)
  | var (name : List Char)
  | not (e : Exp)
  | binary (op : Op) (left right : Exp)
  deriving DecidableEq

/-! ## The parser -/

/-- The operators here all associate to the left: the priority is the same on both sides. -/
def Op.priority : Op → Nat
  | eq | ne | lt | gt | le | ge => 3
  | bxor => 5
  | and => 2
  | or => 1

/-- `not` and the minus bind tighter than any of them. -/
def unaryPriority : Nat := 12

/-- `subexpr` with its limit, and its loop with what it has read so far. -/
inductive Goal where
  | sub (limit : Nat)
  | climb (limit : Nat) (left : Exp)

/-- A call, which is not read, would start here. -/
def calls : List Token → Bool
  | .lparen :: _ | .string _ :: _ => true
  | _ => false

def parseExp : Nat → Goal → List Token → Option (Exp × List Token)
  | 0, _, _ => none
  | fuel + 1, .sub limit, tokens =>
    match tokens with
    | .not :: rest =>
      match parseExp fuel (.sub unaryPriority) rest with
      | none => none
      | some (e, rest) => parseExp fuel (.climb limit (.not e)) rest
    | .minus :: .number n :: rest => parseExp fuel (.climb limit (.const (.number n.neg))) rest
    | .number n :: rest => parseExp fuel (.climb limit (.const (.number n))) rest
    | .string s :: rest => parseExp fuel (.climb limit (.const (.string s))) rest
    | .nil :: rest => parseExp fuel (.climb limit (.const .nil)) rest
    | .true :: rest => parseExp fuel (.climb limit (.const (.bool true))) rest
    | .false :: rest => parseExp fuel (.climb limit (.const (.bool false))) rest
    | .name s :: rest => if calls rest then none else parseExp fuel (.climb limit (.var s)) rest
    | .lparen :: rest =>
      match parseExp fuel (.sub 0) rest with
      | some (e, .rparen :: rest) => if calls rest then none else parseExp fuel (.climb limit e) rest
      | _ => none
    | _ => none
  | fuel + 1, .climb limit left, tokens =>
    match tokens with
    | .op op :: rest =>
      if limit < op.priority then
        match parseExp fuel (.sub op.priority) rest with
        | none => none
        | some (right, rest) => parseExp fuel (.climb limit (.binary op left right)) rest
      else some (left, .op op :: rest)
    | tokens => some (left, tokens)

/-- The loop with this limit does not go on. -/
def Stops (limit : Nat) (tokens : List Token) : Prop := ∀ op, tokens.head? = some (.op op) → op.priority ≤ limit

lemma stops_rparen {limit : Nat} {rest : List Token} : Stops limit (.rparen :: rest) := nofun

/-- What the parser finds, and what it leaves. -/
inductive Derives : Goal → List Token → Exp → List Token → Prop where
  | not {limit rest e rest' e' rest''} : Derives (.sub unaryPriority) rest e rest' →
    Derives (.climb limit (.not e)) rest' e' rest'' → Derives (.sub limit) (.not :: rest) e' rest''
  | minus {limit n rest e rest'} : Derives (.climb limit (.const (.number n.neg))) rest e rest' →
    Derives (.sub limit) (.minus :: .number n :: rest) e rest'
  | number {limit n rest e rest'} : Derives (.climb limit (.const (.number n))) rest e rest' →
    Derives (.sub limit) (.number n :: rest) e rest'
  | string {limit s rest e rest'} : Derives (.climb limit (.const (.string s))) rest e rest' →
    Derives (.sub limit) (.string s :: rest) e rest'
  | name {limit s rest e rest'} : calls rest = false → Derives (.climb limit (.var s)) rest e rest' →
    Derives (.sub limit) (.name s :: rest) e rest'
  | paren {limit rest e rest' e' rest''} : Derives (.sub 0) rest e (.rparen :: rest') → calls rest' = false →
    Derives (.climb limit e) rest' e' rest'' → Derives (.sub limit) (.lparen :: rest) e' rest''
  | stop {limit left tokens} : Stops limit tokens → Derives (.climb limit left) tokens left tokens
  | op {limit op left rest right rest' e rest''} : limit < op.priority → Derives (.sub op.priority) rest right rest' →
    Derives (.climb limit (.binary op left right)) rest' e rest'' → Derives (.climb limit left) (.op op :: rest) e rest''

lemma Derives.length_le {goal : Goal} {tokens rest : List Token} {e : Exp} (derives : Derives goal tokens e rest) :
    rest.length ≤ tokens.length := by
  induction derives <;> simp_all <;> omega

/-- Turns that are enough for `n` tokens. -/
def Goal.need (n : Nat) : Goal → Nat
  | .sub _ => 2 * n + 2
  | .climb .. => 2 * n + 1

lemma Derives.parseExp {goal : Goal} {tokens rest : List Token} {e : Exp} (derives : Derives goal tokens e rest) :
    ∀ {fuel : Nat}, goal.need tokens.length ≤ fuel → Lua.parseExp fuel goal tokens = some (e, rest) := by
  induction derives with
  | not operand _ ih ih' =>
    intro fuel enough
    have shorter := operand.length_le
    simp only [Goal.need, List.length_cons] at enough ih ih'
    obtain ⟨fuel, rfl⟩ := Nat.exists_eq_add_one_of_ne_zero (show fuel ≠ 0 by omega)
    simp only [Lua.parseExp, @ih fuel (by omega), @ih' fuel (by omega)]
  | minus _ ih | number _ ih | string _ ih =>
    intro fuel enough
    simp only [Goal.need, List.length_cons] at enough ih
    obtain ⟨fuel, rfl⟩ := Nat.exists_eq_add_one_of_ne_zero (show fuel ≠ 0 by omega)
    simp only [Lua.parseExp, @ih fuel (by omega)]
  | name noCall _ ih =>
    intro fuel enough
    simp only [Goal.need, List.length_cons] at enough ih
    obtain ⟨fuel, rfl⟩ := Nat.exists_eq_add_one_of_ne_zero (show fuel ≠ 0 by omega)
    simp [Lua.parseExp, noCall, @ih fuel (by omega)]
  | paren inner noCall _ ih ih' =>
    intro fuel enough
    have shorter := inner.length_le
    simp only [Goal.need, List.length_cons] at enough ih ih' shorter
    obtain ⟨fuel, rfl⟩ := Nat.exists_eq_add_one_of_ne_zero (show fuel ≠ 0 by omega)
    simp [Lua.parseExp, noCall, @ih fuel (by omega), @ih' fuel (by omega)]
  | @stop limit left tokens low =>
    intro fuel enough
    obtain ⟨fuel, rfl⟩ := Nat.exists_eq_add_one_of_ne_zero (show fuel ≠ 0 by simp [Goal.need] at enough; omega)
    cases tokens with
    | nil => rfl
    | cons t rest =>
      cases t with
      | op o =>
        simp [Lua.parseExp, Nat.not_lt.mpr (low o rfl)]
      | _ => rfl
  | op high operand _ ih ih' =>
    intro fuel enough
    have shorter := operand.length_le
    simp only [Goal.need, List.length_cons] at enough ih ih'
    obtain ⟨fuel, rfl⟩ := Nat.exists_eq_add_one_of_ne_zero (show fuel ≠ 0 by omega)
    simp [Lua.parseExp, high, @ih fuel (by omega), @ih' fuel (by omega)]

/-- Tokens without a `=`, and the rest. -/
def Past (tokens rest : List Token) : Prop := ∃ used, tokens = used ++ rest ∧ .assign ∉ used

lemma Past.refl (tokens : List Token) : Past tokens tokens := ⟨[], rfl, by simp⟩

lemma Past.cons {t : Token} {tokens rest : List Token} (other : t ≠ .assign) (past : Past tokens rest) :
    Past (t :: tokens) rest := by
  obtain ⟨used, rfl, free⟩ := past
  exact ⟨t :: used, rfl, by simp [free, other.symm]⟩

lemma Past.trans {tokens rest rest' : List Token} (past : Past tokens rest) (past' : Past rest rest') :
    Past tokens rest' := by
  obtain ⟨used, rfl, free⟩ := past
  obtain ⟨used', rfl, free'⟩ := past'
  exact ⟨used ++ used', by simp, by simp [free, free']⟩

/-- The parser takes no `=`. -/
lemma past_parseExp {fuel : Nat} {goal : Goal} {tokens rest : List Token} {e : Exp}
    (read : parseExp fuel goal tokens = some (e, rest)) : Past tokens rest := by
  fun_induction parseExp fuel goal tokens generalizing e rest with
  | case1 | case2 | case10 | case12 | case14 | case15 | case16 => cases read
  | case3 _ _ _ _ _ eq ih ih' => exact .cons nofun ((ih eq).trans (ih' read))
  | case4 _ _ _ _ ih => exact .cons nofun (.cons nofun (ih read))
  | case5 _ _ _ _ ih | case6 _ _ _ _ ih => exact .cons nofun (ih read)
  | case7 _ _ _ ih | case8 _ _ _ ih | case9 _ _ _ ih => exact .cons nofun (ih read)
  | case11 _ _ _ _ _ ih => exact .cons nofun (ih read)
  | case13 _ _ _ _ _ eq _ ih ih' => exact .cons nofun ((ih eq).trans (.cons nofun (ih' read)))
  | case17 _ _ _ _ _ _ _ _ eq ih ih' => exact .cons nofun ((ih eq).trans (ih' read))
  | case18 =>
    cases read
    exact .refl _
  | case19 =>
    cases read
    exact .refl _

lemma Stops.mono {m n : Nat} {tokens : List Token} (stops : Stops m tokens) (le : m ≤ n) : Stops n tokens :=
  fun op head => (stops op head).trans le

/-- Where these tokens are read, whatever comes after them, the loop goes on from `next`. -/
def Continues (n : Nat) (goal : Goal) (tokens : List Token) (next : Goal) : Prop :=
  ∀ rest e rest', calls rest = false → Stops n rest → Derives next rest e rest' → Derives goal (tokens ++ rest) e rest'

/-- A chunk `return` expression. -/
def parseChunk (text : List Char) : Option Exp :=
  match lex text.length text with
  | some (.ret :: tokens) =>
    match parseExp (2 * tokens.length + 2) (.sub 0) tokens with
    | some (e, []) => some e
    | _ => none
  | _ => none

lemma parseChunk_of_derives {text : List Char} {tokens : List Token} {e : Exp} (lexes : Lexes text (.ret :: tokens))
    (derives : Derives (.sub 0) tokens e []) : parseChunk text = some e := by
  have read : parseExp (2 * tokens.length + 2) (.sub 0) tokens = some (e, []) := derives.parseExp le_rfl
  simp only [parseChunk, lexes _ le_rfl, read]

lemma parseChunk_of_assign {text : List Char} {tokens : List Token} (lexes : Lexes text (.ret :: tokens))
    (assign : .assign ∈ tokens) : parseChunk text = none := by
  simp only [parseChunk, lexes _ le_rfl]
  split
  · rename_i e read
    obtain ⟨used, eq, free⟩ := past_parseExp read
    rw [List.append_nil] at eq
    exact absurd (eq ▸ assign) free
  · rfl

/-! ## Evaluation -/

/-- What the meaning of an expression takes from outside: how strings compare in the locale, and the bits of values. -/
structure Host where
  strcoll : List Char → List Char → Ordering
  bxor : Value → Value → Option Value

abbrev Globals := List Char → Value

def Value.equal : Value → Value → Bool
  | .number a, .number b => a.eq b
  | a, b => decide (a = b)

/-- `none` is an error, as for values of different types. -/
def Host.less (host : Host) : Value → Value → Option Bool
  | .number a, .number b => some (a.lt b)
  | .string a, .string b => some (host.strcoll a b = .lt)
  | _, _ => none

def Host.lessEqual (host : Host) : Value → Value → Option Bool
  | .number a, .number b => some (a.le b)
  | .string a, .string b => some (host.strcoll a b ≠ .gt)
  | _, _ => none

/-- An operator whose operands are both evaluated. -/
def Host.apply (host : Host) (a b : Value) : Op → Option Value
  | .eq => some (.bool (a.equal b))
  | .ne => some (.bool (!a.equal b))
  | .lt => (host.less a b).map .bool
  | .gt => (host.less b a).map .bool
  | .le => (host.lessEqual a b).map .bool
  | .ge => (host.lessEqual b a).map .bool
  | .bxor => host.bxor a b
  | .and | .or => none

def Host.eval (host : Host) (globals : Globals) : Exp → Option Value
  | .const v => some v
  | .var name => some (globals name)
  | .not e => (host.eval globals e).map fun v => .bool (!v.truthy)
  | .binary .and left right => (host.eval globals left).bind fun v => if v.truthy then host.eval globals right else some v
  | .binary .or left right => (host.eval globals left).bind fun v => if v.truthy then some v else host.eval globals right
  | .binary op left right => (host.eval globals left).bind fun a => (host.eval globals right).bind fun b => host.apply a b op

/-! ## Truth -/

/-- Whether a value is neither `nil` nor `false`, or an error. -/
def Host.truth (host : Host) (globals : Globals) (e : Exp) : Option Bool := (host.eval globals e).map Value.truthy

/-- `and` of what may fail: the second operand is not evaluated after a false one. -/
def both (a b : Option Bool) : Option Bool := a.bind fun x => if x then b else some false

def either (a b : Option Bool) : Option Bool := a.bind fun x => if x then some true else b

lemma both_assoc (a b c : Option Bool) : both (both a b) c = both a (both b c) := by
  rcases a with _ | _ | _ <;> rfl

lemma either_assoc (a b c : Option Bool) : either (either a b) c = either a (either b c) := by
  rcases a with _ | _ | _ <;> rfl

variable (host : Host) (globals : Globals)

lemma truth_not (e : Exp) : host.truth globals (.not e) = (host.truth globals e).map (!·) := by
  unfold Host.truth
  rw [Host.eval]
  cases host.eval globals e <;> rfl

lemma truth_and (left right : Exp) :
    host.truth globals (.binary .and left right) = both (host.truth globals left) (host.truth globals right) := by
  unfold Host.truth both
  rw [Host.eval]
  rcases host.eval globals left with _ | v
  · rfl
  · cases true : v.truthy <;> simp [true]

lemma truth_or (left right : Exp) :
    host.truth globals (.binary .or left right) = either (host.truth globals left) (host.truth globals right) := by
  unfold Host.truth either
  rw [Host.eval]
  rcases host.eval globals left with _ | v
  · rfl
  · cases true : v.truthy <;> simp [true]

end PjCloud.Lib.Lua
