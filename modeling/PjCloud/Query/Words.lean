import PjCloud.Query.Token

/-!
# The words of a query

The tokenizer of `query/complete.h`, which knows offsets only, against the lexer of `query/token.h`.
-/

namespace PjCloud.Query.Complete
open Lib

/-- `std::string_view::substr`, which cuts `count` at the end of the text. -/
def substr (text : Text) (start count : Nat) : Text := (text.drop start).take count

/-- The loop to the closing quote. A backslash skips the next byte whether there is one or not, so the offset may end one
past the text. -/
def closing (text : Text) (quote : Char) : Nat → Nat → Nat
  | 0, i => i
  | fuel + 1, i =>
    if i < text.length ∧ text[i]? ≠ some quote then
      closing text quote fuel (if text[i]? = some '\\' then i + 1 + 1 else i + 1)
    else i

/-- The closing quote is consumed where there is one. -/
def consume (text : Text) (i : Nat) : Nat := if i < text.length then i + 1 else i

/-- The loop of `tokenize` from the offset `i` on. -/
def words (text : Text) : Nat → Nat → List Text
  | 0, _ => []
  | fuel + 1, i =>
    match text.drop i with
    | [] => []
    | c :: rest =>
      if isSpace c then words text fuel (i + 1)
      else if (rest.head?.any fun d => isTwoChar c d) then substr text i 2 :: words text fuel (i + 2)
      else if c = '<' ∨ c = '>' ∨ c = '(' ∨ c = ')' then [c] :: words text fuel (i + 1)
      else if c = '"' ∨ c = '\'' then
        let stop := consume text (closing text c text.length (i + 1))
        substr text i (stop - i) :: words text fuel stop
      else if c = '=' ∨ c = '~' then [c] :: words text fuel (i + 1)
      else
        let word := (c :: rest).takeWhile isWordChar
        if word ≠ [] then word :: words text fuel (i + word.length)
        -- a byte of no kind is skipped
        else words text fuel (i + 1)

def tokenize (text : Text) : List Text := words text text.length 0

variable {text rest : Text} {quote c : Char} {i : Nat}

lemma drop_add (at_i : text.drop i = rest) (n : Nat) : text.drop (i + n) = rest.drop n := by
  rw [← at_i, List.drop_drop]

lemma getElem?_of_drop (at_i : text.drop i = c :: rest) : i < text.length ∧ text[i]? = some c := by
  have get : text[i]? = some c := by rw [← List.head?_drop, at_i, List.head?_cons]
  exact ⟨(List.getElem?_eq_some_iff.mp get).1, get⟩

lemma closing_of_le (past : text.length ≤ i) : ∀ fuel, closing text quote fuel i = i
  | 0 => rfl
  | _ + 1 => by rw [closing, if_neg (by omega)]

/-- Both loops stop at the same byte, and what one reads past the end is cut off. -/
lemma quoted_eq : ∀ fuel i rest, text.drop i = rest → rest.length ≤ fuel →
    i ≤ consume text (closing text quote fuel i) ∧
      quoted quote rest = (rest.take (consume text (closing text quote fuel i) - i),
        rest.drop (consume text (closing text quote fuel i) - i)) := by
  intro fuel
  induction fuel with
  | zero =>
    intro i rest at_i enough
    obtain rfl : rest = [] := by simpa using enough
    have past : text.length ≤ i := by simpa using at_i
    simp [closing, consume, past.not_gt, quoted]
  | succ fuel ih =>
    intro i rest at_i enough
    cases rest with
    | nil =>
      have past : text.length ≤ i := by simpa using at_i
      simp [closing_of_le past, consume, past.not_gt, quoted]
    | cons c more =>
      obtain ⟨inside, get⟩ := getElem?_of_drop at_i
      by_cases close : c = quote
      · have stays : closing text quote (fuel + 1) i = i := by rw [closing, if_neg (by simp [get, close])]
        rw [stays, consume, if_pos inside, Nat.add_sub_cancel_left]
        cases more <;> simp [quoted, close]
      by_cases escape : c = '\\'
      · subst escape
        have skips : closing text quote (fuel + 1) i = closing text quote fuel (i + 2) := by
          rw [closing, if_pos ⟨inside, by simp [get, close]⟩, if_pos get]
        obtain ⟨onward, eq⟩ := ih (i + 2) (more.drop 1) (drop_add at_i 2) (by simp at enough ⊢; omega)
        rw [skips]
        obtain ⟨n, stop⟩ := Nat.exists_eq_add_of_le onward
        rw [stop] at eq ⊢
        rw [Nat.add_sub_cancel_left] at eq
        refine ⟨by omega, ?_⟩
        rw [show i + 2 + n - i = n + 2 by omega]
        cases more with
        | nil => simp [quoted]
        | cons d more =>
          rw [List.drop_one, List.tail_cons] at eq
          simp [quoted, close, eq]
      · have steps : closing text quote (fuel + 1) i = closing text quote fuel (i + 1) := by
          rw [closing, if_pos ⟨inside, by simp [get, close]⟩, if_neg (by simp [get, escape])]
        obtain ⟨onward, eq⟩ := ih (i + 1) more (drop_add at_i 1) (by simpa using enough)
        rw [steps]
        obtain ⟨n, stop⟩ := Nat.exists_eq_add_of_le onward
        rw [stop] at eq ⊢
        rw [Nat.add_sub_cancel_left] at eq
        refine ⟨by omega, ?_⟩
        rw [show i + 1 + n - i = n + 1 by omega]
        cases more with
        | nil => simp [quoted]
        | cons d more => simp [quoted, close, escape, eq]

/-- Turn by turn both scanners read the same, the lexer at any offset of its own. -/
lemma words_eq : ∀ fuel i k rest, text.drop i = rest →
    words text fuel i = (scan fuel k rest).map Token.text := by
  intro fuel
  induction fuel with
  | zero => intros; rfl
  | succ fuel ih =>
    intro i k rest at_i
    match rest with
    | [] => simp [words, at_i, scan]
    | c :: rest =>
      have next := drop_add at_i
      rw [words, at_i, scan]
      by_cases space : isSpace c = true
      · simp only [space, if_true]
        exact ih _ _ _ (next 1)
      simp only [space, Bool.false_eq_true, if_false]
      fun_cases lexeme c rest with
      | case1 two =>
        rw [if_pos two, List.map_cons, ih _ _ _ (next 2), substr, at_i]
        rfl
      | case2 single angle =>
        rw [if_neg single, if_pos (by tauto), List.map_cons, ih _ _ _ (next 1)]
        rfl
      | case3 single angle opens =>
        rw [if_neg single, if_pos (by tauto), List.map_cons, ih _ _ _ (next 1)]
        rfl
      | case4 single angle opens closes =>
        rw [if_neg single, if_pos (by tauto), List.map_cons, ih _ _ _ (next 1)]
        rfl
      | case5 single angle opens closes isQuote body left eq =>
        have enough : rest.length ≤ text.length := by
          have length := congrArg List.length (next 1)
          simp at length
          omega
        obtain ⟨onward, read⟩ := @quoted_eq text c text.length (i + 1) rest (next 1) enough
        obtain ⟨n, stop⟩ := Nat.exists_eq_add_of_le onward
        rw [eq, stop, Nat.add_sub_cancel_left] at read
        cases read
        have left : text.drop (i + 1 + n) = rest.drop n := by rw [← List.drop_drop, next 1, List.drop_one, List.tail_cons]
        rw [if_neg single, if_neg (by tauto), if_pos isQuote, stop, List.map_cons, substr, at_i,
          show i + 1 + n - i = n + 1 by omega, ih _ _ _ left]
        rfl
      | case6 single angle opens closes isQuote lone =>
        rw [if_neg single, if_neg (by tauto), if_neg isQuote, if_pos lone, List.map_cons, ih _ _ _ (next 1)]
        rfl
      | case7 single angle opens closes isQuote lone word =>
        have plain : isPunct c = false := by
          rw [← Bool.not_eq_true, isPunct_iff]
          tauto
        have first : isWordChar c = true := isWordChar_iff.mpr ⟨by simpa using space, plain⟩
        have left : rest.dropWhile isWordChar = (c :: rest).drop word.length := by
          simp [word, List.dropWhile_eq_drop_findIdx_not, List.takeWhile_eq_take_findIdx_not]
        rw [if_neg single, if_neg (by tauto), if_neg isQuote, if_neg lone, List.takeWhile_cons, if_pos first,
          if_pos (by simp), List.map_cons, left, ih _ _ _ (next word.length)]

/-- Completion and parsing cut every text into the same words. -/
theorem tokenizers_agree (text : Text) : tokenize text = (Query.tokenize text).map Token.text :=
  words_eq text.length 0 0 text rfl

end PjCloud.Query.Complete
