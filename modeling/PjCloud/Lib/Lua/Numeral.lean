import PjCloud.Lib.Ascii
import PjCloud.Lib.Lua.Lexer

/-!
# Numbers of C as numerals of Lua

A number that `strtod` reads to the end, with no sign and no word such as `inf`, is one numeral of Lua.
-/

namespace PjCloud.Lib.Lua

/-- A byte of a numeral that starts no exponent is taken alone. -/
lemma numeralSpan_cons {marks : List Char} {c : Char} (plain : c ∉ marks) (part : isHexDigit c = true ∨ c = '.')
    (rest : List Char) :
    numeralSpan marks (c :: rest) = (c :: (numeralSpan marks rest).1, (numeralSpan marks rest).2) := by
  cases rest with
  | nil => simp [numeralSpan, part]
  | cons d rest => simp [numeralSpan, plain, part]

lemma isHexDigit_of_isDigit {c : Char} (digit : c.isDigit = true) : isHexDigit c = true := by
  simp [isHexDigit, digit]

lemma numeralSpan_digits {marks digits : List Char} (all : ∀ d ∈ digits, d ∉ marks ∧ isHexDigit d = true) (rest : List Char) :
    numeralSpan marks (digits ++ rest) = (digits ++ (numeralSpan marks rest).1, (numeralSpan marks rest).2) := by
  induction digits with
  | nil => rfl
  | cons d digits ih =>
    obtain ⟨⟨plain, digit⟩, others⟩ := List.forall_mem_cons.mp all
    rw [List.cons_append, numeralSpan_cons plain (.inl digit), ih others]
    rfl

lemma numeralSpan_exponent {marks rest : List Char} (noDigit : ∀ d ∈ marks, d.isDigit = false)
    (isExponent : (exponentPart marks rest).isSome) : numeralSpan marks rest = (rest, []) := by
  have digits {ds : List Char} (some : ds ≠ [] ∧ ds.all Char.isDigit = true) : numeralSpan marks ds = (ds, []) := by
    have all : ∀ d ∈ ds, d ∉ marks ∧ isHexDigit d = true := by
      intro d mem
      have digit := List.all_eq_true.mp some.2 d mem
      exact ⟨fun mark => by simp [noDigit d mark] at digit, isHexDigit_of_isDigit digit⟩
    simpa [numeralSpan] using numeralSpan_digits all []
  cases rest with
  | nil => rfl
  | cons c rest =>
    simp only [exponentPart] at isExponent
    split at isExponent
    swap
    · cases isExponent
    rename_i parts
    have body := digits parts.2
    rcases signed_cases rest with ⟨eq, _⟩ | ⟨eq, _⟩ | ⟨eq, _, minus, plus⟩
    · rw [eq]
      simp [numeralSpan, parts.1, body]
    · rw [eq]
      simp [numeralSpan, parts.1, body]
    · rw [← eq] at body parts
      rcases rest with _ | ⟨d, rest⟩
      · exact absurd rfl parts.2.1
      · have noSign : ¬ (d = '-' ∨ d = '+') := by
          rintro (rfl | rfl)
          · exact minus rfl
          · exact plus rfl
        simp [numeralSpan, parts.1, noSign, body]

/-- A number of C without a sign is a numeral of Lua, all of it. -/
lemma numeralSpan_pointed {marks text : List Char} {digit : Char → Bool}
    (isDigit : ∀ d, digit d = true → d ∉ marks ∧ isHexDigit d = true) (noPoint : '.' ∉ marks)
    (noDigit : ∀ d ∈ marks, d.isDigit = false) (isExponent : (exponentPart marks (pointed digit text).2.2).isSome) :
    numeralSpan marks text = (text, []) := by
  obtain ⟨whole, fraction, shape⟩ := pointed_spec digit text
  have after := numeralSpan_exponent noDigit isExponent
  have digits {ds : List Char} (all : ds.all digit = true) : ∀ d ∈ ds, d ∉ marks ∧ isHexDigit d = true :=
    fun d mem => isDigit d (List.all_eq_true.mp all d mem)
  rcases shape with ⟨eq, -⟩ | eq
  · rw [eq, numeralSpan_digits (digits whole), after]
  · rw [eq, List.append_assoc, numeralSpan_digits (digits whole), List.cons_append, numeralSpan_cons noPoint (.inr rfl),
      numeralSpan_digits (digits fraction), after]

lemma numeralSpan_tail {marks rest : List Char} {c : Char} (plain : c ∉ marks) (part : isHexDigit c = true ∨ c = '.')
    (whole : numeralSpan marks (c :: rest) = (c :: rest, [])) : numeralSpan marks rest = (rest, []) := by
  rw [numeralSpan_cons plain part] at whole
  simpa [Prod.ext_iff] using whole

lemma isDigit_plain {d : Char} (digit : d.isDigit = true) : d ∉ ['e', 'E'] ∧ isHexDigit d = true := by
  refine ⟨?_, isHexDigit_of_isDigit digit⟩
  rintro mem
  simp only [List.mem_cons, List.not_mem_nil, or_false] at mem
  rcases mem with rfl | rfl <;> cases digit

lemma isHexDigit_plain {d : Char} (digit : isHexDigit d = true) : d ∉ ['p', 'P'] ∧ isHexDigit d = true := by
  refine ⟨?_, digit⟩
  rintro mem
  simp only [List.mem_cons, List.not_mem_nil, or_false] at mem
  rcases mem with rfl | rfl <;> cases digit

lemma isSome_decimal {text : List Char} (isDecimal : (Lib.decimal text).isSome) :
    (pointed Char.isDigit text).1 ++ (pointed Char.isDigit text).2.1 ≠ [] ∧
      (exponentPart ['e', 'E'] (pointed Char.isDigit text).2.2).isSome := by
  simp only [Lib.decimal] at isDecimal
  split at isDecimal
  · cases isDecimal
  · exact ⟨by assumption, by simpa using isDecimal⟩

lemma isSome_hexadecimal {text : List Char} (isHex : (hexadecimal text).isSome) :
    (exponentPart ['p', 'P'] (pointed isHexDigit text).2.2).isSome := by
  simp only [hexadecimal] at isHex
  split at isHex
  · cases isHex
  · simpa using isHex

/-- A decimal number starts with a digit, or with a point before a digit. -/
lemma starts_decimal {text : List Char} (isDecimal : (Lib.decimal text).isSome) : ∃ c rest, text = c :: rest ∧
    (c.isDigit = true ∨ c = '.' ∧ rest.head?.any Char.isDigit = true) := by
  obtain ⟨some, -⟩ := isSome_decimal isDecimal
  obtain ⟨whole, fraction, shape⟩ := pointed_spec Char.isDigit text
  rcases eq : (pointed Char.isDigit text).1 with _ | ⟨c, ds⟩
  · rw [eq] at shape some
    rcases eq' : (pointed Char.isDigit text).2.1 with _ | ⟨d, ds⟩
    · simp [eq'] at some
    · rw [eq'] at shape fraction
      simp only [reduceCtorEq, and_false, false_or] at shape
      rw [List.all_cons, Bool.and_eq_true] at fraction
      exact ⟨'.', d :: ds ++ (pointed Char.isDigit text).2.2, shape, .inr ⟨rfl, fraction.1⟩⟩
  · rw [eq] at whole shape
    rw [List.all_cons, Bool.and_eq_true] at whole
    rcases shape with ⟨shape, _⟩ | shape
    · exact ⟨c, _, shape, .inl whole.1⟩
    · exact ⟨c, _, shape, .inl whole.1⟩

/-- The first byte of a number of C without a sign, and that Lua takes all of it for one numeral. -/
lemma numeralText_unsigned {text : List Char} (isNumber : (unsigned text).isSome) : ∃ c rest, text = c :: rest ∧
    (c.isDigit = true ∨ c = '.' ∧ rest.head?.any Char.isDigit = true) ∧ numeralText c rest = (text, []) := by
  have decimals (isDecimal : (Lib.decimal text).isSome)
      (noHex : ∀ x rest, text = '0' :: x :: rest → ¬ (x = 'x' ∨ x = 'X')) : ∃ c rest, text = c :: rest ∧
        (c.isDigit = true ∨ c = '.' ∧ rest.head?.any Char.isDigit = true) ∧ numeralText c rest = (text, []) := by
    obtain ⟨c, rest, rfl, first⟩ := starts_decimal isDecimal
    refine ⟨c, rest, rfl, first, ?_⟩
    have whole := numeralSpan_pointed (fun d => isDigit_plain) (by decide) (by simp) (isSome_decimal isDecimal).2
    have plain : c ∉ ['e', 'E'] ∧ (isHexDigit c = true ∨ c = '.') := by
      rcases first with digit | ⟨rfl, _⟩
      · exact ⟨(isDigit_plain digit).1, .inl (isDigit_plain digit).2⟩
      · exact ⟨by decide, .inr rfl⟩
    have tail := numeralSpan_tail plain.1 plain.2 whole
    cases rest with
    | nil => rfl
    | cons x rest =>
      have noMark : ¬ (c = '0' ∧ (x = 'x' ∨ x = 'X')) := by
        rintro ⟨rfl, mark⟩
        exact noHex x rest rfl mark
      simp [numeralText, noMark, tail]
  unfold unsigned at isNumber
  split at isNumber
  · rename_i x rest
    split at isNumber
    · rename_i mark
      have whole := numeralSpan_pointed (fun d => isHexDigit_plain) (by decide) (by simp) (isSome_hexadecimal isNumber)
      exact ⟨'0', x :: rest, rfl, .inl rfl, by simp [numeralText, mark, whole]⟩
    · rename_i noMark
      exact decimals isNumber (by rintro _ _ ⟨⟩; exact noMark)
  · rename_i noZero
    exact decimals isNumber (fun x rest eq => absurd eq (noZero x rest))

lemma isSome_numeral {text : List Char} (isNumber : (unsigned text).isSome) : (numeral text).isSome := by
  have decimals : (numeral.decimal text).isSome := by
    unfold numeral.decimal
    split
    · rfl
    · simpa using isNumber
  unfold numeral
  split
  · split
    · rfl
    · exact decimals
  · exact decimals

lemma ne_of_isDigit {c d : Char} (digit : c.isDigit = true) (other : d.isDigit = false) : c ≠ d := by
  rintro rfl
  simp [digit] at other

lemma isDigit_apart {c : Char} (digit : c.isDigit = true) : isNameStart c = false ∧ isSpace c = false ∧ c ≠ '-' := by
  have noAlpha : c.isAlpha = false := by
    rw [Ascii.not_alpha_iff]
    have := Ascii.isDigit_iff.mp digit
    omega
  refine ⟨?_, ?_, ne_of_isDigit digit rfl⟩
  · simp [isNameStart, noAlpha, @ne_of_isDigit c '_' digit rfl]
  · simp only [isSpace, Bool.or_eq_false_iff, decide_eq_false_iff_not]
    exact ⟨⟨⟨⟨⟨ne_of_isDigit digit rfl, ne_of_isDigit digit rfl⟩, ne_of_isDigit digit rfl⟩, ne_of_isDigit digit rfl⟩,
      ne_of_isDigit digit rfl⟩, ne_of_isDigit digit rfl⟩

/-- Lua reads a number of C without a sign as one numeral. -/
lemma lexOne_unsigned {c : Char} {rest : List Char} (isNumber : (unsigned (c :: rest)).isSome) :
    ∃ n, numeral (c :: rest) = some n ∧ isSpace c = false ∧ c ≠ '-' ∧ lexOne c rest = some (.number n, []) := by
  obtain ⟨_, _, ⟨⟩, first, whole⟩ := numeralText_unsigned isNumber
  obtain ⟨n, value⟩ := Option.isSome_iff_exists.mp (isSome_numeral isNumber)
  have noName : isNameStart c = false ∧ isSpace c = false ∧ c ≠ '-' := by
    rcases first with digit | ⟨rfl, _⟩
    · exact isDigit_apart digit
    · decide
  refine ⟨n, value, noName.2.1, noName.2.2, ?_⟩
  simp [lexOne, noName.1, first, readNumeral, whole, value]

end PjCloud.Lib.Lua
