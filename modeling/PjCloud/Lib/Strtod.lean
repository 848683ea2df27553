import Mathlib.Algebra.Order.Ring.Rat
import Mathlib.Tactic.Lemma

/-!
# Numbers as C reads them

`strtod` of the C library in the locale "C", for texts of which it leaves nothing unread. A text is a list of bytes,
and a byte is the character of its number. A double is the rational number it stands for: the two zeros are one.
-/

namespace PjCloud.Lib

def isSpace (c : Char) : Bool := c = ' ' || c = '\t' || c = '\n' || c = '\x0b' || c = '\x0c' || c = '\r'

/-- `isxdigit` -/
def isHexDigit (c : Char) : Bool := c.isDigit || ('a' ≤ c && c ≤ 'f') || ('A' ≤ c && c ≤ 'F')

def hexDigit (c : Char) : Nat :=
  if c.isDigit then c.toNat - 48 else if 'a' ≤ c then c.toNat - 87 else c.toNat - 55

/-- The number that the digits write, with the high one first. -/
def ofDigits (base : Nat) (digits : List Char) : Nat := digits.foldl (fun n c => n * base + hexDigit c) 0

inductive Double where
  | nan
  | infinite (negative : Bool)
  | finite (value : Rat)
  deriving DecidableEq

namespace Double

/-- The nearest integer, the even one of two. -/
def nearest (q : Rat) : Int :=
  let low := q.floor
  if q - low < 1 / 2 then low else if 1 / 2 < q - low then low + 1 else if low % 2 = 0 then low else low + 1

/-- `q` in units of two to the power `e` -/
def scale (q : Rat) (e : Int) : Rat := if 0 ≤ e then q / 2 ^ e.toNat else q * 2 ^ (-e).toNat

/-- The exponent of the highest bit of a number that is not zero. -/
def exponent (q : Rat) : Int :=
  let e := (q.num.natAbs.log2 : Int) - q.den.log2
  if 1 ≤ scale (max q (-q)) e then e else e - 1

/-- The nearest double: 53 bits from the highest on, none below two to the power -1074. -/
def ofRat (q : Rat) : Double :=
  if q = 0 then finite 0
  else
    let unit := max (exponent q - 52) (-1074)
    let rounded := scale (nearest (scale q unit)) (-unit)
    if 2 ^ 1024 ≤ max rounded (-rounded) then infinite (decide (q < 0)) else finite rounded

def neg : Double → Double
  | nan => nan
  | infinite negative => infinite (!negative)
  | finite q => finite (-q)

def lt : Double → Double → Bool
  | nan, _ | _, nan => false
  | infinite a, infinite b => a && !b
  | infinite a, finite _ => a
  | finite _, infinite b => !b
  | finite p, finite q => decide (p < q)

def eq : Double → Double → Bool
  | nan, _ | _, nan => false
  | a, b => decide (a = b)

lemma ofRat_ne_nan (q : Rat) : ofRat q ≠ nan := by
  unfold ofRat
  split
  · nofun
  · dsimp only
    split <;> nofun

lemma eq_self {d : Double} (isNumber : d ≠ nan) : d.eq d = true := by
  cases d with
  | nan => exact absurd rfl isNumber
  | infinite | finite => simp [eq]

lemma eq_finite {d : Double} {q : Rat} : d.eq (finite q) = true ↔ d = finite q := by
  cases d <;> simp [eq]

end Double

/-- Whether there is a minus, and what follows the sign. -/
def signed (text : List Char) : Bool × List Char :=
  match text with
  | '-' :: rest => (true, rest)
  | '+' :: rest => (false, rest)
  | rest => (false, rest)

/-- `[eE][+-]digits` at the end of a number, or nothing. -/
def exponentPart (marks : List Char) : List Char → Option Int
  | [] => some 0
  | c :: rest =>
    let (negative, digits) := signed rest
    if c ∈ marks ∧ digits ≠ [] ∧ digits.all Char.isDigit then
      some (if negative then -(ofDigits 10 digits : Int) else ofDigits 10 digits)
    else none

/-- The digits before and after the point, and what is after them. -/
def pointed (digit : Char → Bool) (text : List Char) : List Char × List Char × List Char :=
  let whole := text.takeWhile digit
  match text.dropWhile digit with
  | '.' :: rest => (whole, rest.takeWhile digit, rest.dropWhile digit)
  | rest => (whole, [], rest)

def decimal (text : List Char) : Option Rat :=
  let (whole, fraction, rest) := pointed Char.isDigit text
  if whole ++ fraction = [] then none
  else (exponentPart ['e', 'E'] rest).map fun e =>
    let e : Int := e - fraction.length
    let digits : Rat := ofDigits 10 (whole ++ fraction)
    if 0 ≤ e then digits * 10 ^ e.toNat else digits / 10 ^ (-e).toNat

/-- What follows `0x` -/
def hexadecimal (text : List Char) : Option Rat :=
  let (whole, fraction, rest) := pointed isHexDigit text
  if whole ++ fraction = [] then none
  else (exponentPart ['p', 'P'] rest).map fun e =>
    Double.scale (ofDigits 16 (whole ++ fraction)) (4 * fraction.length - e)

/-- A number without a sign that is no word: decimal, or hexadecimal after `0x`. -/
def unsigned (text : List Char) : Option Rat :=
  match text with
  | '0' :: x :: rest => if x = 'x' ∨ x = 'X' then hexadecimal rest else decimal text
  | _ => decimal text

def lower (text : List Char) : List Char := text.map Char.toLower

/-- `inf`, `infinity`, `nan` and `nan(…)`, in any case. -/
def wordNumber (text : List Char) : Option Double :=
  if lower text = "inf".toList ∨ lower text = "infinity".toList then some (.infinite false)
  else if lower text = "nan".toList then some .nan
  else if lower (text.take 4) = "nan(".toList ∧ text.getLast? = some ')' ∧
      ((text.drop 4).dropLast).all (fun c => c.isAlphanum || c = '_') then some .nan
  else none

/-- The number that `strtod` reads in a text of which it leaves nothing unread. -/
def strtod (text : List Char) : Option Double :=
  let (negative, body) := signed (text.dropWhile isSpace)
  let magnitude := (wordNumber body).or ((unsigned body).map Double.ofRat)
  magnitude.map fun d => if negative then d.neg else d

/-! ## Shapes -/

lemma signed_cases (text : List Char) : text = '-' :: (signed text).2 ∧ (signed text).1 = true ∨
    text = '+' :: (signed text).2 ∧ (signed text).1 = false ∨
    text = (signed text).2 ∧ (signed text).1 = false ∧ text.head? ≠ some '-' ∧ text.head? ≠ some '+' := by
  unfold signed
  split
  · exact .inl ⟨rfl, rfl⟩
  · exact .inr (.inl ⟨rfl, rfl⟩)
  · rename_i minus plus
    refine .inr (.inr ⟨rfl, rfl, ?_, ?_⟩)
    · intro head
      obtain ⟨rest, rfl⟩ := List.head?_eq_some_iff.mp head
      exact minus rest rfl
    · intro head
      obtain ⟨rest, rfl⟩ := List.head?_eq_some_iff.mp head
      exact plus rest rfl

/-- Digits, perhaps a point and more digits, and what is after them. -/
lemma pointed_spec (digit : Char → Bool) (text : List Char) :
    (pointed digit text).1.all digit = true ∧ (pointed digit text).2.1.all digit = true ∧
      (text = (pointed digit text).1 ++ (pointed digit text).2.2 ∧ (pointed digit text).2.1 = [] ∨
        text = (pointed digit text).1 ++ '.' :: (pointed digit text).2.1 ++ (pointed digit text).2.2) := by
  unfold pointed
  have whole := List.takeWhile_append_dropWhile (p := digit) (l := text)
  split
  · rename_i rest after
    refine ⟨by simp, by simp, .inr ?_⟩
    rw [after] at whole
    simpa using whole.symm
  · refine ⟨by simp, by simp, .inl ⟨whole.symm, rfl⟩⟩

end PjCloud.Lib
