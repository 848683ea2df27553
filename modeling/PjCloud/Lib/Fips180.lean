import Mathlib.Algebra.Group.Nat.Defs
import Mathlib.Data.List.GetD
import Mathlib.Tactic.Lemma

/-!
# SHA-256

FIPS 180-4 over bit strings, with the section numbers of the standard. The constants are what the standard says they are,
the first bits of roots of primes.
-/

namespace PjCloud.Lib.Fips180

abbrev Word := BitVec 32

/-! ## Functions and constants (3.2, 4.1.2, 4.2.2, 5.3.3) -/

def rotr (n : Nat) (x : Word) : Word := (x >>> n) ||| (x <<< (32 - n))

def ch (x y z : Word) : Word := (x &&& y) ^^^ (~~~x &&& z)

def maj (x y z : Word) : Word := (x &&& y) ^^^ (x &&& z) ^^^ (y &&& z)

def bigSigma0 (x : Word) : Word := rotr 2 x ^^^ rotr 13 x ^^^ rotr 22 x

def bigSigma1 (x : Word) : Word := rotr 6 x ^^^ rotr 11 x ^^^ rotr 25 x

def sigma0 (x : Word) : Word := rotr 7 x ^^^ rotr 18 x ^^^ (x >>> 3)

def sigma1 (x : Word) : Word := rotr 17 x ^^^ rotr 19 x ^^^ (x >>> 10)

/-- The whole part of the `k`-th root, for numbers whose root has at most forty bits. -/
def root (k n : Nat) : Nat := (List.range 40).foldr (fun i r => if (r + 2 ^ i) ^ k ≤ n then r + 2 ^ i else r) 0

/-- The first 32 bits of the fractional part of the `k`-th root. -/
def fraction (k p : Nat) : Word := BitVec.ofNat 32 (root k (p * 2 ^ (32 * k)))

/-- The primes below 312, of which there are 64. -/
def primes : List Nat := (List.range 312).filter fun p => 2 ≤ p && (List.range p).all fun d => d < 2 || p % d != 0

def constants : List Word := primes.map (fraction 3)

/-- The working variables, and the hash value as the eight of them. -/
structure State where
  a : Word
  b : Word
  c : Word
  d : Word
  e : Word
  f : Word
  g : Word
  h : Word
  deriving DecidableEq, Repr

def State.words (s : State) : List Word := [s.a, s.b, s.c, s.d, s.e, s.f, s.g, s.h]

def State.add (s t : State) : State where
  a := s.a + t.a
  b := s.b + t.b
  c := s.c + t.c
  d := s.d + t.d
  e := s.e + t.e
  f := s.f + t.f
  g := s.g + t.g
  h := s.h + t.h

def initial : State where
  a := fraction 2 2
  b := fraction 2 3
  c := fraction 2 5
  d := fraction 2 7
  e := fraction 2 11
  f := fraction 2 13
  g := fraction 2 17
  h := fraction 2 19

/-! ## Padding and words (5.1.1, 5.2.1) -/

/-- The bits of a number, the most significant one first. -/
def bits {w : Nat} (x : BitVec w) : List Bool := (List.range w).map x.getMsbD

/-- One, the least number of zeros that makes it 448 bits up to blocks of 512, and the length in 64 bits. -/
def pad (m : List Bool) : List Bool :=
  m ++ true :: List.replicate ((959 - m.length % 512) % 512) false ++ bits (BitVec.ofNat 64 m.length)

/-- The `j`-th word of a bit string. -/
def wordAt (m : List Bool) (j : Nat) : Word :=
  (BitVec.ofBoolListBE ((List.range 32).map fun i => m.getD (32 * j + i) false)).cast (by simp)

/-! ## The hash (6.2.2) -/

/-- The message schedule of a block. -/
def schedule (block : Nat → Word) (t : Nat) : Word :=
  if t < 16 then block t
  else sigma1 (schedule block (t - 2)) + schedule block (t - 7) + sigma0 (schedule block (t - 15)) +
    schedule block (t - 16)
termination_by t

def step (w : Nat → Word) (s : State) (t : Nat) : State :=
  let t1 := s.h + bigSigma1 s.e + ch s.e s.f s.g + constants.getD t 0 + w t
  let t2 := bigSigma0 s.a + maj s.a s.b s.c
  { h := s.g, g := s.f, f := s.e, e := s.d + t1, d := s.c, c := s.b, b := s.a, a := t1 + t2 }

def compress (hash : State) (block : Nat → Word) : State :=
  State.add ((List.range 64).foldl (step (schedule block)) hash) hash

def sha256 (m : List Bool) : List Bool :=
  ((List.range ((pad m).length / 512)).foldl
    (fun hash i => compress hash fun t => wordAt (pad m) (16 * i + t)) initial).words.flatMap bits

/-! ## Bytes -/

/-- A bit of a byte string. -/
lemma getD_flatMap_bits (bytes : List (BitVec 8)) : ∀ k,
    (bytes.flatMap bits).getD k false = (bytes.getD (k / 8) 0).getMsbD (k % 8) := by
  induction bytes with
  | nil => simp
  | cons b bytes ih =>
    intro k
    rw [List.flatMap_cons]
    by_cases first : k < 8
    · rw [List.getD_append _ _ _ _ (by simpa [bits] using first), Nat.div_eq_of_lt first, Nat.mod_eq_of_lt first]
      simp [bits, List.getD, first]
    · rw [List.getD_append_right _ _ _ _ (by simpa [bits] using first), ih]
      have back : k / 8 = (k - 8) / 8 + 1 := by omega
      rw [show (bits b).length = 8 by simp [bits], back, List.getD_cons_succ, show (k - 8) % 8 = k % 8 by omega]

/-- A word is made of four bytes. -/
lemma wordAt_flatMap_bits (bytes : List (BitVec 8)) (j : Nat) : wordAt (bytes.flatMap bits) j =
    ((bytes.getD (4 * j) 0).setWidth 32 <<< 24) ||| ((bytes.getD (4 * j + 1) 0).setWidth 32 <<< 16) |||
      ((bytes.getD (4 * j + 2) 0).setWidth 32 <<< 8) ||| (bytes.getD (4 * j + 3) 0).setWidth 32 := by
  apply BitVec.eq_of_getMsbD_eq
  intro i inside
  have read : (wordAt (bytes.flatMap bits) j).getMsbD i = (bytes.getD (4 * j + i / 8) 0).getMsbD (i % 8) := by
    rw [wordAt, BitVec.getMsbD_cast, BitVec.getMsbD_ofBoolListBE]
    have at_i : ((List.range 32).map fun i => (bytes.flatMap bits).getD (32 * j + i) false).getD i false =
        (bytes.flatMap bits).getD (32 * j + i) false := by simp [List.getD, inside]
    rw [at_i, getD_flatMap_bits, show (32 * j + i) / 8 = 4 * j + i / 8 by omega, show (32 * j + i) % 8 = i % 8 by omega]
  rw [read]
  obtain ⟨r, small, rfl | rfl | rfl | rfl⟩ : ∃ r < 8, i = r ∨ i = 8 + r ∨ i = 16 + r ∨ i = 24 + r :=
    ⟨i % 8, by omega, by omega⟩
  · simp (disch := omega) [Nat.div_eq_of_lt, Nat.mod_eq_of_lt, show ¬ 8 ≤ i by omega, show ¬ 16 ≤ i by omega,
      show ¬ 24 ≤ i by omega]
  · simp (disch := omega) [show (8 + r) / 8 = 1 by omega, Nat.mod_eq_of_lt small, show ¬ 16 ≤ 8 + r by omega,
      show ¬ 24 ≤ 8 + r by omega, show 8 + r + 16 + 8 - 32 = r by omega]
  · simp (disch := omega) [show (16 + r) / 8 = 2 by omega, show (16 + r) % 8 = r by omega, show ¬ 24 ≤ 16 + r by omega]
  · simp (disch := omega) [show (24 + r) / 8 = 3 by omega, show (24 + r) % 8 = r by omega]

end PjCloud.Lib.Fips180
