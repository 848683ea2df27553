import Mathlib.Algebra.Group.Nat.Defs
import Mathlib.Data.List.Basic
import Mathlib.Tactic.Lemma

/-!
# Wire formats

A format says how the values of a type are written as bytes and carries a reader with its proof: the reader
gets a value back from what was written, whatever follows it. Formats are composed from the varint, the
length-delimited block and the tag, as in protobuf, so a composed format is right by construction.
-/

namespace PjCloud.Lib

/-- How the values of a type are written, and a reader that gets them back. -/
structure Wire (α : Type) where
  write : α → List UInt8
  read : List UInt8 → Option (α × List UInt8)
  read_write : ∀ a rest, read (write a ++ rest) = some (a, rest)

namespace Wire
variable {α β : Type}

/-- A number in groups of seven bits, the lowest first. The top bit says that another group follows. -/
def groups : Nat → Nat → List UInt8
  | 0, n => [UInt8.ofNat n]
  | fuel + 1, n =>
    if n < 128 then [UInt8.ofNat n] else UInt8.ofNat (n % 128 + 128) :: groups fuel (n / 128)

/-- Read the groups of a number. -/
def readGroups : List UInt8 → Option (Nat × List UInt8)
  | [] => none
  | b :: rest =>
    if b.toNat < 128 then some (b.toNat, rest)
    else (readGroups rest).map fun x => (b.toNat - 128 + 128 * x.1, x.2)

/-- The groups of a number are read back. -/
lemma readGroups_groups {rest : List UInt8} : ∀ {fuel n : Nat}, n ≤ fuel →
    readGroups (groups fuel n ++ rest) = some (n, rest) := by
  intro fuel
  induction fuel with
  | zero =>
    intro n bound
    obtain rfl := Nat.le_zero.mp bound
    rfl
  | succ fuel ih =>
    intro n bound
    unfold groups
    split
    · rename_i small
      have byte : (UInt8.ofNat n).toNat = n := by
        rw [UInt8.toNat_ofNat', Nat.mod_eq_of_lt (by omega)]
      simp [readGroups, byte, small]
    · have byte : (UInt8.ofNat (n % 128 + 128)).toNat = n % 128 + 128 := by
        rw [UInt8.toNat_ofNat', Nat.mod_eq_of_lt (by omega)]
      rw [List.cons_append, readGroups, byte, if_neg (by omega), ih (by omega), Option.map_some]
      have parts : n % 128 + 128 - 128 + 128 * (n / 128) = n := by omega
      rw [parts]

/-- Numbers as varints. -/
def varint : Wire Nat where
  write n := groups n n
  read := readGroups
  read_write _ _ := readGroups_groups (Nat.le_refl _)

/-- A varint is much shorter than its number is large. -/
lemma length_groups_le : ∀ {fuel n : Nat}, (groups fuel n).length ≤ n / 64 + 1 := by
  intro fuel
  induction fuel with
  | zero => simp [groups]
  | succ fuel ih =>
    intro n
    unfold groups
    split
    · simp
    · have rest := ih (n := n / 128)
      rw [List.length_cons]
      omega

/-- The same of the format. -/
lemma length_varint_le {n : Nat} : (varint.write n).length ≤ n / 64 + 1 := length_groups_le

/-- The last bytes of a number, the highest first. -/
def bigEndian : Nat → Nat → List UInt8
  | 0, _ => []
  | k + 1, n => UInt8.ofNat (n / 256 ^ k) :: bigEndian k n

/-- As many bytes as asked for. -/
lemma length_bigEndian {k n : Nat} : (bigEndian k n).length = k := by
  induction k with
  | zero => rfl
  | succ k ih => rw [bigEndian, List.length_cons, ih]

/-- Read bytes as a number, the highest first, after what has been read already. -/
def readBigEndian : Nat → Nat → List UInt8 → Option (Nat × List UInt8)
  | 0, high, rest => some (high, rest)
  | _ + 1, _, [] => none
  | k + 1, high, b :: rest => readBigEndian k (high * 256 + b.toNat) rest

/-- The bytes of a number are read back. -/
lemma readBigEndian_bigEndian {rest : List UInt8} {n : Nat} : ∀ {k high : Nat},
    readBigEndian k high (bigEndian k n ++ rest) = some (high * 256 ^ k + n % 256 ^ k, rest) := by
  intro k
  induction k with
  | zero => simp [bigEndian, readBigEndian, Nat.mod_one]
  | succ k ih =>
    intro high
    have byte : (UInt8.ofNat (n / 256 ^ k)).toNat = n / 256 ^ k % 256 := UInt8.toNat_ofNat'
    have parts : n % 256 ^ (k + 1) = n % 256 ^ k + 256 ^ k * (n / 256 ^ k % 256) := by
      rw [Nat.pow_succ, Nat.mod_mul]
    have value : (high * 256 + n / 256 ^ k % 256) * 256 ^ k + n % 256 ^ k =
        high * 256 ^ (k + 1) + n % 256 ^ (k + 1) := by
      rw [parts, Nat.add_mul, Nat.pow_succ, Nat.mul_assoc, Nat.mul_comm 256, Nat.mul_comm (n / _ % _)]
      omega
    rw [bigEndian, List.cons_append, readBigEndian, ih, byte, value]

/-- The last bytes of a number depend on what is below. -/
lemma bigEndian_mod {n m : Nat} : ∀ {k : Nat}, n % 256 ^ k = m % 256 ^ k → bigEndian k n = bigEndian k m := by
  intro k
  induction k with
  | zero =>
    intro _
    rfl
  | succ k ih =>
    intro same
    rw [Nat.pow_succ] at same
    have low : n % 256 ^ k = m % 256 ^ k := by
      rw [← Nat.mod_mul_right_mod n _ 256, ← Nat.mod_mul_right_mod m _ 256, same]
    have byte : n / 256 ^ k % 256 = m / 256 ^ k % 256 := by
      rw [← Nat.mod_mul_right_div_self, ← Nat.mod_mul_right_div_self, same]
    have digit : UInt8.ofNat (n / 256 ^ k) = UInt8.ofNat (m / 256 ^ k) := by
      rw [← UInt8.toNat_inj, UInt8.toNat_ofNat', UInt8.toNat_ofNat']
      exact byte
    rw [bigEndian, bigEndian, ih low, digit]

/-- Any bytes are those of a number. -/
lemma exists_bigEndian (bytes : List UInt8) :
    ∃ n, n < 256 ^ bytes.length ∧ bigEndian bytes.length n = bytes := by
  induction bytes with
  | nil => exact ⟨0, by decide, rfl⟩
  | cons b bytes ih =>
    obtain ⟨n, small, same⟩ := ih
    have byte := b.toNat_lt
    refine ⟨b.toNat * 256 ^ bytes.length + n, ?_, ?_⟩
    · rw [List.length_cons, Nat.pow_succ]
      have : (b.toNat + 1) * 256 ^ bytes.length ≤ 256 * 256 ^ bytes.length := Nat.mul_le_mul_right _ byte
      rw [Nat.add_mul] at this
      omega
    · have high : (b.toNat * 256 ^ bytes.length + n) / 256 ^ bytes.length = b.toNat := by
        rw [Nat.mul_comm, Nat.mul_add_div (Nat.pow_pos (by decide)), Nat.div_eq_of_lt small, Nat.add_zero]
      have low : bigEndian bytes.length (b.toNat * 256 ^ bytes.length + n) = bytes := by
        rw [bigEndian_mod (m := n) (Nat.mul_add_mod_self_right ..), same]
      rw [List.length_cons, bigEndian, high, low, UInt8.ofNat_toNat]

/-- Eight bytes, the highest first. -/
def uint64 : Wire UInt64 where
  write n := bigEndian 8 n.toNat
  read bytes := (readBigEndian 8 0 bytes).map fun x => (UInt64.ofNat x.1, x.2)
  read_write n rest := by
    simp [readBigEndian_bigEndian]

/-- Any eight bytes are those of a number. -/
lemma exists_uint64 {bytes : List UInt8} (eight : bytes.length = 8) : ∃ n, uint64.write n = bytes := by
  obtain ⟨n, small, same⟩ := exists_bigEndian bytes
  rw [eight] at small same
  refine ⟨UInt64.ofNat n, ?_⟩
  change bigEndian 8 (UInt64.ofNat n).toNat = bytes
  rw [UInt64.toNat_ofNat_of_lt' small, same]

/-- Different values are written differently. -/
lemma write_injective {f : Wire α} : Function.Injective f.write := by
  intro a b same
  have one := f.read_write a []
  rw [same, f.read_write] at one
  exact (congrArg Prod.fst (Option.some.inj one)).symm

/-- Two values one after the other. -/
def both (first : Wire α) (second : Wire β) : Wire (α × β) where
  write x := first.write x.1 ++ second.write x.2
  read bytes := do
    let (a, rest) ← first.read bytes
    let (b, rest) ← second.read rest
    return ((a, b), rest)
  read_write x rest := by
    simp [first.read_write, second.read_write, List.append_assoc]

/-- Values that stand for values of another type. -/
def via (f : Wire α) (encode : β → α) (decode : α → Option β) (inverse : ∀ b, decode (encode b) = some b) :
    Wire β where
  write b := f.write (encode b)
  read bytes := do
    let (a, rest) ← f.read bytes
    let b ← decode a
    return (b, rest)
  read_write b rest := by
    simp [f.read_write, inverse]

/-- A value after its tag. -/
def tagged (tag : UInt8) (f : Wire α) : Wire α where
  write a := tag :: f.write a
  read
    | [] => none
    | b :: rest => if b = tag then f.read rest else none
  read_write a rest := by
    simp [f.read_write]

/-- Bytes after their length. -/
def block : Wire (List UInt8) where
  write bytes := varint.write bytes.length ++ bytes
  read bytes := do
    let (n, rest) ← varint.read bytes
    if n ≤ rest.length then some (rest.take n, rest.drop n) else none
  read_write bytes rest := by
    simp [List.append_assoc, varint.read_write]

/-- A value inside a block that it fills. -/
def sized (f : Wire α) : Wire α :=
  block.via f.write (fun bytes => (f.read bytes).bind fun x => if x.2 = [] then some x.1 else none) fun a => by
    have filled := f.read_write a []
    rw [List.append_nil] at filled
    simp [filled]

/-- Integers: the even numbers stand for those that are not negative. -/
def zigzag : Wire Int :=
  varint.via (fun i => match i with | .ofNat n => 2 * n | .negSucc n => 2 * n + 1)
    (fun n => some (if n % 2 = 0 then .ofNat (n / 2) else .negSucc (n / 2))) fun i => by
      cases i with
      | ofNat n => simp
      | negSucc n => simp [Nat.mul_add_div]

/-- Values one after the other to the end. -/
def writeAll (f : Wire α) (l : List α) : List UInt8 := l.flatMap f.write

/-- Read values to the end. -/
def readAll (f : Wire α) : Nat → List UInt8 → Option (List α)
  | _, [] => some []
  | 0, _ => none
  | fuel + 1, bytes => do
    let (a, rest) ← f.read bytes
    let l ← readAll f fuel rest
    return a :: l

/-- A list is read back if every value takes some bytes. -/
lemma readAll_writeAll {f : Wire α} (nonempty : ∀ a, f.write a ≠ []) {l : List α} :
    ∀ {fuel : Nat}, l.length ≤ fuel → f.readAll fuel (f.writeAll l) = some l := by
  induction l with
  | nil =>
    intro fuel _
    unfold readAll
    rfl
  | cons a rest ih =>
    intro fuel bound
    cases fuel with
    | zero => cases bound
    | succ fuel =>
      have some : f.writeAll (a :: rest) ≠ [] := by
        simp [writeAll, nonempty]
      have head : f.read (f.writeAll (a :: rest)) = .some (a, f.writeAll rest) :=
        f.read_write a (f.writeAll rest)
      rw [readAll.eq_3 _ _ _ some, head]
      simp [ih (Nat.le_of_succ_le_succ bound)]

/-- There are not more values than bytes. -/
lemma length_le_writeAll {f : Wire α} (nonempty : ∀ a, f.write a ≠ []) {l : List α} :
    l.length ≤ (f.writeAll l).length := by
  induction l with
  | nil => exact Nat.zero_le _
  | cons a rest ih =>
    have one : 0 < (f.write a).length := List.length_pos_of_ne_nil (nonempty a)
    rw [writeAll, List.flatMap_cons, List.length_append, List.length_cons]
    rw [writeAll] at ih
    omega

end Wire

end PjCloud.Lib
