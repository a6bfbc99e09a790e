import Mathlib.Data.Nat.Digits.Defs

/-!
# TwinScreen.Lib.LittleEndian

Little-endian byte strings: `leBytes n v` writes the low `n` bytes of `v`,
`leNat` reads a byte string back as a natural number, and `leInt` reads it
as a two's complement integer of its own width.

What was written in a field of `n` bytes is read back from it
(`leNat_leBytes`), which is all a field-by-field codec needs.
-/

namespace Lib

/-! ## writing and reading -/

/-- The low `n` bytes of `v`, least significant first. -/
def leBytes : Nat → Nat → List UInt8
  | 0, _ => []
  | n + 1, v => UInt8.ofNat v :: leBytes n (v / 256)

/-- The value of a little-endian byte string. -/
def leNat : List UInt8 → Nat
  | [] => 0
  | b :: bs => b.toNat + 256 * leNat bs

/-- The value of a little-endian byte string read as a two's complement
integer of the string's own width. -/
def leInt (bs : List UInt8) : Int := (leNat bs : Int).bmod (256 ^ bs.length)

@[simp] theorem length_leBytes (n v : Nat) : (leBytes n v).length = n := by
  induction n generalizing v with
  | zero => rfl
  | succ n ih => simp [leBytes, ih]

@[simp] theorem leNat_nil : leNat [] = 0 := rfl

theorem leNat_cons (b : UInt8) (bs : List UInt8) : leNat (b :: bs) = b.toNat + 256 * leNat bs :=
  rfl

/-- `leNat` is the base-256 digit sum. -/
theorem leNat_eq_ofDigits (bs : List UInt8) : leNat bs = Nat.ofDigits 256 (bs.map UInt8.toNat) := by
  induction bs with
  | nil => rfl
  | cons b bs ih => simp [leNat_cons, Nat.ofDigits_cons, ih]

theorem leNat_lt (bs : List UInt8) : leNat bs < 256 ^ bs.length := by
  have h := Nat.ofDigits_lt_base_pow_length (b := 256) (l := bs.map UInt8.toNat) (by omega)
    (fun x hx => by
      obtain ⟨b, -, rfl⟩ := List.mem_map.mp hx
      exact b.toNat_lt)
  simpa [leNat_eq_ofDigits] using h

/-! ## the two roundtrips -/

/-- Reading back what was written gives the value modulo the width. -/
theorem leNat_leBytes (n v : Nat) : leNat (leBytes n v) = v % 256 ^ n := by
  induction n generalizing v with
  | zero => simp [leBytes, Nat.mod_one]
  | succ n ih =>
      rw [leBytes, leNat_cons, ih, Nat.pow_succ, Nat.mul_comm _ 256, Nat.mod_mul]
      simp

/-- A value that fits its width reads back unchanged. -/
theorem leNat_leBytes_of_lt {n v : Nat} (h : v < 256 ^ n) : leNat (leBytes n v) = v := by
  rw [leNat_leBytes, Nat.mod_eq_of_lt h]

/-- Writing what was read gives the bytes back. -/
theorem leBytes_leNat (bs : List UInt8) : leBytes bs.length (leNat bs) = bs := by
  induction bs with
  | nil => rfl
  | cons b bs ih =>
      have hb := b.toNat_lt
      have hdiv : (b.toNat + 256 * leNat bs) / 256 = leNat bs := by omega
      rw [List.length_cons, leBytes, leNat_cons, hdiv, ih]
      congr 1
      apply UInt8.toNat_inj.mp
      rw [UInt8.toNat_ofNat']
      omega

/-! ## packed structs -/

/-- A packed struct in memory: its fields in order, each a width and a value. -/
def packed : List (Nat × Nat) → List UInt8
  | [] => []
  | (n, v) :: fs => leBytes n v ++ packed fs

/-- The size of a packed struct. -/
def width : List (Nat × Nat) → Nat
  | [] => 0
  | (n, _) :: fs => n + width fs

/-- The `n`-byte value at an offset. -/
def fieldAt (bs : List UInt8) (i n : Nat) : Nat := leNat ((bs.drop i).take n)

@[simp] theorem length_packed (fs : List (Nat × Nat)) : (packed fs).length = width fs := by
  induction fs with
  | nil => rfl
  | cons f fs ih => simp [packed, width, ih]

theorem packed_append (fs gs : List (Nat × Nat)) : packed (fs ++ gs) = packed fs ++ packed gs := by
  induction fs with
  | nil => rfl
  | cons f fs ih => simp [packed, ih]

/-- Each field of a packed struct is found at the width of the fields before it,
whatever follows the struct. -/
theorem fieldAt_packed (pre : List (Nat × Nat)) (n v : Nat) (post : List (Nat × Nat))
    (rest : List UInt8) :
    fieldAt (packed (pre ++ (n, v) :: post) ++ rest) (width pre) n = v % 256 ^ n := by
  rw [fieldAt, packed_append, packed, List.append_assoc, ← length_packed pre, List.drop_left,
    List.append_assoc, List.take_append_of_le_length (by simp), List.take_of_length_le (by simp),
    leNat_leBytes]

/-- A field inside the first `k` bytes does not depend on what follows them. -/
theorem fieldAt_take {bs : List UInt8} {i n k : Nat} (h : i + n ≤ k) :
    fieldAt (bs.take k) i n = fieldAt bs i n := by
  rw [fieldAt, fieldAt, List.drop_take, List.take_take, Nat.min_eq_left (by omega)]

/-- A field is bounded by its width. -/
theorem fieldAt_lt (bs : List UInt8) (i n : Nat) : fieldAt bs i n < 256 ^ n :=
  Nat.lt_of_lt_of_le (leNat_lt _) (Nat.pow_le_pow_right (by decide) (by simp))

/-! ## two's complement -/

/-- Balanced remainder of a number already in range: the upper half wraps. -/
theorem bmod_of_lt {n p : Nat} (h : n < p) :
    (n : Int).bmod p = if 2 * n < p then (n : Int) else n - p := by
  have hmod : (n : Int) % (p : Int) = n := Int.emod_eq_of_lt (by omega) (by omega)
  rw [Int.bmod_def, hmod]
  split <;> split <;> omega

/-- A number of the lower half is the balanced remainder of itself only. -/
theorem bmod_eq_natCast_iff {n m p : Nat} (hn : n < p) (hm : 2 * m < p) :
    (n : Int).bmod p = m ↔ n = m := by
  rw [bmod_of_lt hn]
  split <;> omega

/-- A zero byte below the others makes 256 times the number. -/
theorem leInt_zero_cons (bs : List UInt8) : leInt (0 :: bs) = 256 * leInt bs := by
  have hlt := leNat_lt bs
  have hlt' : 256 * leNat bs < 256 * 256 ^ bs.length := by omega
  rw [leInt, leInt, leNat_cons, List.length_cons, Nat.pow_succ', bmod_of_lt hlt]
  simp only [UInt8.toNat_zero, Nat.zero_add]
  rw [bmod_of_lt hlt']
  split <;> split <;> push_cast <;> omega

/-- Zero bytes below the others are a power of 256. -/
theorem leInt_zeros_append (n : Nat) (bs : List UInt8) :
    leInt (List.replicate n 0 ++ bs) = 256 ^ n * leInt bs := by
  induction n with
  | zero => simp
  | succ n ih =>
      rw [List.replicate_succ, List.cons_append, leInt_zero_cons, ih, Int.pow_succ', Int.mul_assoc]

/-- A field read as a signed number. -/
theorem leInt_field {bs : List UInt8} {i n : Nat} (h : i + n ≤ bs.length) :
    leInt ((bs.drop i).take n) = (fieldAt bs i n : Int).bmod (256 ^ n) := by
  rw [leInt, fieldAt, List.length_take, List.length_drop, Nat.min_eq_left (by omega)]

/-- A value of the lower half reads back as itself, signed or not. -/
theorem leInt_leBytes_of_lt {n v : Nat} (h : 2 * v < 256 ^ n) : leInt (leBytes n v) = v := by
  have hlt : v < 256 ^ n := by omega
  rw [leInt, leNat_leBytes_of_lt hlt, length_leBytes]
  have hbmod := bmod_of_lt hlt
  rw [if_pos h] at hbmod
  simpa using hbmod

/-- A signed number is the unsigned one, or that one less the width. -/
theorem leInt_eq (bs : List UInt8) :
    leInt bs = if 2 * leNat bs < 256 ^ bs.length then (leNat bs : Int)
      else leNat bs - (256 ^ bs.length : Nat) := by
  rw [← bmod_of_lt (leNat_lt bs), leInt]

theorem toNat_leInt_lt (bs : List UInt8) : (leInt bs).toNat < 256 ^ bs.length := by
  have hlt := leNat_lt bs
  have hsign := leInt_eq bs
  split at hsign <;> omega

/-- Bytes that read as a signed number of 0 or more are those of that number. -/
theorem leBytes_leInt_iff (bs : List UInt8) :
    leBytes bs.length (leInt bs).toNat = bs ↔ 0 ≤ leInt bs := by
  have hlt := leNat_lt bs
  have hsign := leInt_eq bs
  constructor
  · intro h
    by_contra hneg
    have hzero : (leInt bs).toNat = 0 := by omega
    have hread := congrArg leNat h
    rw [hzero, leNat_leBytes, Nat.zero_mod] at hread
    split at hsign <;> omega
  · intro h
    have hnat : (leInt bs).toNat = leNat bs := by
      split at hsign <;> omega
    rw [hnat, leBytes_leNat]

/-- `v and 0xFF..FF`, with ones in the low `n` bytes. -/
def maskBytes (n : Nat) (v : Int) : Int := v % 256 ^ n

/-- Masked to its width, what was written reads back without a sign. -/
theorem maskBytes_leInt_leBytes {n v : Nat} (h : v < 256 ^ n) :
    maskBytes n (leInt (leBytes n v)) = v := by
  rw [maskBytes, leInt, leNat_leBytes_of_lt h, length_leBytes]
  have hmod : (v : Int) % ((256 ^ n : Nat) : Int) = v := Int.emod_eq_of_lt (by omega) (by omega)
  rw [← Int.bmod_emod (x := v) (m := 256 ^ n)] at hmod
  simpa using hmod

/-- The low `n` bytes of a two's complement number. -/
def lowBytes (n : Nat) (v : Int) : List UInt8 := leBytes n (maskBytes n v).toNat

@[simp] theorem length_lowBytes (n : Nat) (v : Int) : (lowBytes n v).length = n :=
  length_leBytes n _

/-- A natural number that fits is written as it is. -/
theorem lowBytes_natCast {n v : Nat} (h : v < 256 ^ n) : lowBytes n v = leBytes n v := by
  have hmask : maskBytes n v = v := Int.emod_eq_of_lt (by omega) (by exact_mod_cast h)
  rw [lowBytes, hmask, Int.toNat_natCast]

/-- Narrowing to the width first does not change the bytes. -/
theorem lowBytes_bmod (n : Nat) (v : Int) : lowBytes n (v.bmod (256 ^ n)) = lowBytes n v := by
  have hmod : v.bmod (256 ^ n) % ((256 ^ n : Nat) : Int) = v % ((256 ^ n : Nat) : Int) :=
    Int.bmod_emod
  rw [lowBytes, lowBytes, maskBytes, maskBytes]
  simpa using congrArg (fun w => leBytes n w.toNat) hmod

end Lib
