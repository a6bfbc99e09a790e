/-!
# TwinScreen.Lib.Utf16

Strings as UTF-16 code units, and their UTF-8 bytes as the encoders of the Java
platform write them: a surrogate without its partner becomes a question mark.

* `length_utf8` — how many bytes a string takes.
* `zero_mem_utf8_iff` — only U+0000 is written as a zero byte.
-/

namespace Lib

def isHighSurrogate (u : UInt16) : Bool := 0xD800 ≤ u && u < 0xDC00
def isLowSurrogate (u : UInt16) : Bool := 0xDC00 ≤ u && u < 0xE000

/-- A byte that is not the first of its character. -/
def utf8Tail (v : Nat) : UInt8 := UInt8.ofNat (0x80 + v % 64)

/-- The bytes of a unit that is not half of a pair. -/
def utf8Unit (u : UInt16) : List UInt8 :=
  let v := u.toNat
  if v < 0x80 then [UInt8.ofNat v]
  else if v < 0x800 then [UInt8.ofNat (0xC0 + v / 64), utf8Tail v]
  else if isHighSurrogate u || isLowSurrogate u then [0x3F]
  else [UInt8.ofNat (0xE0 + v / 4096), utf8Tail (v / 64), utf8Tail v]

/-- The bytes of a surrogate pair. -/
def utf8Pair (high low : UInt16) : List UInt8 :=
  let v := 0x10000 + (high.toNat - 0xD800) * 1024 + (low.toNat - 0xDC00)
  [UInt8.ofNat (0xF0 + v / 262144), utf8Tail (v / 4096), utf8Tail (v / 64), utf8Tail v]

/-- `toByteArray(Charsets.UTF_8)`. -/
def utf8 : List UInt16 → List UInt8
  | [] => []
  | [u] => utf8Unit u
  | u :: v :: us =>
      if isHighSurrogate u && isLowSurrogate v then
        utf8Pair u v ++ utf8 us
      else
        utf8Unit u ++ utf8 (v :: us)

/-! ## how many bytes -/

/-- The bytes of a unit that is not half of a pair: one in ASCII and for a lone
surrogate, two below U+0800, otherwise three. -/
def unitWidth (u : UInt16) : Nat :=
  if u < 0x80 then 1
  else if u < 0x800 then 2
  else if isHighSurrogate u || isLowSurrogate u then 1
  else 3

/-- The bytes of a string, four for a surrogate pair. -/
def utf8Width : List UInt16 → Nat
  | [] => 0
  | [u] => unitWidth u
  | u :: v :: us =>
      if isHighSurrogate u && isLowSurrogate v then 4 + utf8Width us
      else unitWidth u + utf8Width (v :: us)

theorem length_utf8Unit (u : UInt16) : (utf8Unit u).length = unitWidth u := by
  have hascii : u < 0x80 ↔ u.toNat < 0x80 := UInt16.lt_iff_toNat_lt
  have htwo : u < 0x800 ↔ u.toNat < 0x800 := UInt16.lt_iff_toNat_lt
  simp only [utf8Unit, unitWidth, hascii, htwo]
  split
  · simp
  · split
    · simp
    · split <;> simp

theorem length_utf8 (us : List UInt16) : (utf8 us).length = utf8Width us := by
  fun_induction utf8 us with
  | case1 => rw [utf8Width, List.length_nil]
  | case2 u => rw [utf8Width, length_utf8Unit]
  | case3 u v us hpair ih =>
      rw [utf8Width, if_pos hpair, List.length_append, ih]
      simp [utf8Pair]
  | case4 u v us hpair ih =>
      rw [utf8Width, if_neg hpair, List.length_append, length_utf8Unit, ih]

/-! ## zero bytes -/

theorem ofNat_ne_zero {n : Nat} (h0 : 0 < n) (h : n < 256) : (0 : UInt8) ≠ UInt8.ofNat n := by
  intro heq
  have hnat := congrArg UInt8.toNat heq
  simp at hnat
  omega

theorem utf8Tail_ne_zero (v : Nat) : (0 : UInt8) ≠ utf8Tail v :=
  ofNat_ne_zero (by omega) (by omega)

theorem zero_mem_utf8Unit_iff (u : UInt16) : 0 ∈ utf8Unit u ↔ 0 = u := by
  have hu : u.toNat < 65536 := u.toNat_lt
  have hzero : (0 : UInt16) = u ↔ u.toNat = 0 := by
    rw [eq_comm, ← UInt16.toNat_inj]
    simp
  rw [hzero]
  simp only [utf8Unit]
  split
  · next h =>
      by_cases h0 : u.toNat = 0
      · simp [h0]
      · have hbyte := ofNat_ne_zero (n := u.toNat) (by omega) (by omega)
        simp only [List.mem_singleton, hbyte, h0]
  · next h =>
      have hne : u.toNat ≠ 0 := by omega
      split
      · have hhead := ofNat_ne_zero (n := 0xC0 + u.toNat / 64) (by omega) (by omega)
        simp only [List.mem_cons, hhead, utf8Tail_ne_zero, List.not_mem_nil, or_self, hne]
      · split
        · simp [hne]
        · have hhead := ofNat_ne_zero (n := 0xE0 + u.toNat / 4096) (by omega) (by omega)
          simp only [List.mem_cons, hhead, utf8Tail_ne_zero, List.not_mem_nil, or_self, hne]

theorem zero_not_mem_utf8Pair {high low : UInt16} (hhigh : isHighSurrogate high = true)
    (hlow : isLowSurrogate low = true) : 0 ∉ utf8Pair high low := by
  simp only [isHighSurrogate, isLowSurrogate, Bool.and_eq_true, decide_eq_true_eq,
    UInt16.le_iff_toNat_le, UInt16.lt_iff_toNat_lt] at hhigh hlow
  simp at hhigh hlow
  have hhead := ofNat_ne_zero
    (n := 0xF0 + (0x10000 + (high.toNat - 0xD800) * 1024 + (low.toNat - 0xDC00)) / 262144)
    (by omega) (by omega)
  simp only [utf8Pair, List.mem_cons, hhead, utf8Tail_ne_zero, List.not_mem_nil, or_self,
    not_false_eq_true]

/-- Only U+0000 is written as a zero byte. -/
theorem zero_mem_utf8_iff (us : List UInt16) : 0 ∈ utf8 us ↔ 0 ∈ us := by
  fun_induction utf8 us with
  | case1 => simp
  | case2 u => simp [zero_mem_utf8Unit_iff]
  | case3 u v us hpair ih =>
      obtain ⟨hhigh, hlow⟩ := Bool.and_eq_true_iff.mp hpair
      -- neither half of a pair is U+0000
      have hu : 0 ≠ u := by rintro rfl; simp [isHighSurrogate] at hhigh
      have hv : 0 ≠ v := by rintro rfl; simp [isLowSurrogate] at hlow
      simp [zero_not_mem_utf8Pair hhigh hlow, ih, hu, hv]
  | case4 u v us hpair ih =>
      rw [List.mem_append, ih, zero_mem_utf8Unit_iff, List.mem_cons (b := u)]

end Lib
