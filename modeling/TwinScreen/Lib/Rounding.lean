import Mathlib.Data.Rat.Floor

/-!
# TwinScreen.Lib.Rounding

Rational numbers as integers and as binary floating-point numbers.

`truncate` cuts off toward zero, as the casts to integers have it; `truncate_lt_iff` and
`abs_truncate_lt_iff` move a bound between a number and its integer part.  `roundAway`
is the nearest integer as `lround` has it.  `roundBinary` is the nearest number of a
binary format, ties to even.
-/

namespace Lib

/-- The integer part, toward zero. -/
def truncate (v : ℚ) : Int := v.num.tdiv v.den

theorem truncate_of_nonneg {v : ℚ} (h : 0 ≤ v) : truncate v = ⌊v⌋ := by
  rw [truncate, Int.tdiv_eq_ediv_of_nonneg (Rat.num_nonneg.mpr h), Rat.floor_def']

@[simp] theorem truncate_neg (v : ℚ) : truncate (-v) = -truncate v := by
  rw [truncate, Rat.num_neg_eq_neg_num, Rat.den_neg_eq_den, Int.neg_tdiv, truncate]

theorem truncate_nonneg {v : ℚ} (h : 0 ≤ v) : 0 ≤ truncate v := by
  rw [truncate_of_nonneg h]
  exact Int.floor_nonneg.mpr h

theorem truncate_nonpos {v : ℚ} (h : v ≤ 0) : truncate v ≤ 0 := by
  have hneg := truncate_nonneg (neg_nonneg.mpr h)
  rw [truncate_neg] at hneg
  omega

/-- A positive bound on the number is one on its integer part. -/
theorem truncate_lt_iff {v : ℚ} {n : Int} (hn : 0 < n) : truncate v < n ↔ v < n := by
  rcases le_total 0 v with h | h
  · rw [truncate_of_nonneg h, Int.floor_lt]
  · have htrunc := truncate_nonpos h
    have hn' : (0 : ℚ) < n := Int.cast_pos.mpr hn
    exact iff_of_true (by omega) (by linarith)

theorem neg_lt_truncate_iff {v : ℚ} {n : Int} (hn : 0 < n) : -n < truncate v ↔ -(n : ℚ) < v := by
  have h := @truncate_lt_iff (-v) n hn
  rw [truncate_neg, neg_lt] at h
  rw [h, neg_lt]

theorem abs_truncate_lt_iff {v : ℚ} {n : Int} (hn : 0 < n) : |truncate v| < n ↔ |v| < n := by
  rw [abs_lt, abs_lt, truncate_lt_iff hn, neg_lt_truncate_iff hn]

theorem truncate_mono {v w : ℚ} (h : v ≤ w) : truncate v ≤ truncate w := by
  rcases le_total 0 v with hv | hv
  · rw [truncate_of_nonneg hv, truncate_of_nonneg (hv.trans h)]
    exact Int.floor_mono h
  · rcases le_total 0 w with hw | hw
    · exact (truncate_nonpos hv).trans (truncate_nonneg hw)
    · have hneg := Int.floor_mono (neg_le_neg h)
      rw [← truncate_of_nonneg (neg_nonneg.mpr hw), ← truncate_of_nonneg (neg_nonneg.mpr hv),
        truncate_neg, truncate_neg] at hneg
      omega

/-! ## the nearest integer -/

/-- The nearest integer, halves away from zero. -/
def roundAway (v : ℚ) : Int := if 0 ≤ v then truncate (v + 1 / 2) else truncate (v - 1 / 2)

/-- Half is the most that rounding changes. -/
theorem abs_roundAway_sub_le (v : ℚ) : |(roundAway v : ℚ) - v| ≤ 1 / 2 := by
  rw [roundAway]
  split
  · next h =>
      rw [truncate_of_nonneg (by linarith), abs_le]
      have hlow := Int.lt_floor_add_one (v + 1 / 2)
      have hhigh := Int.floor_le (v + 1 / 2)
      constructor <;> linarith
  · next h =>
      have hneg : truncate (v - 1 / 2) = -⌊-v + 1 / 2⌋ := by
        rw [← truncate_of_nonneg (by linarith), ← truncate_neg]
        congr 1
        ring
      rw [hneg, abs_le]
      have hlow := Int.lt_floor_add_one (-v + 1 / 2)
      have hhigh := Int.floor_le (-v + 1 / 2)
      push_cast
      constructor <;> linarith

/-! ## binary formats -/

/-- The nearest integer, halves to the even one. -/
def roundEven (v : ℚ) : Int :=
  let k := v.num / v.den
  if v - k < 1 / 2 then k
  else if 1 / 2 < v - k then k + 1
  else k + k % 2

/-- The exponent of the leading bit of a number other than 0. -/
def floorLog2 (v : ℚ) : Int :=
  let e : Int := v.num.natAbs.log2 - v.den.log2
  if (2 : ℚ) ^ e ≤ |v| then e else e - 1

/-- The nearest number with `prec` significant bits and no bit below the exponent `emin`. -/
def roundBinary (prec : Nat) (emin : Int) (v : ℚ) : ℚ :=
  if v = 0 then 0
  else
    let e := max (floorLog2 v + 1 - prec) emin
    roundEven (v / 2 ^ e) * 2 ^ e

/-- A format with exponents below `emax`; there is no finite number beyond. -/
def toBinary (prec : Nat) (emin emax : Int) (v : ℚ) : Option ℚ :=
  let r := roundBinary prec emin v
  if |r| < 2 ^ emax then some r else none

/-- `double` and `float`. -/
def toDouble (v : ℚ) : Option ℚ := toBinary 53 (-1074) 1024 v
def toFloat (v : ℚ) : Option ℚ := toBinary 24 (-149) 128 v

example : toFloat (1 / 10) = some (13421773 / 134217728) := by decide +kernel
example : toFloat 600000 = some 600000 := by decide +kernel

end Lib
