import Mathlib.Algebra.Order.Field.Rat
import TwinScreen.Lib.CNumber

/-!
# TwinScreen.Driver.Modes

The display modes of the driver (`driver/src/Driver.cpp`): `float_to_vsync` and
`CreateTargetMode`.

* `floatToVsync_eq` — the rate in lowest terms, and no division by zero on the way.
* `modeExact_iff` — for which modes all the frequencies are what they should be.
-/

namespace TwinScreen.Driver

open Lib

/-- Division as the CPU has it. -/
def checkedDiv (a b : Int) : Option Int := if b = 0 then none else some (a.tdiv b)

/-- The arithmetic of `float`: how a product is rounded, and what `lround` makes of a number
that `long` does not hold. -/
structure FloatUnit where
  round : ℚ → Option ℚ
  beyond : Option ℚ → Int32

/-- Single precision. -/
def binary32 (beyond : Option ℚ → Int32) : FloatUnit := ⟨toFloat, beyond⟩

/-- Exact arithmetic. -/
def exactUnit (beyond : Option ℚ → Int32) : FloatUnit := ⟨some, beyond⟩

/-- `std::lround(refresh_rate * den)`, ten-thousandths of a hertz. -/
def ticks (u : FloatUnit) (refreshRate : Option ℚ) : Int :=
  lround u.beyond (refreshRate.bind fun r => u.round (r * 10000))

/-- `float_to_vsync`: `num` and `den`. -/
def floatToVsync (u : FloatUnit) (refreshRate : Option ℚ) : Option (Int × Int) := do
  let den := 10000
  let num := ticks u refreshRate
  let divisor := Int.gcd num den
  let num ← checkedDiv num divisor
  let den ← checkedDiv den divisor
  return (num, den)

/-- `DISPLAYCONFIG_RATIONAL`. -/
structure Rational where
  numerator : UInt32
  denominator : UInt32
  deriving DecidableEq, Repr

/-- `DISPLAYCONFIG_VIDEO_SIGNAL_INFO`. -/
structure VideoSignalInfo where
  pixelRate : UInt64
  hSyncFreq : Rational
  vSyncFreq : Rational
  activeSize : UInt32 × UInt32
  totalSize : UInt32 × UInt32
  vSyncFreqDivider : UInt32
  videoStandard : UInt32
  progressive : Bool
  deriving DecidableEq, Repr

/-- `CreateTargetMode`. -/
def createTargetMode (width height vSyncNum vSyncDen : UInt32) : Option VideoSignalInfo :=
  if vSyncDen = 0 then
    none
  else
    some {
      totalSize := (width, height)
      activeSize := (width, height)
      vSyncFreqDivider := 1
      videoStandard := 255
      vSyncFreq := ⟨vSyncNum, vSyncDen⟩
      hSyncFreq := ⟨vSyncNum * height, vSyncDen⟩
      progressive := true
      pixelRate := vSyncNum.toUInt64 * width.toUInt64 * height.toUInt64 / vSyncDen.toUInt64 }

/-- A `std::tuple<int, int, int, int>`: the size, and the rate as a fraction. -/
structure ModeTuple where
  width : Int
  height : Int
  vSyncNum : Int
  vSyncDen : Int
  deriving DecidableEq, Repr

/-- The mode of a tuple, whose numbers become unsigned. -/
def ModeTuple.info (m : ModeTuple) : Option VideoSignalInfo :=
  createTargetMode (.ofInt m.width) (.ofInt m.height) (.ofInt m.vSyncNum) (.ofInt m.vSyncDen)

/-! ## the rate -/

theorem ticks_bounds (u : FloatUnit) (refreshRate : Option ℚ) :
    -2 ^ 31 ≤ ticks u refreshRate ∧ ticks u refreshRate < 2 ^ 31 :=
  lround_bounds u.beyond _

/-- A fraction in lowest terms, as `gcd` makes it. -/
theorem checkedDiv_gcd (n : Int) {d : Int} (hd : 0 < d) :
    checkedDiv n (Int.gcd n d) = some ((n : ℚ) / d).num ∧
      checkedDiv d (Int.gcd n d) = some (((n : ℚ) / d).den : Int) := by
  have hpos : 0 < Int.gcd n d := Int.gcd_pos_of_ne_zero_right n hd.ne'
  obtain ⟨a, ha⟩ := @Int.gcd_dvd_left n d
  obtain ⟨b, hb⟩ := @Int.gcd_dvd_right n d
  have hcop := Int.gcd_div_gcd_div_gcd hpos
  generalize Int.gcd n d = g at hpos ha hb hcop ⊢
  have hg : (g : Int) ≠ 0 := by omega
  subst ha hb
  rw [Int.mul_ediv_cancel_left _ hg, Int.mul_ediv_cancel_left _ hg] at hcop
  have hb : 0 < b := pos_of_mul_pos_right hd (by omega)
  have hquot : ((g * a : Int) : ℚ) / (g * b : Int) = (a : ℚ) / b := by
    push_cast
    rw [mul_div_mul_left _ _ (by exact_mod_cast hg)]
  rw [checkedDiv, checkedDiv, if_neg hg, if_neg hg, Int.mul_tdiv_cancel_left _ hg,
    Int.mul_tdiv_cancel_left _ hg, hquot, Rat.num_div_eq_of_coprime hb hcop,
    Rat.den_div_eq_of_coprime hb hcop]
  exact ⟨rfl, rfl⟩

/-- The rate that the driver makes of a refresh rate. -/
def vsyncRate (u : FloatUnit) (refreshRate : Option ℚ) : ℚ := ticks u refreshRate / 10000

/-- **`float_to_vsync` reduces its fraction**, and does not divide by zero. -/
theorem floatToVsync_eq (u : FloatUnit) (refreshRate : Option ℚ) :
    floatToVsync u refreshRate =
      some ((vsyncRate u refreshRate).num, ((vsyncRate u refreshRate).den : Int)) := by
  obtain ⟨hnum, hden⟩ := checkedDiv_gcd (ticks u refreshRate) (show (0 : Int) < 10000 by decide)
  simp only [floatToVsync, hnum, hden, vsyncRate]
  rfl

/-- The tuple of a size and a refresh rate. -/
def modeTuple (u : FloatUnit) (width height : Int) (refreshRate : Option ℚ) : ModeTuple :=
  ⟨width, height, (vsyncRate u refreshRate).num, (vsyncRate u refreshRate).den⟩

theorem vsyncRate_eq (u : FloatUnit) (refreshRate : Option ℚ) :
    vsyncRate u refreshRate = Rat.divInt (ticks u refreshRate) 10000 := by
  rw [Rat.divInt_eq_div, vsyncRate]
  rfl

theorem vsyncRate_den_dvd (u : FloatUnit) (refreshRate : Option ℚ) :
    (vsyncRate u refreshRate).den ∣ 10000 := by
  have h := Rat.den_dvd (ticks u refreshRate) 10000
  rw [← vsyncRate_eq] at h
  exact_mod_cast h

theorem vsyncRate_num_eq_zero_iff (u : FloatUnit) (refreshRate : Option ℚ) :
    (vsyncRate u refreshRate).num = 0 ↔ ticks u refreshRate = 0 := by
  rw [Rat.num_eq_zero, vsyncRate, div_eq_zero_iff, or_iff_left (by norm_num), Int.cast_eq_zero]

theorem natAbs_vsyncRate_num_le (u : FloatUnit) (refreshRate : Option ℚ) :
    (vsyncRate u refreshRate).num.natAbs ≤ 2 ^ 31 := by
  have hbounds := ticks_bounds u refreshRate
  by_cases hzero : ticks u refreshRate = 0
  · rw [(vsyncRate_num_eq_zero_iff u refreshRate).mpr hzero]
    decide
  · have hdvd := Rat.num_dvd (ticks u refreshRate) (show (10000 : Int) ≠ 0 by decide)
    rw [← vsyncRate_eq] at hdvd
    have hle := Nat.le_of_dvd (Int.natAbs_pos.mpr hzero) (Int.natAbs_dvd_natAbs.mpr hdvd)
    omega

theorem vsyncRate_den_bounds (u : FloatUnit) (refreshRate : Option ℚ) :
    0 < (vsyncRate u refreshRate).den ∧ (vsyncRate u refreshRate).den ≤ 10000 :=
  ⟨Rat.den_pos _, Nat.le_of_dvd (by decide) (vsyncRate_den_dvd u refreshRate)⟩

theorem toNat_uint32_ofInt {v : Int} (h : 0 ≤ v ∧ v < 2 ^ 32) :
    ((UInt32.ofInt v).toNat : Int) = v := by
  rw [UInt32.ofInt, UInt32.toNat_ofNat']
  omega

/-! ## the mode -/

def Rational.value (q : Rational) : ℚ := q.numerator.toNat / q.denominator.toNat

/-- The mode of this size has the frequencies of this refresh rate. -/
structure ModeExact (width height : Nat) (r : ℚ) (m : VideoSignalInfo) : Prop where
  lowest : Nat.Coprime m.vSyncFreq.numerator.toNat m.vSyncFreq.denominator.toNat
  divides : m.vSyncFreq.denominator.toNat ∣ 10000
  near : |m.vSyncFreq.value - r| ≤ 1 / 20000
  hSync : m.hSyncFreq.value = m.vSyncFreq.value * height
  pixelRate : (m.pixelRate.toNat : Int) = ⌊m.vSyncFreq.value * width * height⌋
  noWrap32 : m.vSyncFreq.numerator.toNat * height < 2 ^ 32
  noWrap64 : m.vSyncFreq.numerator.toNat * width * height < 2 ^ 64

/-- A refresh rate to the nearest ten-thousandth of a hertz. -/
def nearestRate (r : ℚ) : ℚ := roundAway (r * 10000) / 10000

/-- In exact arithmetic the driver's rate is the nearest one. -/
theorem vsyncRate_exact (beyond : Option ℚ → Int32) {r : ℚ} (hr : 1 / 10000 < r ∧ r ≤ 1000) :
    vsyncRate (exactUnit beyond) (some r) = nearestRate r ∧
      |nearestRate r - r| ≤ 1 / 20000 ∧ 0 < nearestRate r ∧ nearestRate r ≤ 1000 := by
  have hround := abs_le.mp (abs_roundAway_sub_le (r * 10000))
  have hlow : (0 : ℚ) < roundAway (r * 10000) := by linarith
  have hhigh : roundAway (r * 10000) ≤ 10000000 := by
    have hlt : (roundAway (r * 10000) : ℚ) < 10000001 := by linarith
    have hlt' : roundAway (r * 10000) < 10000001 := by exact_mod_cast hlt
    omega
  have hhigh' : (roundAway (r * 10000) : ℚ) ≤ 10000000 := by exact_mod_cast hhigh
  have hlow' : 0 < roundAway (r * 10000) := by exact_mod_cast hlow
  refine ⟨?_, ?_, by rw [nearestRate]; positivity, ?_⟩
  · have hticks : ticks (exactUnit beyond) (some r) = roundAway (r * 10000) :=
      if_pos ⟨by omega, by omega⟩
    rw [vsyncRate, hticks, nearestRate]
  · rw [nearestRate, abs_le]
    constructor <;> linarith
  · rw [nearestRate]
    linarith

/-- The numbers of a mode of this rate and size, in 32 bits and in 64. -/
structure HasRate (q : ℚ) (width height : Nat) (m : VideoSignalInfo) : Prop where
  numerator : m.vSyncFreq.numerator.toNat = q.num.toNat
  denominator : m.vSyncFreq.denominator.toNat = q.den
  hNumerator : m.hSyncFreq.numerator.toNat = q.num.toNat * height % 2 ^ 32
  hDenominator : m.hSyncFreq.denominator = m.vSyncFreq.denominator
  pixelRate : m.pixelRate.toNat = q.num.toNat * width * height / q.den
  bound : q.num.toNat ≤ 10000000

theorem info_modeTuple (u : FloatUnit) {width height : Nat} (hw : width ≤ 16384)
    (hh : height ≤ 16384) (refreshRate : Option ℚ) (hrate : 0 < vsyncRate u refreshRate)
    (hhz : vsyncRate u refreshRate ≤ 1000) :
    ∃ m, (modeTuple u width height refreshRate).info = some m ∧
      HasRate (vsyncRate u refreshRate) width height m := by
  obtain ⟨hden0, hden⟩ := vsyncRate_den_bounds u refreshRate
  have hnum0 : 0 < (vsyncRate u refreshRate).num := Rat.num_pos.mpr hrate
  have hmul := Rat.mul_den_eq_num (vsyncRate u refreshRate)
  rw [modeTuple, ModeTuple.info, createTargetMode]
  generalize vsyncRate u refreshRate = q at *
  have hnum : q.num ≤ 10000000 := by
    have hden' : (q.den : ℚ) ≤ 10000 := by exact_mod_cast hden
    have hcast : (q.num : ℚ) ≤ 10000000 := by
      rw [← hmul]
      nlinarith
    exact_mod_cast hcast
  have hvnum := @toNat_uint32_ofInt q.num (by omega)
  have hvden := @toNat_uint32_ofInt q.den (by omega)
  have hvw := @toNat_uint32_ofInt width (by omega)
  have hvh := @toNat_uint32_ofInt height (by omega)
  generalize UInt32.ofInt q.num = n at hvnum ⊢
  generalize UInt32.ofInt (q.den : Int) = d at hvden ⊢
  generalize UInt32.ofInt (width : Int) = w at hvw ⊢
  generalize UInt32.ofInt (height : Int) = h at hvh ⊢
  have hd : d ≠ 0 := by
    intro hzero
    rw [hzero] at hvden
    have hzero' : (0 : UInt32).toNat = 0 := rfl
    omega
  have hn : n.toNat = q.num.toNat := by omega
  have hd' : d.toNat = q.den := by omega
  have hw' : w.toNat = width := by omega
  have hh' : h.toNat = height := by omega
  rw [if_neg hd]
  refine ⟨_, rfl, hn, hd', ?_, rfl, ?_, by omega⟩
  · rw [UInt32.toNat_mul, hn, hh']
  · have hnw : q.num.toNat * width ≤ 10000000 * 16384 := Nat.mul_le_mul (by omega) hw
    have hnwh : q.num.toNat * width * height ≤ 10000000 * 16384 * 16384 := Nat.mul_le_mul hnw hh
    simp only [UInt64.toNat_div, UInt64.toNat_mul, UInt32.toNat_toUInt64, hn, hd', hw', hh']
    rw [Nat.mod_eq_of_lt (show q.num.toNat * width < 2 ^ 64 by omega),
      Nat.mod_eq_of_lt (show q.num.toNat * width * height < 2 ^ 64 by omega)]

theorem HasRate.value {q : ℚ} {width height : Nat} {m : VideoSignalInfo}
    (h : HasRate q width height m) (hq : 0 < q) :
    ((q.num.toNat : Nat) : ℚ) = q.num ∧ m.vSyncFreq.value = q := by
  have hcast : ((q.num.toNat : Nat) : ℚ) = q.num := by
    exact_mod_cast Int.toNat_of_nonneg (Rat.num_pos.mpr hq).le
  exact ⟨hcast, by rw [Rational.value, h.numerator, h.denominator, hcast, Rat.num_div_den]⟩

/-- **A mode that has its rate** has the other frequencies where the product of 32 bits does
not wrap around. -/
theorem HasRate.exact {q r : ℚ} {width height : Nat} {m : VideoSignalInfo}
    (h : HasRate q width height m) (hq : 0 < q) (hdvd : q.den ∣ 10000)
    (hnear : |q - r| ≤ 1 / 20000) (hw : width ≤ 16384) (hh : height ≤ 16384)
    (hfits : q.num.toNat * height < 2 ^ 32) : ModeExact width height r m := by
  obtain ⟨hcast, hvalue⟩ := h.value hq
  have hnum0 : 0 < q.num := Rat.num_pos.mpr hq
  have hrational := Rat.num_div_den q
  constructor
  · have habs : q.num.toNat = q.num.natAbs := by omega
    rw [h.numerator, h.denominator, habs]
    exact q.reduced
  · rwa [h.denominator]
  · rwa [hvalue]
  · rw [hvalue, Rational.value, h.hNumerator, Nat.mod_eq_of_lt hfits, h.hDenominator,
      h.denominator]
    push_cast
    rw [hcast, mul_div_right_comm, hrational]
  · rw [hvalue, h.pixelRate]
    have hquot : q * width * height =
        ((q.num.toNat * width * height : Nat) : ℚ) / (q.den : Nat) := by
      push_cast
      rw [hcast, mul_div_right_comm, mul_div_right_comm, hrational]
    rw [hquot, Rat.floor_natCast_div_natCast]
    rfl
  · rwa [h.numerator]
  · rw [h.numerator]
    have hnw := Nat.mul_le_mul h.bound hw
    have hnwh := Nat.mul_le_mul hnw hh
    omega

/-- **For which modes all the frequencies are what they should be**: those whose numerator,
in lowest terms, times the height stays within 32 bits. -/
theorem modeExact_iff (beyond : Option ℚ → Int32) (width height : Nat)
    (hw : 1 ≤ width ∧ width ≤ 16384) (hh : 1 ≤ height ∧ height ≤ 16384) (r : ℚ)
    (hr : 1 / 10000 < r ∧ r ≤ 1000) :
    ∃ num den m, floatToVsync (exactUnit beyond) (some r) = some (num, den) ∧
      ModeTuple.info ⟨width, height, num, den⟩ = some m ∧
      (ModeExact width height r m ↔ (nearestRate r).num * height < 2 ^ 32) := by
  obtain ⟨hrate, hnear, hpos, hle⟩ := vsyncRate_exact beyond hr
  obtain ⟨m, hm, hhas⟩ :=
    info_modeTuple (exactUnit beyond) hw.2 hh.2 (some r) (hrate ▸ hpos) (hrate ▸ hle)
  have hdvd := vsyncRate_den_dvd (exactUnit beyond) (some r)
  refine ⟨_, _, m, floatToVsync_eq _ _, hm, ?_⟩
  rw [hrate] at hhas hdvd
  have hnum0 : 0 < (nearestRate r).num := Rat.num_pos.mpr hpos
  have hfits : (nearestRate r).num.toNat * height < 2 ^ 32 ↔
      (nearestRate r).num * height < 2 ^ 32 := by
    rw [← Int.toNat_of_nonneg hnum0.le, Int.toNat_natCast]
    norm_cast
  rw [← hfits]
  constructor
  · intro hexact
    have h32 := hexact.noWrap32
    rwa [hhas.numerator] at h32
  · exact hhas.exact hpos hdvd hnear hw.2 hh.2

theorem modeExact_iff_60Hz : ∃ num den m,
    floatToVsync (exactUnit fun _ => 0) (some 60) = some (num, den) ∧
      ModeTuple.info ⟨(3840 : Nat), (2160 : Nat), num, den⟩ = some m ∧
      (ModeExact 3840 2160 60 m ↔ (nearestRate 60).num * (2160 : Nat) < 2 ^ 32) :=
  modeExact_iff (fun _ => 0) 3840 2160 (by decide) (by decide) 60 (by norm_num)

/-- 3840x2160 at 239.7601 Hz: the horizontal frequency has lost 2^32. -/
theorem hSync_wraps : ∃ num den m,
    floatToVsync (exactUnit fun _ => 0) (some (2397601 / 10000)) = some (num, den) ∧
      ModeTuple.info ⟨3840, 2160, num, den⟩ = some m ∧ m.hSyncFreq = ⟨883850864, 10000⟩ ∧
      ¬ ModeExact 3840 2160 (2397601 / 10000) m := by
  refine ⟨2397601, 10000, _, by decide +kernel, rfl, rfl, fun h => ?_⟩
  exact absurd h.noWrap32 (by decide)

end TwinScreen.Driver
