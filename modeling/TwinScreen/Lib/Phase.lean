import Mathlib.Algebra.Order.Archimedean.Basic
import Mathlib.Algebra.Order.Floor.Semiring
import Mathlib.Tactic.FieldSimp
import Mathlib.Tactic.Linarith
import Mathlib.Tactic.Ring

/-!
# TwinScreen.Lib.Phase

Phase accumulation.  The ticks of a clock of period `step` fall on `0`, `step`,
`2 * step` and so on; a line of whole units is met interval by interval, and from
one interval to the next only the distance to the next tick is carried over.

* `ceil_carry` — starting at the carried distance, the ticks of the next interval
  are those of the line.
* `abs_ticksBefore_sub_le` — their number is within one of the quotient.
* `eq_of_bounded_drift` — two rates that never drift apart are one.
-/

namespace Lib

variable {K : Type*} [Field K] [LinearOrder K] [IsStrictOrderedRing K]

/-- Two steady rates that stay within a bound of each other are one. -/
theorem eq_of_bounded_drift [Archimedean K] {a b bound : K}
    (h : ∀ N : Nat, |a * N - b * N| ≤ bound) : a = b := by
  by_contra hne
  have hgap : 0 < |a - b| := abs_pos.mpr (sub_ne_zero.mpr hne)
  obtain ⟨N, hN⟩ := exists_nat_gt (bound / |a - b|)
  rw [div_lt_iff₀ hgap] at hN
  have hdrift := h N
  rw [← sub_mul, abs_mul, Nat.abs_cast] at hdrift
  linarith

variable [FloorSemiring K]

/-- The number of ticks below `n`. -/
def ticksBefore (step : K) (n : Nat) : Nat := ⌈(n : K) / step⌉₊

/-- From `n` to the first tick that is not below it. -/
def carry (step : K) (n : Nat) : K := ticksBefore step n * step - n

@[simp] theorem ticksBefore_zero (step : K) : ticksBefore step 0 = 0 := by simp [ticksBefore]

@[simp] theorem carry_zero (step : K) : carry step 0 = 0 := by simp [carry]

variable {step : K}

theorem ticksBefore_mono (hstep : 0 < step) {m n : Nat} (h : m ≤ n) :
    ticksBefore step m ≤ ticksBefore step n := by
  apply Nat.ceil_mono
  gcongr

theorem carry_nonneg (hstep : 0 < step) (n : Nat) : 0 ≤ carry step n := by
  have h : (n : K) / step ≤ ticksBefore step n := Nat.le_ceil _
  rw [div_le_iff₀ hstep] at h
  simpa [carry] using h

/-- Over the next `f` units the carried distance counts the ticks of the line. -/
theorem ceil_carry (hstep : 0 < step) (n f : Nat) :
    ⌈((f : K) - carry step n) / step⌉₊ = ticksBefore step (n + f) - ticksBefore step n := by
  have h : ((f : K) - carry step n) / step = ((n + f : Nat) : K) / step - ticksBefore step n := by
    simp only [carry]
    push_cast
    field_simp
    ring
  rw [h, Nat.ceil_sub_natCast, ← ticksBefore]

/-- Advancing past these ticks leaves the distance carried on. -/
theorem carry_add (hstep : 0 < step) (n f : Nat) :
    carry step n + (ticksBefore step (n + f) - ticksBefore step n : Nat) * step - f =
      carry step (n + f) := by
  rw [Nat.cast_sub (ticksBefore_mono hstep (Nat.le_add_right n f))]
  simp only [carry]
  push_cast
  ring

/-- As many ticks as the quotient, to within one. -/
theorem abs_ticksBefore_sub_le (hstep : 0 < step) (n : Nat) :
    |(ticksBefore step n : K) - n / step| ≤ 1 := by
  have hnonneg : 0 ≤ (n : K) / step := div_nonneg n.cast_nonneg hstep.le
  have hle : (n : K) / step ≤ ticksBefore step n := Nat.le_ceil _
  have hlt : (ticksBefore step n : K) < n / step + 1 := Nat.ceil_lt_add_one hnonneg
  rw [abs_le]
  constructor <;> linarith

end Lib
