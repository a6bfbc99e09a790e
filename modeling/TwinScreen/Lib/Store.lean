import Mathlib.Algebra.Ring.Nat
import Mathlib.Logic.Function.Basic

/-!
# TwinScreen.Lib.Store

Stores to a memory, in the order they are made, and addresses of a raster of
rows, with the rounding that its sides are given.

* `storeAll_of_mem` — an address to which every store agrees holds that value.
* `storeAll_of_not_mem` — an address without a store keeps what it held.
* `raster_inj` — a raster address has one row and one column.
* `and_highMask` — a mask of the low bits rounds down.
-/

namespace Lib

/-! ## stores -/

variable {V : Type*}

/-- A memory after a list of stores. -/
def storeAll (m : Nat → V) (ws : List (Nat × V)) : Nat → V :=
  ws.foldl (fun m w => Function.update m w.1 w.2) m

theorem storeAll_cons (m : Nat → V) (w : Nat × V) (ws : List (Nat × V)) :
    storeAll m (w :: ws) = storeAll (Function.update m w.1 w.2) ws := rfl

/-- An address without a store keeps what it held. -/
theorem storeAll_of_not_mem {m : Nat → V} {ws : List (Nat × V)} {a : Nat}
    (h : ∀ v, (a, v) ∉ ws) : storeAll m ws a = m a := by
  induction ws generalizing m with
  | nil => rfl
  | cons w ws ih =>
      have hne : a ≠ w.1 := by
        rintro rfl
        exact h w.2 (by simp)
      rw [storeAll_cons, ih fun v hv => h v (List.mem_cons_of_mem w hv)]
      exact Function.update_of_ne hne w.2 m

/-- An address to which every store agrees holds that value. -/
theorem storeAll_of_mem {m : Nat → V} {ws : List (Nat × V)} {a : Nat} {v : V}
    (hmem : (a, v) ∈ ws) (hagree : ∀ v', (a, v') ∈ ws → v' = v) : storeAll m ws a = v := by
  induction ws generalizing m with
  | nil => simp at hmem
  | cons w ws ih =>
      have hrest (v') (hv : (a, v') ∈ ws) : v' = v := hagree v' (List.mem_cons_of_mem w hv)
      rw [storeAll_cons]
      by_cases hlater : (a, v) ∈ ws
      · exact ih hlater hrest
      · have hw : w = (a, v) := by
          rcases List.mem_cons.mp hmem with h | h
          · exact h.symm
          · exact absurd h hlater
        have hlast : ∀ v', (a, v') ∉ ws := by
          intro v' hv
          rw [hrest v' hv] at hv
          exact hlater hv
        rw [storeAll_of_not_mem hlast, hw]
        simp

/-! ## rasters -/

/-- An address of a raster of rows of `pitch` has one row and one column. -/
theorem raster_inj {pitch r r' c c' : Nat} (hc : c < pitch) (hc' : c' < pitch)
    (h : r * pitch + c = r' * pitch + c') : r = r' ∧ c = c' := by
  have hpitch : 0 < pitch := by omega
  have hleft := (Nat.div_mod_unique (d := r) hpitch).mpr ⟨rfl, hc⟩
  have hright := (Nat.div_mod_unique (d := r') hpitch).mpr ⟨rfl, hc'⟩
  rw [Nat.mul_comm r, Nat.mul_comm r', Nat.add_comm _ c, Nat.add_comm _ c'] at h
  rw [h] at hleft
  exact ⟨hleft.1.symm.trans hright.1, hleft.2.symm.trans hright.2⟩

/-! ## alignment -/

/-- A value above the bits of another is added to it by `|`. -/
theorem or_shiftLeft {n k : Nat} (hn : n < 2 ^ k) (m : Nat) : n ||| m <<< k = n + m * 2 ^ k := by
  rw [Nat.or_comm, ← Nat.shiftLeft_add_eq_or_of_lt hn, Nat.shiftLeft_eq, Nat.add_comm]

/-- Masking off the low `k` bits of a value of `k + m` bits rounds it down. -/
theorem and_highMask {n k m : Nat} (h : n < 2 ^ (k + m)) :
    n &&& (2 ^ m - 1) <<< k = n / 2 ^ k * 2 ^ k := by
  have hhigh : n >>> k &&& 2 ^ m - 1 = n >>> k := by
    apply Nat.and_two_pow_sub_one_of_lt_two_pow
    rw [Nat.shiftRight_eq_div_pow, Nat.div_lt_iff_lt_mul (Nat.two_pow_pos k)]
    rwa [Nat.mul_comm, ← Nat.pow_add]
  calc n &&& (2 ^ m - 1) <<< k
      = (n >>> k &&& 2 ^ m - 1) <<< k := by
        apply Nat.eq_of_testBit_eq
        intro i
        by_cases hi : k ≤ i <;> simp [hi, Bool.and_comm]
    _ = n / 2 ^ k * 2 ^ k := by rw [hhigh, Nat.shiftLeft_eq, Nat.shiftRight_eq_div_pow]

end Lib
