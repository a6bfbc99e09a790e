import Mathlib.Data.List.MinMax

/-!
# TwinScreen.Lib.Least

Loops that keep the best element met so far, with its measure in an accumulator of its own.

* `foldl_keepBest` — they end with the first element of the least measure below their limit.
-/

namespace Lib

variable {α β : Type} [LinearOrder β]

/-- One turn: `a` is kept when it counts and its measure is below the best so far. -/
def keepBest (p : α → Bool) (d : α → β) (acc : β × Option α) (a : α) : β × Option α :=
  if p a = false then acc else if d a < acc.1 then (d a, some a) else acc

/-- The elements that count, with a measure below the limit. -/
def eligible (p : α → Bool) (d : α → β) (limit : β) (as : List α) : List α :=
  as.filter fun a => p a && decide (d a < limit)

variable (p : α → Bool) (d : α → β) (limit : β)

/-- The first of the least of them. -/
def least (as : List α) : Option α := (eligible p d limit as).argmin d

theorem eligible_concat (as : List α) (a : α) :
    eligible p d limit (as ++ [a]) =
      eligible p d limit as ++ if p a && decide (d a < limit) then [a] else [] := by
  rw [eligible, List.filter_append, List.filter_singleton, Bool.cond_eq_ite]
  rfl

theorem lt_of_argmin_eligible {as : List α} {b : α}
    (h : (eligible p d limit as).argmin d = some b) : d b < limit := by
  have hmem := List.argmin_mem h
  simp only [eligible, List.mem_filter, Bool.and_eq_true, decide_eq_true_eq] at hmem
  exact hmem.2.2

/-- **The accumulators of the loop**: the first of the least so far, and its measure. -/
theorem foldl_keepBest (as : List α) :
    as.foldl (keepBest p d) (limit, none) =
      ((least p d limit as).elim limit d, least p d limit as) := by
  unfold least
  induction as using List.reverseRecOn with
  | nil => rfl
  | append_singleton as a ih =>
      rw [List.foldl_concat, ih, eligible_concat, keepBest]
      cases hp : p a with
      | false => simp
      | true =>
          rw [if_neg (by decide)]
          cases hbest : (eligible p d limit as).argmin d with
          | none =>
              have hnil : eligible p d limit as = [] := List.argmin_eq_none.mp hbest
              by_cases hlt : d a < limit <;> simp [hnil, hlt]
          | some b =>
              have hb := lt_of_argmin_eligible p d limit hbest
              by_cases hcloser : d a < d b
              · have hlt : d a < limit := hcloser.trans hb
                simp [hcloser, hlt, List.argmin_concat, hbest]
              · by_cases hlt : d a < limit <;>
                  simp [hcloser, hlt, List.argmin_concat, hbest]

end Lib
