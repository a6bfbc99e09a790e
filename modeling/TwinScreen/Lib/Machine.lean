/-!
# TwinScreen.Lib.Machine

Guarded step functions with output: `step s i` is the state after input `i` and
what the step put out, or `none` when `i` is not possible in `s`.  A run feeds a
list of inputs and collects the outputs in order.

`Along ok` says that every step of a run meets `ok` in the state it is taken
from.  The rules are `run_invariant`, for a law that every step keeps,
`forall_outputs_iff_along`, for a law on outputs that holds exactly while the
steps meet a condition, `along_iff_along`, for a law on the steps themselves,
`along_of_not_absorbed` and `final_iff_along`, for a law that is lost for good when a
step does not, `countP_add_le`, for a bound on a run, `run_embed` and
`exists_run_project`, for a machine that is part of another, and `reports_iff_along`,
for machines that report on each step.
-/

namespace Lib

/-- A guarded step function with output. -/
structure Machine (σ ι ο : Type) where
  step : σ → ι → Option (σ × List ο)

namespace Machine

variable {σ ι ο : Type} (M : Machine σ ι ο)

/-- Feed a list of inputs; `none` when one of them is not possible. -/
def run : σ → List ι → Option (σ × List ο)
  | s, [] => some (s, [])
  | s, i :: is =>
      match M.step s i with
      | none => none
      | some (s', o) => (run s' is).map fun (s'', os) => (s'', o ++ os)

/-- Every step of the run meets `ok` in the state it is taken from. -/
def Along (ok : σ → ι → Prop) : σ → List ι → Prop
  | _, [] => True
  | s, i :: is => ok s i ∧ ∀ s' o, M.step s i = some (s', o) → Along ok s' is

@[simp] theorem run_nil (s : σ) : M.run s [] = some (s, []) := rfl

@[simp] theorem along_nil (ok : σ → ι → Prop) (s : σ) : M.Along ok s [] := trivial

instance decidableAlong {ok : σ → ι → Prop} [∀ s i, Decidable (ok s i)] :
    (s : σ) → (is : List ι) → Decidable (M.Along ok s is)
  | _, [] => .isTrue trivial
  | s, i :: is =>
      match h : M.step s i with
      | none => decidable_of_iff (ok s i) (by simp [Along, h])
      | some (s', _) =>
          have : Decidable (M.Along ok s' is) := decidableAlong s' is
          decidable_of_iff (ok s i ∧ M.Along ok s' is) (by simp [Along, h])

/-- A run of one input more is a step and a run. -/
theorem run_cons {s s'' : σ} {i : ι} {is : List ι} {tr : List ο}
    (h : M.run s (i :: is) = some (s'', tr)) :
    ∃ s' o os, M.step s i = some (s', o) ∧ M.run s' is = some (s'', os) ∧ tr = o ++ os := by
  simp only [run] at h
  cases hstep : M.step s i with
  | none => simp only [hstep] at h; contradiction
  | some r =>
      obtain ⟨s', o⟩ := r
      simp only [hstep, Option.map_eq_some_iff] at h
      obtain ⟨⟨s₂, os⟩, hrun, hpair⟩ := h
      cases hpair
      exact ⟨s', o, os, rfl, hrun, rfl⟩

theorem run_of_step {s s' s'' : σ} {i : ι} {is : List ι} {o os : List ο}
    (hstep : M.step s i = some (s', o)) (hrun : M.run s' is = some (s'', os)) :
    M.run s (i :: is) = some (s'', o ++ os) := by
  simp [run, hstep, hrun]

/-- A run goes on with one step. -/
theorem run_concat {s s' s'' : σ} {is : List ι} {i : ι} {tr o : List ο}
    (hrun : M.run s is = some (s', tr)) (hstep : M.step s' i = some (s'', o)) :
    M.run s (is ++ [i]) = some (s'', tr ++ o) := by
  induction is generalizing s tr with
  | nil =>
      cases hrun
      simp [run, hstep]
  | cons j is ih =>
      obtain ⟨s₁, o₁, os, h₁, hrest, rfl⟩ := M.run_cons hrun
      simp [run, h₁, ih hrest]

/-- An output that exactly one input gives. -/
theorem mem_run_iff {x : ο} {j : ι}
    (hstep : ∀ s i s' o, M.step s i = some (s', o) → (x ∈ o ↔ i = j)) {is : List ι} {s s' : σ}
    {tr : List ο} (hrun : M.run s is = some (s', tr)) : x ∈ tr ↔ j ∈ is := by
  induction is generalizing s tr with
  | nil =>
      cases hrun
      simp
  | cons i is ih =>
      obtain ⟨s₁, o, os, h₁, hrest, rfl⟩ := M.run_cons hrun
      rw [List.mem_append, List.mem_cons, hstep s i s₁ o h₁, ih hrest, eq_comm]

/-- No condition is met by every run. -/
theorem along_true (s : σ) (is : List ι) : M.Along (fun _ _ => True) s is := by
  induction is generalizing s with
  | nil => trivial
  | cons i is ih => exact ⟨trivial, fun s' _ _ => ih s'⟩

/-- **Invariant rule**: what every admissible step keeps, of the state together
with the outputs so far, holds at the end of every admissible run. -/
theorem run_invariant {Inv : σ → List ο → Prop} {ok : σ → ι → Prop}
    (hstep : ∀ s tr i s' o, Inv s tr → ok s i → M.step s i = some (s', o) → Inv s' (tr ++ o))
    {is : List ι} {s s' : σ} {tr os : List ο} (hs : Inv s tr) (hok : M.Along ok s is)
    (hrun : M.run s is = some (s', os)) : Inv s' (tr ++ os) := by
  induction is generalizing s tr os with
  | nil =>
      cases hrun
      rwa [List.append_nil]
  | cons i is ih =>
      obtain ⟨s₁, o, os, h₁, hrest, rfl⟩ := M.run_cons hrun
      rw [← List.append_assoc]
      exact ih (hstep s tr i s₁ o hs hok.1 h₁) (hok.2 s₁ o h₁) hrest

/-- The invariant rule for the state alone, over all runs. -/
theorem state_invariant {Inv : σ → Prop}
    (hstep : ∀ s i s' o, Inv s → M.step s i = some (s', o) → Inv s') {is : List ι} {s s' : σ}
    {tr : List ο} (hs : Inv s) (hrun : M.run s is = some (s', tr)) : Inv s' := by
  induction is generalizing s tr with
  | nil =>
      cases hrun
      exact hs
  | cons i is ih =>
      obtain ⟨s₁, o, os, h₁, hrest, rfl⟩ := M.run_cons hrun
      exact ih (hstep s i s₁ o hs h₁) hrest

/-- **Potential rule**: when no admissible step raises a potential, and those that `p` counts
lower it, an admissible run has no more of them than its potential. -/
theorem countP_add_le {Inv : σ → Prop} {ok : σ → ι → Prop} {pot : σ → Nat} {p : ι → Bool}
    (hinv : ∀ s i s' o, Inv s → M.step s i = some (s', o) → Inv s')
    (hstep : ∀ s i s' o, Inv s → ok s i → M.step s i = some (s', o) →
      (if p i then 1 else 0) + pot s' ≤ pot s)
    {is : List ι} {s s' : σ} {tr : List ο} (hs : Inv s) (hok : M.Along ok s is)
    (hrun : M.run s is = some (s', tr)) : is.countP p + pot s' ≤ pot s := by
  induction is generalizing s tr with
  | nil =>
      cases hrun
      simp
  | cons i is ih =>
      obtain ⟨s₁, o, os, h₁, hrest, rfl⟩ := M.run_cons hrun
      have hone := hstep s i s₁ o hs hok.1 h₁
      have hall := ih (hinv s i s₁ o hs h₁) (hok.2 s₁ o h₁) hrest
      rw [List.countP_cons]
      omega

/-- **Embedding rule**: a machine whose every step is a step of `N` has its runs
among the runs of `N`. -/
theorem run_embed {σ' ι' ο' : Type} (N : Machine σ' ι' ο') {f : σ → σ'} {g : ι → ι'} {k : ο → ο'}
    (hstep : ∀ s i s' o, M.step s i = some (s', o) → N.step (f s) (g i) = some (f s', o.map k))
    {is : List ι} {s s' : σ} {tr : List ο} (hrun : M.run s is = some (s', tr)) :
    N.run (f s) (is.map g) = some (f s', tr.map k) := by
  induction is generalizing s tr with
  | nil =>
      cases hrun
      rfl
  | cons i is ih =>
      obtain ⟨s₁, o, os, h₁, hrest, rfl⟩ := M.run_cons hrun
      simp only [List.map_cons, run, hstep s i s₁ o h₁, ih hrest, Option.map_some, List.map_append]

/-- **Projection rule**: `f` shows another machine in the states, in which a step is the step
`g` says or none at all.  Then the run of a machine shows a run of the other one, with what is
said of its steps. -/
theorem exists_run_project {σ' ι' ο' : Type} (N : Machine σ' ι' ο') {f : σ → σ'}
    {g : σ → ι → Option ι'} {Inv : σ → Prop}
    (hinv : ∀ s i s' o, Inv s → M.step s i = some (s', o) → Inv s')
    (hnone : ∀ s i s' o, Inv s → M.step s i = some (s', o) → g s i = none → f s' = f s)
    (hsome : ∀ s i s' o j, Inv s → M.step s i = some (s', o) → g s i = some j →
      ∃ o', N.step (f s) j = some (f s', o'))
    {is : List ι} {s s' : σ} {tr : List ο} (hs : Inv s) (hrun : M.run s is = some (s', tr)) :
    ∃ js tr', N.run (f s) js = some (f s', tr') ∧
      ∀ ok, N.Along ok (f s) js ↔ M.Along (fun s i => ∀ j, g s i = some j → ok (f s) j) s is := by
  induction is generalizing s tr with
  | nil =>
      cases hrun
      exact ⟨[], [], rfl, fun ok => Iff.rfl⟩
  | cons i is ih =>
      obtain ⟨s₁, o, os, h₁, hrest, rfl⟩ := M.run_cons hrun
      obtain ⟨js, tr', hproj, halong⟩ := ih (hinv s i s₁ o hs h₁) hrest
      cases hg : g s i with
      | none =>
          rw [hnone s i s₁ o hs h₁ hg] at hproj halong
          refine ⟨js, tr', hproj, fun ok => ?_⟩
          simp [Along, hg, h₁, halong ok]
      | some j =>
          obtain ⟨o', hN⟩ := hsome s i s₁ o j hs h₁ hg
          refine ⟨j :: js, o' ++ tr', N.run_of_step hN hproj, fun ok => ?_⟩
          simp [Along, hg, h₁, hN, halong ok]

/-- **Absorption rule**: when every inadmissible step leads into states that no step
leaves, a run that ends outside of them has been admissible. -/
theorem along_of_not_absorbed {Bad : σ → Prop} {ok : σ → ι → Prop}
    (hbad : ∀ s i s' o, Bad s → M.step s i = some (s', o) → Bad s')
    (hok : ∀ s i s' o, ¬ ok s i → M.step s i = some (s', o) → Bad s')
    {is : List ι} {s s' : σ} {tr : List ο} (hrun : M.run s is = some (s', tr)) (hend : ¬ Bad s') :
    M.Along ok s is := by
  induction is generalizing s tr with
  | nil => trivial
  | cons i is ih =>
      obtain ⟨s₁, o, os, h₁, hrest, rfl⟩ := M.run_cons hrun
      constructor
      · apply Classical.byContradiction
        intro hnot
        exact hend (M.state_invariant hbad (hok s i s₁ o hnot h₁) hrest)
      · intro s₂ o₂ h₂
        rw [h₁] at h₂
        cases h₂
        exact ih hrest

/-- The absorption rule with an invariant, made exact: admissible steps keep `Good`, and where a
run ends that is all that keeps it out of `B`. -/
theorem final_iff_along {Inv Good B : σ → Prop} {ok : σ → ι → Prop}
    (hinv : ∀ s i s' o, Inv s → M.step s i = some (s', o) → Inv s')
    (hgood : ∀ s i s' o, Good s → ok s i → M.step s i = some (s', o) → Good s')
    (hbad : ∀ s i s' o, Inv s → B s ∨ ¬ ok s i → M.step s i = some (s', o) → B s')
    {is : List ι} {s s' : σ} {tr : List ο} (hs : Inv s) (hgood₀ : Good s)
    (hrun : M.run s is = some (s', tr)) (hend : Good s' ↔ ¬ B s') :
    Good s' ↔ M.Along ok s is := by
  constructor
  · intro h
    have hboth : ∀ s i s' o, Inv s ∧ B s → M.step s i = some (s', o) → Inv s' ∧ B s' :=
      fun s i s' o hs hstep => ⟨hinv s i s' o hs.1 hstep, hbad s i s' o hs.1 (.inl hs.2) hstep⟩
    rw [hend] at h
    clear hgood₀ hend
    induction is generalizing s tr with
    | nil => trivial
    | cons i is ih =>
        obtain ⟨s₁, o, os, h₁, hrest, rfl⟩ := M.run_cons hrun
        constructor
        · apply Classical.byContradiction
          intro hnot
          exact h (M.state_invariant hboth
            ⟨hinv s i s₁ o hs h₁, hbad s i s₁ o hs (.inr hnot) h₁⟩ hrest).2
        · intro s₂ o₂ h₂
          rw [h₁] at h₂
          cases h₂
          exact ih (hinv s i s₁ o hs h₁) hrest
  · intro halong
    have hinvariant := @M.run_invariant _ _ _ (fun s _ => Good s) ok
      (fun s _ i s' o hs hok hstep => hgood s i s' o hs hok hstep) is s s' [] tr hgood₀ halong hrun
    exact hinvariant

/-- **Exactness rule**: let `Inv` hold of the states an admissible run meets.  If
under `Inv` the outputs of a step are lawful exactly when the step is admissible,
the outputs of a run are lawful exactly when the run is. -/
theorem forall_outputs_iff_along {Inv : σ → Prop} {ok : σ → ι → Prop} {law : ο → Prop}
    (hlaw : ∀ s i s' o, Inv s → M.step s i = some (s', o) → ((∀ x ∈ o, law x) ↔ ok s i))
    (hinv : ∀ s i s' o, Inv s → ok s i → M.step s i = some (s', o) → Inv s')
    {is : List ι} {s s' : σ} {tr : List ο} (hs : Inv s) (hrun : M.run s is = some (s', tr)) :
    (∀ x ∈ tr, law x) ↔ M.Along ok s is := by
  induction is generalizing s tr with
  | nil =>
      cases hrun
      simp
  | cons i is ih =>
      obtain ⟨s₁, o, os, hstep, hrest, rfl⟩ := M.run_cons hrun
      have hone := hlaw s i s₁ o hs hstep
      constructor
      · intro hall
        have hok : ok s i := hone.mp fun x hx => hall x (List.mem_append_left os hx)
        refine ⟨hok, fun s₂ o₂ hstep₂ => ?_⟩
        rw [hstep] at hstep₂
        cases hstep₂
        exact (ih (hinv s i s₁ o hs hok hstep) hrest).mp
          fun x hx => hall x (List.mem_append_right o hx)
      · rintro ⟨hok, hnext⟩ x hx
        rcases List.mem_append.mp hx with hx | hx
        · exact hone.mpr hok x hx
        · exact (ih (hinv s i s₁ o hs hok hstep) hrest).mpr (hnext s₁ o hstep) x hx

/-- The exactness rule for laws on steps: let `Inv` hold of the states that a run meets
while its steps meet `law`.  If under `Inv` a step that meets `pre` meets `law` exactly
when it is admissible, so does a run. -/
theorem along_iff_along {Inv : σ → Prop} {pre law ok : σ → ι → Prop}
    (hlaw : ∀ s i, Inv s → pre s i → (law s i ↔ ok s i))
    (hinv : ∀ s i s' o, Inv s → pre s i → law s i → M.step s i = some (s', o) → Inv s')
    {s : σ} (hs : Inv s) {is : List ι} (hpre : M.Along pre s is) :
    M.Along law s is ↔ M.Along ok s is := by
  induction is generalizing s with
  | nil => exact Iff.rfl
  | cons i is ih =>
      have hone := hlaw s i hs hpre.1
      constructor
      · rintro ⟨hfirst, hrest⟩
        refine ⟨hone.mp hfirst, fun s' o hstep => ?_⟩
        exact (ih (hinv s i s' o hs hpre.1 hfirst hstep) (hpre.2 s' o hstep)).mp (hrest s' o hstep)
      · rintro ⟨hfirst, hrest⟩
        refine ⟨hone.mpr hfirst, fun s' o hstep => ?_⟩
        have hkept := hinv s i s' o hs hpre.1 (hone.mpr hfirst) hstep
        exact (ih hkept (hpre.2 s' o hstep)).mpr (hrest s' o hstep)

/-- A condition on the inputs alone. -/
theorem along_of_forall {ok : ι → Prop} {is : List ι} (h : ∀ i ∈ is, ok i) (s : σ) :
    M.Along (fun _ i => ok i) s is := by
  induction is generalizing s with
  | nil => trivial
  | cons i is ih =>
      rw [List.forall_mem_cons] at h
      exact ⟨h.1, fun s' _ _ => ih h.2 s'⟩

theorem along_congr {ok ok' : σ → ι → Prop} (h : ∀ s i, ok s i ↔ ok' s i) {s : σ}
    {is : List ι} : M.Along ok s is ↔ M.Along ok' s is := by
  rw [show ok = ok' from funext fun s => funext fun i => propext (h s i)]

theorem along_mono {ok ok' : σ → ι → Prop} (h : ∀ s i, ok s i → ok' s i) {s : σ} {is : List ι}
    (hok : M.Along ok s is) : M.Along ok' s is := by
  induction is generalizing s with
  | nil => trivial
  | cons i is ih => exact ⟨h s i hok.1, fun s' o hstep => ih (hok.2 s' o hstep)⟩

/-- A condition of two parts. -/
theorem along_and {ok ok' : σ → ι → Prop} {s : σ} {is : List ι} :
    M.Along (fun s i => ok s i ∧ ok' s i) s is ↔ M.Along ok s is ∧ M.Along ok' s is := by
  induction is generalizing s with
  | nil => simp
  | cons i is ih =>
      simp only [Along, ih]
      grind

/-- A machine whose inputs are all possible, with one report a step. -/
def reporting (next : σ → ι → σ) (report : σ → ι → ο) : Machine σ ι ο where
  step s i := some (next s i, [report s i])

@[simp] theorem along_reporting_cons {next : σ → ι → σ} {report : σ → ι → ο} {ok : σ → ι → Prop}
    {s : σ} {i : ι} {is : List ι} :
    (reporting next report).Along ok s (i :: is) ↔
      ok s i ∧ (reporting next report).Along ok (next s i) is := by
  simp [Along, reporting]

theorem along_reporting_append {next : σ → ι → σ} {report : σ → ι → ο} {ok : σ → ι → Prop}
    {s : σ} {is js : List ι} :
    (reporting next report).Along ok s (is ++ js) ↔
      (reporting next report).Along ok s is ∧
        (reporting next report).Along ok (is.foldl next s) js := by
  induction is generalizing s with
  | nil => simp
  | cons i is ih => simp only [List.cons_append, along_reporting_cons, ih, List.foldl_cons, and_assoc]

/-- The exactness rule for reports, over runs whose steps all meet `pre`. -/
theorem reports_iff_along {next : σ → ι → σ} {report : σ → ι → ο} {pre ok : σ → ι → Prop}
    {law : ο → Prop} (h : ∀ s i, pre s i → (law (report s i) ↔ ok s i)) {is : List ι} {s s' : σ}
    {tr : List ο} (hpre : (reporting next report).Along pre s is)
    (hrun : (reporting next report).run s is = some (s', tr)) :
    (∀ x ∈ tr, law x) ↔ (reporting next report).Along ok s is := by
  induction is generalizing s tr with
  | nil =>
      cases hrun
      simp
  | cons i is ih =>
      obtain ⟨_, _, os, hstep, hrest, rfl⟩ := (reporting next report).run_cons hrun
      cases hstep
      rw [along_reporting_cons] at hpre ⊢
      simp [h s i hpre.1, ih hpre.2 hrest]

end Machine

end Lib
