import Mathlib.Data.Set.Insert
import TwinScreen.Lib.Machine

/-!
# TwinScreen.Lib.Slot

A field for an object, between the thread that fills it and the one that closes up: the
filler makes objects, puts them there, and may replace what is there by a new one; the
closer reads the field once, releases what it found, and clears the field.  Releasing an
object twice does no harm.  Each read, write and release is a step.

* `released_iff_along` — when both are done, every object has been released exactly if no
  step of the filler has been `Kept` from the closer.
-/

namespace Lib

/-- Where the filler is.  With `anew` it has given up what was in the field, and does not
rest before there is another object in it. -/
inductive Filler
  | idle
  /-- It has read the field, to release what it found. -/
  | renouncing (o : Option Nat)
  | making
  | holding (anew : Bool) (x : Nat)
  /-- It is no more. -/
  | gone
  deriving DecidableEq

/-- What it has made, and not put away yet. -/
def Filler.hand : Filler → Option Nat
  | .holding _ x => some x
  | _ => none

/-- Where the closer is. -/
inductive Closer
  | before
  /-- It has read the field, to release what it found. -/
  | holding (o : Option Nat)
  | after
  deriving DecidableEq

/-- The objects are numbered in the order of making. -/
@[ext] structure Slot where
  made : Nat := 0
  released : Set Nat := ∅
  field : Option Nat := none
  filler : Filler := .idle
  closer : Closer := .before

inductive SlotInput
  | make
  | put
  /-- The filler releases what it has made. -/
  | discard
  /-- It clears the field. -/
  | drop
  /-- It reads the field, to release what it finds. -/
  | grip
  | renounce
  | quit
  | closerRead
  | closerRelease
  | closerClear
  deriving DecidableEq

namespace Slot

/-- What there is gets released. -/
def release (s : Slot) (o : Option Nat) : Slot :=
  { s with released := s.released ∪ {x | o = some x} }

/-- One step. -/
def step (s : Slot) : SlotInput → Option Slot
  | .make =>
      match s.filler with
      | .idle => some { s with made := s.made + 1, filler := .holding false s.made }
      | .making => some { s with made := s.made + 1, filler := .holding true s.made }
      | _ => none
  | .put =>
      match s.filler with
      | .holding _ x => some { s with field := some x, filler := .idle }
      | _ => none
  | .discard =>
      match s.filler with
      | .holding false x => some { s.release (some x) with filler := .idle }
      | _ => none
  | .drop =>
      match s.filler with
      | .idle => some { s with field := none }
      | _ => none
  | .grip =>
      match s.filler with
      | .idle => some { s with filler := .renouncing s.field }
      | _ => none
  | .renounce =>
      match s.filler with
      | .renouncing o => some { s.release o with filler := .making }
      | _ => none
  | .quit => some { s with filler := .gone }
  | .closerRead =>
      match s.closer with
      | .before => some { s with closer := .holding s.field }
      | _ => none
  | .closerRelease =>
      match s.closer with
      | .holding o => some { s.release o with closer := .after }
      | _ => none
  | .closerClear =>
      match s.closer with
      | .after => some { s with field := none }
      | _ => none

def machine : Machine Slot SlotInput Unit where
  step s i := (s.step i).map fun s' => (s', [])

/-- The steps that keep no object from the closer: one is put where no other is left, and
before the closer reads; and one is cleared away only when it is released, or the closer
has it. -/
def Kept (s : Slot) : SlotInput → Prop
  | .put => s.closer = .before ∧ ∀ x, s.field = some x → x ∈ s.released
  | .drop => ∀ x, s.field = some x → x ∈ s.released ∨ s.closer = .holding (some x)
  | _ => True

/-- Every object is known, the one in the filler's hand is there only, and what the filler gives
up is what the field holds. -/
structure Wf (s : Slot) : Prop where
  released : ∀ x ∈ s.released, x < s.made
  field : ∀ x, s.field = some x → x < s.made
  renouncing : ∀ x, s.filler = .renouncing (some x) → x < s.made
  closer : ∀ x, s.closer = .holding (some x) → x < s.made
  hand : ∀ x, s.filler.hand = some x →
    x < s.made ∧ x ∉ s.released ∧ s.field ≠ some x ∧ s.closer ≠ .holding (some x)
  old : ∀ o, s.filler = .renouncing o → ∀ x, s.field = some x → o = some x
  anew : (s.filler = .making ∨ ∃ x, s.filler = .holding true x) →
    ∀ x, s.field = some x → x ∈ s.released

/-- Somebody who is to release it has the object. -/
def Reached (s : Slot) (x : Nat) : Prop :=
  s.filler.hand = some x ∨ s.filler = .renouncing (some x) ∨ s.closer = .holding (some x) ∨
    (s.field = some x ∧ s.closer = .before)

/-- No object is out of reach. -/
def Safe (s : Slot) : Prop := ∀ x < s.made, x ∉ s.released → s.Reached x

/-- The filler is to put an object where the closer does not come any more, or it is gone. -/
def Doomed (s : Slot) : Prop :=
  match s.filler with
  | .renouncing _ | .making | .holding true _ => s.closer ≠ .before
  | .gone => True
  | _ => False

variable {s s' : Slot} {i : SlotInput}

theorem wf_step (h : s.Wf) (hstep : s.step i = some s') : s'.Wf := by
  obtain ⟨hreleased, hfield, hrenouncing, hcloser, hhand, hold, hanew⟩ := h
  obtain ⟨made, released, field, filler, closer⟩ := s
  cases i <;> simp only [step] at hstep <;> (try split at hstep) <;> cases hstep <;>
    constructor <;> simp [release, Filler.hand] at * <;> grind

/-- **Step lemma.**  A step that keeps nothing away leaves everything in reach. -/
theorem safe_step (hsafe : s.Safe) (hkept : s.Kept i) (hquit : i ≠ .quit)
    (hstep : s.step i = some s') : s'.Safe := by
  intro x hx hnot
  have hbefore := hsafe x
  obtain ⟨made, released, field, filler, closer⟩ := s
  cases i <;> simp only [step] at hstep <;> (try split at hstep) <;> cases hstep <;>
    simp [release, Reached, Kept, Filler.hand] at * <;> grind

/-- Any other step puts an object out of reach. -/
theorem not_safe_step (h : s.Wf) (hkept : ¬ s.Kept i) (hstep : s.step i = some s') :
    ¬ s'.Safe := by
  intro hsafe
  apply hkept
  cases i
  case put =>
    cases hfiller : s.filler with
    | holding anew x =>
        simp only [step, hfiller] at hstep
        cases hstep
        obtain ⟨hmade, hnew, hfield, hcloser⟩ := h.hand x (by rw [hfiller, Filler.hand])
        -- the new object is in reach in the field alone
        have hbefore : s.closer = .before := by
          simpa [Reached, hcloser, Filler.hand] using hsafe x hmade hnew
        refine ⟨hbefore, fun y hy => ?_⟩
        by_contra hnot
        have hreached := hsafe y (h.field y hy) hnot
        simp [Reached, hbefore, Filler.hand] at hreached
        exact hfield (hreached ▸ hy)
    | _ => simp [step, hfiller] at hstep
  case drop =>
    cases hfiller : s.filler with
    | idle =>
        simp only [step, hfiller] at hstep
        cases hstep
        intro x hx
        by_contra hnot
        rw [not_or] at hnot
        simpa [Reached, hfiller, hnot.2, Filler.hand] using hsafe x (h.field x hx) hnot.1
    | _ => simp [step, hfiller] at hstep
  all_goals trivial

/-- What is out of reach stays so, unless the filler finds it behind the closer's back. -/
theorem doomed_or_not_safe_step (h : s.Wf) (hbad : s.Doomed ∨ ¬ s.Safe)
    (hstep : s.step i = some s') : s'.Doomed ∨ ¬ s'.Safe := by
  rcases hbad with hdoomed | hlost
  · by_cases hkept : s.Kept i
    case neg => exact .inr (not_safe_step h hkept hstep)
    case pos =>
      refine .inl ?_
      obtain ⟨made, released, field, filler, closer⟩ := s
      cases i <;> simp only [step] at hstep <;> (try split at hstep) <;> cases hstep <;>
        simp [release, Kept, Doomed] at * <;> grind
  · simp only [Safe, not_forall] at hlost
    obtain ⟨x, hx, hnot, hlost⟩ := hlost
    rw [or_iff_not_imp_right, not_not]
    intro hsafe
    have hreached := hsafe x
    obtain ⟨made, released, field, filler, closer⟩ := s
    cases i <;> simp only [step] at hstep <;> (try split at hstep) <;> cases hstep <;>
      simp [release, Reached, Doomed, Filler.hand] at * <;> grind

theorem step_of_machine {o : List Unit} (h : machine.step s i = some (s', o)) :
    s.step i = some s' := by
  obtain ⟨s₁, hstep, hpair⟩ := Option.map_eq_some_iff.mp h
  cases hpair
  exact hstep

/-- A filler that is gone stays away. -/
theorem gone_step (hgone : s.filler = .gone) (hstep : s.step i = some s') : s'.filler = .gone := by
  obtain ⟨made, released, field, filler, closer⟩ := s
  cases hgone
  cases i <;> simp only [step] at hstep <;> (try split at hstep) <;> cases hstep <;> rfl

theorem gone_or_safe_step (h : s.filler = .gone ∨ s.Safe) (hkept : s.Kept i)
    (hstep : s.step i = some s') : s'.filler = .gone ∨ s'.Safe := by
  rcases h with hgone | hsafe
  · exact .inl (gone_step hgone hstep)
  · by_cases hquit : i = .quit
    case pos =>
      rw [hquit] at hstep
      cases hstep
      exact .inl rfl
    case neg => exact .inr (safe_step hsafe hkept hquit hstep)

theorem wf_start : Wf {} := by
  constructor <;> simp [Filler.hand]

/-- **Exactness**: when the filler rests and the closer is done, every object has been released
exactly if each step of the run has left the objects to the closer. -/
theorem released_iff_along {is : List SlotInput} {tr : List Unit}
    (hrun : machine.run {} is = some (s, tr)) (hidle : s.filler = .idle)
    (hafter : s.closer = .after) :
    (∀ x < s.made, x ∈ s.released) ↔ machine.Along Kept {} is := by
  have hsafe : (s.filler = .gone ∨ s.Safe) ↔ ∀ x < s.made, x ∈ s.released := by
    simp [Safe, Reached, hidle, hafter, Filler.hand]
  rw [← hsafe]
  refine machine.final_iff_along (B := fun s => s.Doomed ∨ ¬ s.Safe)
    (fun s i s' o h hstep => wf_step h (step_of_machine hstep))
    (fun s i s' o h hkept hstep => gone_or_safe_step h hkept (step_of_machine hstep))
    (fun s i s' o h hbad hstep => ?_) wf_start (.inr nofun) hrun ?_
  · have hstep := step_of_machine hstep
    rcases hbad with hbad | hkept
    · exact doomed_or_not_safe_step h hbad hstep
    · exact .inr (not_safe_step h hkept hstep)
  · simp [Doomed, hidle]

/-! ## objects in a list -/

variable {α : Type} {p : α → Prop}

/-- The places of the objects that meet `p`. -/
def marked (l : List α) (p : α → Prop) : Set Nat := {x | ∃ a, l[x]? = some a ∧ p a}

theorem all_marked {l : List α} : (∀ x < l.length, x ∈ marked l p) ↔ ∀ a ∈ l, p a := by
  rw [List.forall_mem_iff_forall_getElem]
  apply forall₂_congr
  intro x hx
  simp [marked, hx]

theorem marked_concat (l : List α) {a : α} (h : ¬ p a) : marked (l ++ [a]) p = marked l p := by
  ext x
  simp only [marked, Set.mem_ofPred_eq, List.getElem?_append, List.getElem?_singleton]
  split
  · rfl
  · rw [List.getElem?_eq_none (by omega)]
    split <;> simp [h]

theorem marked_modify_of_iff {l : List α} {x : Nat} {f : α → α}
    (h : ∀ a, l[x]? = some a → (p (f a) ↔ p a)) : marked (l.modify x f) p = marked l p := by
  ext y
  simp only [marked, Set.mem_ofPred_eq, List.getElem?_modify]
  by_cases hxy : x = y
  · subst hxy
    cases hx : l[x]? with
    | none => simp
    | some a => simp [h a hx]
  · simp [hxy]

/-- Changing an element that comes to be marked adds its index. -/
theorem marked_modify {l : List α} {x : Nat} {f : α → α} (hx : x < l.length)
    (h : ∀ a, p (f a)) : marked (l.modify x f) p = insert x (marked l p) := by
  ext y
  simp only [marked, Set.mem_ofPred_eq, Set.mem_insert_iff, List.getElem?_modify]
  by_cases hxy : x = y
  · subst hxy
    simp [hx, h]
  · simp [hxy, eq_comm]

/-! ## slots of a machine -/

/-- A slot shows in the states of a machine, whose steps are steps of the slot or leave it. -/
def Shows {σ ι ο : Type} (M : Machine σ ι ο) (f : σ → Slot) (g : σ → ι → Option SlotInput) : Prop :=
  ∀ s i s' o, (f s).Wf → M.step s i = some (s', o) →
    match g s i with
    | none => f s' = f s
    | some j => (f s).step j = some (f s')

namespace Shows

variable {σ ι ο : Type} {M : Machine σ ι ο} {f : σ → Slot} {g : σ → ι → Option SlotInput}
  {s s' : σ}

theorem wf_step (h : Shows M f g) {i : ι} {o : List ο} (hwf : (f s).Wf)
    (hstep : M.step s i = some (s', o)) : (f s').Wf := by
  have hone := h s i s' o hwf hstep
  split at hone
  · rwa [hone]
  · exact Slot.wf_step hwf hone

/-- Exactness for the machine. -/
theorem released_iff_along (h : Shows M f g) {is : List ι} {tr : List ο} (hstart : f s = {})
    (hrun : M.run s is = some (s', tr)) (hidle : (f s').filler = .idle)
    (hafter : (f s').closer = .after) :
    (∀ x < (f s').made, x ∈ (f s').released) ↔
      M.Along (fun s i => ∀ j, g s i = some j → (f s).Kept j) s is := by
  have hnone : ∀ s i s' o, (f s).Wf → M.step s i = some (s', o) → g s i = none → f s' = f s := by
    intro s i s' o hwf hstep hg
    simpa only [hg] using h s i s' o hwf hstep
  have hsome : ∀ s i s' o j, (f s).Wf → M.step s i = some (s', o) → g s i = some j →
      ∃ o', machine.step (f s) j = some (f s', o') := by
    intro s i s' o j hwf hstep hg
    have hone := h s i s' o hwf hstep
    simp only [hg] at hone
    exact ⟨[], congrArg (Option.map fun s' => (s', [])) hone⟩
  obtain ⟨js, tr', hshown, halong⟩ := M.exists_run_project machine
    (fun s i s' o hwf hstep => h.wf_step hwf hstep) hnone hsome (hstart ▸ wf_start) hrun
  rw [← halong]
  rw [hstart] at hshown ⊢
  exact Slot.released_iff_along hshown hidle hafter

end Shows

end Slot

end Lib
