import Mathlib.Data.List.Chain
import Mathlib.Data.List.Induction

/-!
# TwinScreen.Lib.Alternation

Press and release signals on one contact.  A signal list is lawful when presses
and releases strictly alternate and the first signal is a press.

`alternates_concat` says which signal may come next, by whether the contact is held.
`Matched` ties a lawful list to a number of holders, which is what a stream of
events with several pointers is followed by (`matched_concat`, `matched_of_released`).
-/

namespace Lib

/-- A change of one contact. -/
inductive Signal
  | press
  | release
  deriving DecidableEq, Repr

namespace Signal

/-- Presses and releases strictly alternate, starting with a press. -/
def Alternates (l : List Signal) : Prop :=
  l.head? ≠ some release ∧ l.IsChain (· ≠ ·)

/-- The contact is left pressed. -/
def Held (l : List Signal) : Prop := l.getLast? = some press

instance (l : List Signal) : Decidable (Alternates l) := inferInstanceAs (Decidable (_ ∧ _))

instance (l : List Signal) : Decidable (Held l) := inferInstanceAs (Decidable (_ = _))

theorem alternates_nil : Alternates [] := by simp [Alternates]

@[simp] theorem not_held_nil : ¬ Held [] := by simp [Held]

@[simp] theorem held_concat (l : List Signal) (x : Signal) : Held (l ++ [x]) ↔ x = press := by
  simp [Held]

/-- The next signal is a release exactly when the contact is held. -/
theorem alternates_concat (l : List Signal) (x : Signal) :
    Alternates (l ++ [x]) ↔ Alternates l ∧ (x = release ↔ Held l) := by
  induction l using List.reverseRecOn with
  | nil => cases x <;> simp [Alternates]
  | append_singleton l y _ =>
      have hhead : (l ++ [y] ++ [x]).head? = (l ++ [y]).head? := by
        cases l <;> rfl
      rw [Alternates, Alternates, hhead, List.isChain_append, held_concat]
      cases x <;> cases y <;> simp

/-- A lawful list begins with a lawful one. -/
theorem Alternates.of_append {l l' : List Signal} (h : Alternates (l ++ l')) : Alternates l := by
  induction l' using List.reverseRecOn with
  | nil => rwa [List.append_nil] at h
  | append_singleton l' x ih =>
      rw [← List.append_assoc, alternates_concat] at h
      exact ih h.1

/-! ## holders -/

/-- The list is lawful, and the contact has one holder when it is held, and none otherwise. -/
def Matched (l : List Signal) (holders : Nat) : Prop :=
  Alternates l ∧ holders = if Held l then 1 else 0

theorem matched_nil : Matched [] 0 := ⟨alternates_nil, rfl⟩

/-- Without holders the contact is free. -/
theorem Matched.not_held {l : List Signal} (h : Matched l 0) : ¬ Held l := by
  intro hheld
  simp [Matched, hheld] at h

theorem Matched.le_one {l : List Signal} {n : Nat} (h : Matched l n) : n ≤ 1 := by
  rw [h.2]
  split <;> omega

/-- The next signal, if there is one, is a press that brings the first holder, or a release that
comes with the only one's leaving. -/
theorem matched_concat {l : List Signal} {n m : Nat} (h : Matched l n) (x : Option Signal) :
    Matched (l ++ x.toList) m ↔
      match x with
      | none => m = n
      | some press => n = 0 ∧ m = 1
      | some release => n = 1 ∧ m = 0 := by
  obtain ⟨halt, rfl⟩ := h
  cases x with
  | none => simp [Matched, halt]
  | some x =>
      simp only [Option.toList_some, Matched, alternates_concat, held_concat]
      by_cases hheld : Held l <;> cases x <;> simp [halt, hheld]

/-- When releases alone free the contact lawfully, they are as many as its holders should be. -/
theorem matched_of_released {l : List Signal} {n : Nat}
    (halt : Alternates (l ++ List.replicate n release))
    (hfree : ¬ Held (l ++ List.replicate n release)) : Matched l n := by
  refine ⟨halt.of_append, ?_⟩
  cases n with
  | zero =>
      rw [List.replicate_zero, List.append_nil] at hfree
      rw [if_neg hfree]
  | succ n =>
      rw [List.replicate_succ, List.append_cons] at halt
      have hheld : Held l := ((alternates_concat l release).mp halt.of_append).2.mp rfl
      rw [if_pos hheld]
      cases n with
      | zero => rfl
      | succ n =>
          rw [List.replicate_succ, List.append_cons] at halt
          simpa using ((alternates_concat _ release).mp halt.of_append).2

end Signal

end Lib
