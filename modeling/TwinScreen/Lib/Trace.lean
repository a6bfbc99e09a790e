import Mathlib.Data.List.Induction

/-!
# TwinScreen.Lib.Trace

Properties of event traces that look back: what an event may be depends on the
events before it.

`Pending opens closes tr` says that some event opened a matter that no later
event closed; `Each law tr` that every event meets `law` in the light of the
trace before it.  Both are decided event by event as a trace grows, which is what
an induction along a run needs (`pending_concat`, `each_concat`).

`flatMap_eq_iff` reduces an equation of what whole traces come to, to its events.
-/

namespace Lib

variable {ο : Type}

/-! ## open matters -/

/-- Something was opened, and not closed since. -/
def Pending (opens closes : ο → Prop) (tr : List ο) : Prop :=
  ∃ p o q, tr = p ++ o :: q ∧ opens o ∧ ∀ r ∈ q, ¬ closes r

variable {opens closes : ο → Prop}

theorem not_pending_nil : ¬ Pending opens closes [] := by
  intro h
  obtain ⟨p, o, q, heq, -⟩ := h
  simp at heq

/-- What is open was opened by an event of the trace. -/
theorem Pending.exists_opens {tr : List ο} (h : Pending opens closes tr) : ∃ o ∈ tr, opens o := by
  obtain ⟨p, o, q, rfl, hopens, -⟩ := h
  exact ⟨o, by simp, hopens⟩

/-- One more event: it opens the matter, or leaves it open. -/
theorem pending_concat (tr : List ο) (o : ο) :
    Pending opens closes (tr ++ [o]) ↔ opens o ∨ (Pending opens closes tr ∧ ¬ closes o) := by
  constructor
  · intro h
    obtain ⟨p, o', q, heq, hopens, hq⟩ := h
    cases q using List.reverseRecOn with
    | nil =>
        have hlast := List.append_inj_right' heq rfl
        cases hlast
        exact .inl hopens
    | append_singleton q r _ =>
        rw [← List.cons_append, ← List.append_assoc] at heq
        obtain ⟨htr, hlast⟩ := List.append_inj' heq rfl
        cases hlast
        refine .inr ⟨⟨p, o', q, htr, hopens, fun r hr => hq r (List.mem_append_left _ hr)⟩, ?_⟩
        exact hq o (by simp)
  · intro h
    cases h with
    | inl hopens => exact ⟨tr, o, [], rfl, hopens, by simp⟩
    | inr h =>
        obtain ⟨⟨p, o', q, rfl, hopens, hq⟩, hcloses⟩ := h
        refine ⟨p, o', q ++ [o], by simp, hopens, fun r hr => ?_⟩
        cases List.mem_append.mp hr with
        | inl hmem => exact hq r hmem
        | inr hmem => rw [List.mem_singleton.mp hmem]; exact hcloses

/-- Events that open nothing can only close the matter. -/
theorem pending_append_of_not_opens {tr os : List ο} (h : ∀ o ∈ os, ¬ opens o) :
    Pending opens closes (tr ++ os) ↔ Pending opens closes tr ∧ ∀ o ∈ os, ¬ closes o := by
  induction os using List.reverseRecOn with
  | nil => simp
  | append_singleton os o ih =>
      have ih := ih fun o' ho' => h o' (List.mem_append_left _ ho')
      rw [← List.append_assoc, pending_concat, ih, List.forall_mem_append,
        List.forall_mem_singleton, and_assoc]
      exact or_iff_right (h o (by simp))

/-! ## laws on each event -/

/-- Every event meets the law after the events before it. -/
def Each (law : List ο → ο → Prop) (tr : List ο) : Prop :=
  ∀ p o q, tr = p ++ o :: q → law p o

variable {law : List ο → ο → Prop}

theorem each_nil : Each law [] := by
  intro p o q heq
  simp at heq

theorem Each.of_append {tr os : List ο} (h : Each law (tr ++ os)) : Each law tr := by
  intro p o q heq
  exact h p o (q ++ os) (by rw [heq, List.append_assoc, List.cons_append])

/-- One more event. -/
theorem each_concat (tr : List ο) (o : ο) : Each law (tr ++ [o]) ↔ Each law tr ∧ law tr o := by
  constructor
  · intro h
    refine ⟨fun p o' q heq => h p o' (q ++ [o]) ?_, h tr o [] rfl⟩
    rw [heq, List.append_assoc, List.cons_append]
  · intro h p o' q heq
    obtain ⟨htr, ho⟩ := h
    cases q using List.reverseRecOn with
    | nil =>
        obtain ⟨rfl, hlast⟩ := List.append_inj' heq rfl
        cases hlast
        exact ho
    | append_singleton q r _ =>
        rw [← List.cons_append, ← List.append_assoc] at heq
        exact htr p o' q (List.append_inj' heq rfl).1

/-- Events that the law does not restrict. -/
theorem each_append_of_free {tr os : List ο} (h : ∀ p, ∀ o ∈ os, law p o) :
    Each law (tr ++ os) ↔ Each law tr := by
  induction os using List.reverseRecOn with
  | nil => rw [List.append_nil]
  | append_singleton os o ih =>
      rw [← List.append_assoc, each_concat, ih fun p o' ho' => h p o' (by simp [ho'])]
      exact and_iff_left (h _ o (by simp))

/-! ## what a trace comes to -/

variable {β : Type} {f g : ο → List β} {tr : List ο}

theorem sublist_flatMap (h : ∀ o ∈ tr, (f o).Sublist (g o)) :
    (tr.flatMap f).Sublist (tr.flatMap g) := by
  induction tr with
  | nil => simp
  | cons o tr ih =>
      rw [List.forall_mem_cons] at h
      exact h.1.append (ih h.2)

/-- If no event gives more than it was given, the whole trace gives all of it exactly when
every event does. -/
theorem flatMap_eq_iff (h : ∀ o ∈ tr, (f o).Sublist (g o)) :
    tr.flatMap f = tr.flatMap g ↔ ∀ o ∈ tr, f o = g o := by
  induction tr with
  | nil => simp
  | cons o tr ih =>
      rw [List.forall_mem_cons] at h ⊢
      rw [List.flatMap_cons, List.flatMap_cons, ← ih h.2]
      constructor
      · intro heq
        have hhead := h.1.length_le
        have htail := (sublist_flatMap h.2).length_le
        have hlength := congrArg List.length heq
        rw [List.length_append, List.length_append] at hlength
        exact List.append_inj heq (by omega)
      · rintro ⟨hhead, htail⟩
        rw [hhead, htail]

end Lib
