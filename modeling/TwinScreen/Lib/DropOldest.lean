/-!
# TwinScreen.Lib.DropOldest

A queue with room for `max` elements: one more pushes the oldest out.

`Accounts` is the invariant of a history of pushes and pops: the bound holds, and
what was taken out and what is queued is what was pushed, in order.
-/

namespace Lib.DropOldest

variable {α : Type}

/-- What happens at the queue. -/
inductive Event (α : Type)
  | pushed (x : α)
  | popped (x : α)
  /-- `x` made room in `found` for `next`. -/
  | dropped (x : α) (found : List α) (next : α)
  deriving DecidableEq, Repr

/-- Add an element, after the oldest was dropped if there was no room. -/
def push (max : Nat) (q : List α) (x : α) : List α × List (Event α) :=
  match q with
  | [] => ([x], [.pushed x])
  | oldest :: rest =>
      if max ≤ q.length then (rest ++ [x], [.dropped oldest q x, .pushed x])
      else (q ++ [x], [.pushed x])

/-- Take the oldest element. -/
def pop (q : List α) : List α × List (Event α) :=
  match q with
  | [] => ([], [])
  | x :: rest => (rest, [.popped x])

/-- The elements pushed, in order. -/
def pushed (tr : List (Event α)) : List α :=
  tr.filterMap fun e =>
    match e with
    | .pushed x => some x
    | .popped _ | .dropped .. => none

/-- The elements popped, in order. -/
def popped (tr : List (Event α)) : List α :=
  tr.filterMap fun e =>
    match e with
    | .popped x => some x
    | .pushed _ | .dropped .. => none

/-- The elements taken out, in order: popped or dropped. -/
def removed (tr : List (Event α)) : List α :=
  tr.filterMap fun e =>
    match e with
    | .popped x | .dropped x .. => some x
    | .pushed _ => none

@[simp] theorem pushed_append (tr os : List (Event α)) :
    pushed (tr ++ os) = pushed tr ++ pushed os := List.filterMap_append

@[simp] theorem removed_append (tr os : List (Event α)) :
    removed (tr ++ os) = removed tr ++ removed os := List.filterMap_append

/-- What was popped was taken out. -/
theorem popped_sublist_removed (tr : List (Event α)) : (popped tr).Sublist (removed tr) := by
  induction tr with
  | nil => exact .slnil
  | cons e tr ih =>
      cases e with
      | pushed x => exact ih
      | popped x => exact ih.cons_cons x
      | dropped x found next => exact ih.cons x

/-! ## one operation -/

/-- A push keeps the bound, and adds its element at the end of what is there. -/
theorem push_spec {max : Nat} (hmax : 0 < max) {q : List α} (h : q.length ≤ max) (x : α) :
    (push max q x).1.length ≤ max ∧ pushed (push max q x).2 = [x] ∧
      removed (push max q x).2 ++ (push max q x).1 = q ++ [x] ∧
      ∀ y found next, .dropped y found next ∈ (push max q x).2 →
        found.length = max ∧ found.head? = some y := by
  cases q with
  | nil =>
      simp only [push, List.mem_singleton, reduceCtorEq, false_implies, implies_true, and_true]
      exact ⟨hmax, rfl, rfl⟩
  | cons oldest rest =>
      have hlen : (oldest :: rest).length = rest.length + 1 := rfl
      rw [push]
      split
      · next hfull =>
          have hbound : (rest ++ [x]).length ≤ max := by
            rw [List.length_append, List.length_singleton]
            omega
          have hdrop : ∀ y found next,
              Event.dropped y found next ∈ [.dropped oldest (oldest :: rest) x, .pushed x] →
                found.length = max ∧ found.head? = some y := by
            grind
          exact ⟨hbound, rfl, rfl, hdrop⟩
      · next hroom =>
          have hbound : (oldest :: rest ++ [x]).length ≤ max := by
            rw [List.length_append, List.length_singleton]
            omega
          have hdrop : ∀ y found next, .dropped y found next ∈ [Event.pushed x] →
              found.length = max ∧ found.head? = some y := by
            grind
          exact ⟨hbound, rfl, rfl, hdrop⟩

theorem pop_spec (q : List α) :
    (pop q).1.length ≤ q.length ∧ pushed (pop q).2 = [] ∧ removed (pop q).2 ++ (pop q).1 = q ∧
      ∀ y found next, .dropped y found next ∉ (pop q).2 := by
  cases q <;> simp [pop, pushed, removed]

/-! ## histories -/

/-- The bound; the order; and drops only out of a full queue, its oldest element. -/
structure Accounts (max : Nat) (q : List α) (tr : List (Event α)) : Prop where
  bound : q.length ≤ max
  order : removed tr ++ q = pushed tr
  full : ∀ x found next, .dropped x found next ∈ tr → found.length = max ∧ found.head? = some x

theorem accounts_nil (max : Nat) : Accounts max ([] : List α) [] where
  bound := Nat.zero_le max
  order := rfl
  full _ _ _ h := nomatch h

theorem Accounts.push {max : Nat} (hmax : 0 < max) {q : List α} {tr : List (Event α)}
    (h : Accounts max q tr) (x : α) : Accounts max (push max q x).1 (tr ++ (push max q x).2) := by
  obtain ⟨hbound, hpushed, horder, hfull⟩ := push_spec hmax h.bound x
  constructor
  · exact hbound
  · rw [removed_append, pushed_append, List.append_assoc, horder, hpushed, ← List.append_assoc,
      h.order]
  · grind [h.full]

theorem Accounts.pop {max : Nat} {q : List α} {tr : List (Event α)} (h : Accounts max q tr) :
    Accounts max (pop q).1 (tr ++ (pop q).2) := by
  obtain ⟨hbound, hpushed, horder, hfull⟩ := pop_spec q
  constructor
  · exact Nat.le_trans hbound h.bound
  · rw [removed_append, pushed_append, List.append_assoc, horder, hpushed, List.append_nil, h.order]
  · grind [h.full]

/-- The popped elements were pushed in this order. -/
theorem Accounts.popped_sublist {max : Nat} {q : List α} {tr : List (Event α)}
    (h : Accounts max q tr) : (popped tr).Sublist (pushed tr) := by
  rw [← h.order]
  exact (popped_sublist_removed tr).trans (List.sublist_append_left _ q)

end Lib.DropOldest
