import Mathlib.Data.Fintype.Basic
import Mathlib.Data.Multiset.OrderedMonoid
import TwinScreen.Lib.Attempt
import TwinScreen.Lib.Machine

/-!
# TwinScreen.Lib.Custody

Handles that calls acquire and release, and the object that holds them in between.

`outstanding` takes the calls in and keeps the handles that are acquired and not yet
released; releasing another one breaks it for good.  `Accounts` says of an operation that
the handles outstanding stay those that the object holds, those that were lost before, and
those that the operation loses; it composes by `accounts_bind`.  `flagged` are the handles
of an object that has at most one of each kind.

A `Custodian` is an object with its handles.  `Custodian.Rules.law_iff_along` is the rule
for whole runs: nothing is kept by a failed try, and nothing outstanding in the end, exactly
when every step is admissible.  `Books` are those of an object that another one uses.
-/

namespace Lib

/-- What a call does with a handle. -/
inductive Receipt (η : Type)
  | acquires (h : η)
  | releases (h : η)
  | neither

variable {σ κ ι η α β : Type}

/-- The handle of a field, if it has one. -/
def carried (f : β → η) : Option β → Multiset η
  | none => 0
  | some b => {f b}

section

variable {f : β → η}

@[simp] theorem carried_none : carried f none = 0 := rfl

@[simp] theorem carried_some (b : β) : carried f (some b) = {f b} := rfl

@[simp] theorem carried_eq_zero_iff {o : Option β} : carried f o = 0 ↔ o = none := by
  cases o <;> simp

end

section

variable [DecidableEq η]

/-- The handles outstanding after a call; `none` once one is released that is not. -/
def outstanding (receipt : κ → Receipt η) : Option (Multiset η) → κ → Option (Multiset η)
  | none, _ => none
  | some out, k =>
      match receipt k with
      | .acquires h => some (h ::ₘ out)
      | .releases h => if h ∈ out then some (out.erase h) else none
      | .neither => some out

namespace Attempt

variable {receipt : κ → Receipt η}

theorem outstanding_neither {k : κ} (h : receipt k = .neither) (g : Option (Multiset η)) :
    outstanding receipt g k = g := by
  cases g <;> simp [outstanding, h]

theorem outstanding_acquires {k : κ} {x : η} (h : receipt k = .acquires x) (out : Multiset η) :
    outstanding receipt (some out) k = some (x ::ₘ out) := by
  simp [outstanding, h]

theorem outstanding_releases {k : κ} {x : η} (h : receipt k = .releases x) (out : Multiset η) :
    outstanding receipt (some (x ::ₘ out)) k = some out := by
  simp [outstanding, h]

/-- A field's handle is released, if it has one. -/
theorem seen_forSome_release {Q : Unit → σ → Option (Multiset η) → Prop}
    {E : σ → Option (Multiset η) → Prop} {s : σ} {k : β → κ} {f : β → η} (o : Option β)
    (out : Multiset η) (hk : ∀ b, receipt (k b) = .releases (f b)) :
    Seen (outstanding receipt) (forSome o fun b => issue (k b)) Q E s
      (some (carried f o + out)) ↔ Q () s (some out) := by
  cases o with
  | none => simp
  | some b => simp [outstanding_releases (hk b)]

/-- Releasing the handles of a list releases them all. -/
theorem seen_issueAll_release {Q : Unit → σ → Option (Multiset η) → Prop}
    {E : σ → Option (Multiset η) → Prop} {s : σ} {k : β → κ} {f : β → η} (bs : List β)
    (out : Multiset η) (hk : ∀ b, receipt (k b) = .releases (f b)) :
    Seen (outstanding receipt) (issueAll (bs.map k)) Q E s
      (some ((bs.map f : Multiset η) + out)) ↔ Q () s (some out) := by
  have hfold : (bs.map k).foldl (outstanding receipt) (some ((bs.map f : Multiset η) + out)) =
      some out := by
    induction bs with
    | nil => simp
    | cons b bs ih =>
        rw [List.map_cons, List.map_cons, List.foldl_cons, ← Multiset.cons_coe, Multiset.cons_add,
          outstanding_releases (hk b), ih]
  rw [seen_issueAll, hfold]

/-- Handles are asked for, all with success. -/
theorem seen_issueAll_acquire {Q : Unit → σ → Option (Multiset η) → Prop}
    {E : σ → Option (Multiset η) → Prop} {s : σ} {k : β → κ} {f : β → η} (bs : List β)
    (out : Multiset η) (hk : ∀ b, receipt (k b) = .acquires (f b)) :
    Seen (outstanding receipt) (issueAll (bs.map k)) Q E s (some out) ↔
      Q () s (some ((bs.map f : Multiset η) + out)) := by
  have hfold (out : Multiset η) : (bs.map k).foldl (outstanding receipt) (some out) =
      some ((bs.map f : Multiset η) + out) := by
    induction bs generalizing out with
    | nil => simp
    | cons b bs ih =>
        rw [List.map_cons, List.map_cons, List.foldl_cons, outstanding_acquires (hk b), ih,
          Multiset.add_cons, ← Multiset.cons_coe, Multiset.cons_add]
  rw [seen_issueAll, hfold]

/-! ## operations -/

variable {held : σ → Multiset η}

/-- Whatever was lost before, the handles outstanding are afterwards those held, those lost
before, and `more`. -/
def Accounts (receipt : κ → Receipt η) (held : σ → Multiset η) (x : Attempt σ κ α)
    (Q : α → σ → Multiset η → Prop) (E : σ → Multiset η → Prop) (s : σ) : Prop :=
  ∀ lost, Seen (outstanding receipt) x
    (fun a s' g => ∃ more, Q a s' more ∧ g = some (held s' + (more + lost)))
    (fun s' g => ∃ more, E s' more ∧ g = some (held s' + (more + lost)))
    s (some (held s + lost))

variable {Q : α → σ → Multiset η → Prop} {E : σ → Multiset η → Prop} {s : σ}

/-- Weaker conclusions. -/
theorem Accounts.mono {x : Attempt σ κ α} {Q' : α → σ → Multiset η → Prop}
    {E' : σ → Multiset η → Prop} (h : Accounts receipt held x Q E s)
    (hQ : ∀ a s more, Q a s more → Q' a s more) (hE : ∀ s more, E s more → E' s more) :
    Accounts receipt held x Q' E' s :=
  fun lost => (h lost).mono (fun _ _ _ ⟨more, hq, hg⟩ => ⟨more, hQ _ _ _ hq, hg⟩)
    fun _ _ ⟨more, he, hg⟩ => ⟨more, hE _ _ he, hg⟩

/-- The books alone. -/
theorem Accounts.forget {x : Attempt σ κ α} (h : Accounts receipt held x Q E s) :
    Accounts receipt held x (fun _ _ _ => True) (fun _ _ => True) s :=
  h.mono (fun _ _ _ _ => trivial) fun _ _ _ => trivial

/-- **Sequencing**: what the parts lose adds up. -/
theorem accounts_bind {x : Attempt σ κ β} {f : β → Attempt σ κ α}
    {P : β → σ → Multiset η → Prop} (hx : Accounts receipt held x P E s)
    (hf : ∀ b s' more, P b s' more → Accounts receipt held (f b)
      (fun a s'' more' => Q a s'' (more' + more)) (fun s'' more' => E s'' (more' + more)) s') :
    Accounts receipt held (x >>= f) Q E s := by
  intro lost
  apply seen_bind_of (hx lost)
  rintro b s' g ⟨more, hP, rfl⟩
  apply (hf b s' more hP (more + lost)).mono
  · rintro a s'' g ⟨more', hQ, rfl⟩
    exact ⟨more' + more, hQ, by rw [add_assoc more']⟩
  · rintro s'' g ⟨more', hE, rfl⟩
    exact ⟨more' + more, hE, by rw [add_assoc more']⟩

theorem accounts_state_bind {f : σ → Attempt σ κ α} (h : Accounts receipt held (f s) Q E s) :
    Accounts receipt held (state >>= f) Q E s :=
  fun lost => (seen_bind state f).mpr (seen_state.mpr (h lost))

theorem accounts_update_bind {u : σ → σ} {f : Unit → Attempt σ κ α} (hu : held (u s) = held s)
    (h : Accounts receipt held (f ()) Q E (u s)) :
    Accounts receipt held (update u >>= f) Q E s := by
  intro lost
  rw [seen_bind, seen_update, ← hu]
  exact h lost

theorem accounts_issue_bind {k : κ} {f : Unit → Attempt σ κ α} (hk : receipt k = .neither)
    (h : Accounts receipt held (f ()) Q E s) : Accounts receipt held (issue k >>= f) Q E s := by
  intro lost
  rw [seen_bind, seen_issue, outstanding_neither hk]
  exact h lost

theorem accounts_outcome_bind {o : Option β} {f : β → Attempt σ κ α} (hE : E s 0)
    (h : ∀ b, Accounts receipt held (f b) Q E s) :
    Accounts receipt held (outcome o >>= f) Q E s := by
  intro lost
  rw [seen_bind, seen_outcome]
  cases o with
  | none => exact ⟨0, hE, by rw [zero_add]⟩
  | some b => exact h b lost

theorem accounts_check_bind {b : Bool} {f : Unit → Attempt σ κ α}
    (h : b = true → Accounts receipt held (f ()) Q E s) (h' : b = false → E s 0) :
    Accounts receipt held (check b >>= f) Q E s := by
  intro lost
  rw [seen_bind, seen_check]
  cases b with
  | true => exact h rfl lost
  | false => exact ⟨0, h' rfl, by rw [zero_add]⟩

/-- Starting over: an object that is ready is taken down and set up again. -/
theorem accounts_restart {ready : σ → Bool} {down : Attempt σ κ Unit} {up : σ → Attempt σ κ α}
    {I : σ → Prop} (hs : I s)
    (hdown : Accounts receipt held down (fun _ s' _ => I s') (fun _ _ => False) s)
    (hup : ∀ s', I s' →
      Accounts receipt held (up s') (fun _ s'' _ => I s'') (fun s'' _ => I s'') s') :
    Accounts receipt held (do
      let s ← state
      check (ready s)
      down
      let s ← state
      up s) (fun _ s' _ => I s') (fun s' _ => I s') s := by
  apply accounts_state_bind
  apply accounts_check_bind (fun _ => ?_) fun _ => hs
  apply accounts_bind (hdown.mono (fun _ _ _ h => h) fun _ _ h => h.elim)
  exact fun _ s' _ h => accounts_state_bind (hup s' h)

/-- A handle is asked for and stored; `d`, what was stored in its place, is lost. -/
theorem accounts_get_bind {k : Option β → κ} {o : Option β} {f : β → η} {u : β → σ → σ}
    {g : β → Unit → Attempt σ κ α} {d : Multiset η} (hnone : receipt (k none) = .neither)
    (hsome : ∀ b, receipt (k (some b)) = .acquires (f b))
    (hold : ∀ b, {f b} + held s = held (u b s) + d) (hE : E s 0)
    (hg : ∀ b, Accounts receipt held (g b ()) (fun a s' more => Q a s' (more + d))
      (fun s' more => E s' (more + d)) (u b s)) :
    Accounts receipt held (issue (k o) >>= fun _ => outcome o >>= fun b => update (u b) >>= g b)
      Q E s := by
  intro lost
  cases o with
  | none =>
      simp only [seen_bind, seen_issue, seen_outcome, outstanding_neither hnone]
      exact ⟨0, hE, by rw [zero_add]⟩
  | some b =>
      simp only [seen_bind, seen_issue, seen_outcome, seen_update, outstanding_acquires (hsome b)]
      rw [← Multiset.singleton_add, ← add_assoc, hold b, add_assoc]
      apply (hg b (d + lost)).mono
      · rintro a s' _ ⟨more, hQ, rfl⟩
        exact ⟨more + d, hQ, by rw [add_assoc more]⟩
      · rintro s' _ ⟨more, hE, rfl⟩
        exact ⟨more + d, hE, by rw [add_assoc more]⟩

theorem accounts_get {k : Option β → κ} {o : Option β} {f : β → η} {u : β → σ → σ}
    {Q : Unit → σ → Multiset η → Prop} {d : Multiset η} (hnone : receipt (k none) = .neither)
    (hsome : ∀ b, receipt (k (some b)) = .acquires (f b))
    (hold : ∀ b, {f b} + held s = held (u b s) + d) (hE : E s 0) (hQ : ∀ b, Q () (u b s) d) :
    Accounts receipt held (issue (k o) >>= fun _ => outcome o >>= fun b => update (u b)) Q E s := by
  apply accounts_get_bind (g := fun _ => pure) hnone hsome hold hE
  intro b lost
  rw [seen_pure]
  exact ⟨0, by simpa only [zero_add] using hQ b, by rw [zero_add]⟩

/-- A clean-up starts from what the operation has left. -/
theorem accounts_orCleanUp {x : Attempt σ κ α} {y : Attempt σ κ Unit}
    {E' : σ → Multiset η → Prop} (hx : Accounts receipt held x Q E' s)
    (hy : ∀ s' more, E' s' more → Accounts receipt held y
      (fun _ s'' more' => E s'' (more' + more)) (fun s'' more' => E s'' (more' + more)) s') :
    Accounts receipt held (orCleanUp x y) Q E s := by
  intro lost
  rw [seen_orCleanUp]
  apply (hx lost).mono fun _ _ _ h => h
  rintro s' g ⟨more, hE, rfl⟩
  apply (hy s' more hE (more + lost)).mono
  · rintro _ s'' g ⟨more', hE', rfl⟩
    exact ⟨more' + more, hE', by rw [add_assoc more']⟩
  · rintro s'' g ⟨more', hE', rfl⟩
    exact ⟨more' + more, hE', by rw [add_assoc more']⟩

/-- The handles outstanding stay those held, and those lost before. -/
def Lossless (receipt : κ → Receipt η) (held : σ → Multiset η) (x : Attempt σ κ α)
    (Q : α → σ → Prop) (E : σ → Prop) (s : σ) : Prop :=
  ∀ lost, Seen (outstanding receipt) x (fun a s' g => Q a s' ∧ g = some (held s' + lost))
    (fun s' g => E s' ∧ g = some (held s' + lost)) s (some (held s + lost))

section

variable {Q : α → σ → Prop} {E : σ → Prop}

theorem Lossless.accounts {x : Attempt σ κ α} (h : Lossless receipt held x Q E s) :
    Accounts receipt held x (fun a s' more => Q a s' ∧ more = 0) (fun s' more => E s' ∧ more = 0)
      s := by
  intro lost
  apply (h lost).mono
  · rintro a s' g ⟨hQ, rfl⟩
    exact ⟨0, ⟨hQ, rfl⟩, by rw [zero_add]⟩
  · rintro s' g ⟨hE, rfl⟩
    exact ⟨0, ⟨hE, rfl⟩, by rw [zero_add]⟩

theorem Accounts.lossless {x : Attempt σ κ α}
    (h : Accounts receipt held x (fun a s' more => Q a s' ∧ more = 0)
      (fun s' more => E s' ∧ more = 0) s) : Lossless receipt held x Q E s := by
  intro lost
  apply (h lost).mono
  · rintro a s' g ⟨_, ⟨hQ, rfl⟩, rfl⟩
    exact ⟨hQ, by rw [zero_add]⟩
  · rintro s' g ⟨_, ⟨hE, rfl⟩, rfl⟩
    exact ⟨hE, by rw [zero_add]⟩

theorem Lossless.mono {x : Attempt σ κ α} {Q' : α → σ → Prop} {E' : σ → Prop}
    (h : Lossless receipt held x Q E s) (hQ : ∀ a s, Q a s → Q' a s) (hE : ∀ s, E s → E' s) :
    Lossless receipt held x Q' E' s :=
  fun lost => (h lost).mono (fun _ _ _ ⟨hq, hg⟩ => ⟨hQ _ _ hq, hg⟩) fun _ _ ⟨he, hg⟩ =>
    ⟨hE _ he, hg⟩

theorem lossless_bind {x : Attempt σ κ β} {f : β → Attempt σ κ α} {P : β → σ → Prop}
    (hx : Lossless receipt held x P E s)
    (hf : ∀ b s', P b s' → Lossless receipt held (f b) Q E s') :
    Lossless receipt held (x >>= f) Q E s := by
  intro lost
  apply seen_bind_of (hx lost)
  rintro b s' g ⟨hP, rfl⟩
  exact hf b s' hP lost

theorem lossless_orCleanUp {x : Attempt σ κ α} {y : Attempt σ κ Unit} {E' : σ → Prop}
    (hx : Lossless receipt held x Q E' s)
    (hy : ∀ s', E' s' → Lossless receipt held y (fun _ => E) E s') :
    Lossless receipt held (orCleanUp x y) Q E s := by
  intro lost
  rw [seen_orCleanUp]
  apply (hx lost).mono fun _ _ _ h => h
  rintro s' g ⟨hE, rfl⟩
  exact hy s' hE lost

theorem lossless_state_bind {f : σ → Attempt σ κ α} (h : Lossless receipt held (f s) Q E s) :
    Lossless receipt held (state >>= f) Q E s :=
  fun lost => (seen_bind state f).mpr (seen_state.mpr (h lost))

theorem lossless_check_bind {b : Bool} {f : Unit → Attempt σ κ α}
    (h : b = true → Lossless receipt held (f ()) Q E s) (h' : b = false → E s) :
    Lossless receipt held (check b >>= f) Q E s := by
  intro lost
  rw [seen_bind, seen_check]
  cases b with
  | true => exact h rfl lost
  | false => exact ⟨h' rfl, rfl⟩

theorem lossless_whenever {Q : Unit → σ → Prop} {b : Bool} {x : Attempt σ κ Unit}
    (h : b = true → Lossless receipt held x Q E s) (h' : b = false → Q () s) :
    Lossless receipt held (whenever b x) Q E s := by
  cases b with
  | true => exact h rfl
  | false => exact fun _ => (seen_whenever false x).mpr ⟨h' rfl, rfl⟩

/-- Starting over: an object that is ready is taken down and set up again. -/
theorem lossless_restart {ready : σ → Bool} {down : Attempt σ κ Unit} {up : σ → Attempt σ κ α}
    {D : σ → Prop} (hdown : Lossless receipt held down (fun _ => D) (fun _ => False) s)
    (hup : ∀ s', D s' → Lossless receipt held (up s') Q E s') :
    Lossless receipt held (do
      let s ← state
      check (ready s)
      down
      let s ← state
      up s) Q (fun s' => if ready s then E s' else s' = s) s := by
  apply lossless_state_bind
  apply lossless_check_bind
  · intro hready
    simp only [hready, if_true]
    apply lossless_bind (hdown.mono (fun _ _ h => h) fun _ h => h.elim)
    exact fun _ s' h => lossless_state_bind (hup s' h)
  · intro hidle
    simp [hidle]

/-- An operation without calls for handles, on a state whose handles stay. -/
theorem Wp.lossless {x : Attempt σ κ α}
    (h : Wp (fun k => receipt k = .neither) x (fun a s' => Q a s' ∧ held s' = held s)
      (fun s' => E s' ∧ held s' = held s) s) :
    Lossless receipt held x Q E s := by
  intro lost
  apply (h.seen (fun k hk g => outstanding_neither hk g) (some (held s + lost))).mono
  · rintro a s' g ⟨⟨hQ, hheld⟩, rfl⟩
    exact ⟨hQ, by rw [hheld]⟩
  · rintro s' g ⟨⟨hE, hheld⟩, rfl⟩
    exact ⟨hE, by rw [hheld]⟩

end

/-- An operation that leaves alone what the handles depend on. -/
theorem Keeps.lossless {δ : Type} {v : σ → δ} {x : Attempt σ κ α}
    (h : Keeps (fun k => receipt k = .neither) v x)
    (hheld : ∀ s s', v s' = v s → held s' = held s) (s : σ) :
    Lossless receipt held x (fun _ s' => v s' = v s) (fun s' => v s' = v s) s :=
  Wp.lossless ((h s).mono (fun _ s' h' => ⟨h', hheld s s' h'⟩) fun s' h' => ⟨h', hheld s s' h'⟩)

/-- The balance of an operation, however it ends. -/
theorem Accounts.balance {x : Attempt σ κ α} (h : Accounts receipt held x Q E s)
    (lost : Multiset η) :
    ∃ more, (x s).2.2.foldl (outstanding receipt) (some (held s + lost)) =
        some (held (x s).2.1 + (more + lost)) ∧
      match (x s).1 with
      | none => E (x s).2.1 more
      | some a => Q a (x s).2.1 more := by
  have hlost := h lost
  simp only [Seen] at hlost
  cases hx : (x s).1 with
  | none =>
      simp only [hx] at hlost
      obtain ⟨more, hend, hg⟩ := hlost
      exact ⟨more, hg, hend⟩
  | some a =>
      simp only [hx] at hlost
      obtain ⟨more, hend, hg⟩ := hlost
      exact ⟨more, hg, hend⟩

theorem Lossless.balance {x : Attempt σ κ α} {Q : α → σ → Prop} {E : σ → Prop}
    (h : Lossless receipt held x Q E s) :
    (x s).2.2.foldl (outstanding receipt) (some (held s)) = some (held (x s).2.1) ∧
      match (x s).1 with
      | none => E (x s).2.1
      | some a => Q a (x s).2.1 := by
  have hnone := h 0
  simp only [add_zero, Seen] at hnone
  cases hx : (x s).1 with
  | none => simpa only [hx, and_comm] using hnone
  | some a => simpa only [hx, and_comm] using hnone

end Attempt

end

/-! ## one of a kind -/

section

variable [Fintype η] {f : η → Bool} {h : η}

/-- The handles of an object that holds at most one of each kind. -/
def flagged (f : η → Bool) : Multiset η := (Finset.univ.filter fun h => f h = true).val

theorem mem_flagged : h ∈ flagged f ↔ f h = true := by
  rw [flagged, Finset.mem_val, Finset.mem_filter, and_iff_right (Finset.mem_univ h)]

theorem flagged_eq_zero_iff : flagged f = 0 ↔ ∀ h, f h = false := by
  simp only [Multiset.eq_zero_iff_forall_notMem, mem_flagged, Bool.not_eq_true]

theorem flagged_nodup (f : η → Bool) : (flagged f).Nodup := Finset.nodup _

variable [DecidableEq η] {receipt : κ → Receipt η} {k : κ}

theorem outstanding_acquires_flagged (hk : receipt k = .acquires h) (hf : f h = false) :
    outstanding receipt (some (flagged f)) k = some (flagged (Function.update f h true)) := by
  have hnot : h ∉ flagged f := by simp [mem_flagged, hf]
  rw [Attempt.outstanding_acquires hk, Option.some_inj,
    ((flagged_nodup f).cons hnot).ext (flagged_nodup _)]
  intro x
  by_cases hx : x = h <;> simp [mem_flagged, hx]

theorem outstanding_releases_flagged (hk : receipt k = .releases h) (hf : f h = true) :
    outstanding receipt (some (flagged f)) k = some (flagged (Function.update f h false)) := by
  have hmem : h ∈ flagged f := mem_flagged.mpr hf
  rw [← Multiset.cons_erase hmem, Attempt.outstanding_releases hk, Option.some_inj,
    ((flagged_nodup f).erase h).ext (flagged_nodup _)]
  intro x
  rw [(flagged_nodup f).mem_erase_iff, mem_flagged, mem_flagged]
  by_cases hx : x = h <;> simp [hx]

end

/-! ## runs -/

open Attempt

/-- An object with its operations, and the handles it holds; an input that `Tries` for
handles is to hold none when it gives up. -/
structure Custodian (σ ι κ η : Type) where
  exec : ι → Attempt σ κ Unit
  receipt : κ → Receipt η
  held : σ → Multiset η
  Tries : σ → ι → Prop

namespace Custodian

variable (C : Custodian σ ι κ η)

/-- The object from some state on; the outputs are the calls it issues. -/
def machine : Machine σ ι κ where
  step s i := some (C.exec i s).2

theorem run_cons_of {s s' : σ} {i : ι} {is : List ι} {calls : List κ}
    (h : C.machine.run (C.exec i s).2.1 is = some (s', calls)) :
    C.machine.run s (i :: is) = some (s', (C.exec i s).2.2 ++ calls) := by
  simp only [Machine.run, machine] at h ⊢
  rw [h, Option.map_some]

/-- Every input is possible. -/
theorem run_total (s : σ) (is : List ι) : ∃ s' calls, C.machine.run s is = some (s', calls) := by
  induction is generalizing s with
  | nil => exact ⟨s, [], rfl⟩
  | cons i is ih =>
      obtain ⟨s', calls, hrest⟩ := ih (C.exec i s).2.1
      exact ⟨s', (C.exec i s).2.2 ++ calls, C.run_cons_of hrest⟩

theorem run_cons {s s' : σ} {i : ι} {is : List ι} {calls : List κ}
    (h : C.machine.run s (i :: is) = some (s', calls)) :
    ∃ os, C.machine.run (C.exec i s).2.1 is = some (s', os) ∧ calls = (C.exec i s).2.2 ++ os := by
  obtain ⟨s₁, o, os, hstep, hrest, rfl⟩ := C.machine.run_cons h
  have hpair : (C.exec i s).2 = (s₁, o) := Option.some.inj hstep
  rw [hpair]
  exact ⟨os, hrest, rfl⟩

theorem along_cons {ok : σ → ι → Prop} {s : σ} {i : ι} {is : List ι} :
    C.machine.Along ok s (i :: is) ↔ ok s i ∧ C.machine.Along ok (C.exec i s).2.1 is := by
  simp [Machine.Along, machine, Prod.ext_iff]

/-- A try that gives up leaves a state that meets `K`. -/
def FailsInto (K : σ → Prop) (s : σ) (i : ι) : Prop :=
  C.Tries s i → (C.exec i s).1 = none → K (C.exec i s).2.1

/-- A try that gives up leaves a state that holds no handle. -/
abbrev EmptyHanded : σ → ι → Prop := C.FailsInto fun s => C.held s = 0

variable [DecidableEq η]

/-- No try that gives up keeps a handle, and after the run and `last` every handle that
was acquired has been released, and none twice. -/
structure Law (last : ι) (s : σ) (is : List ι) : Prop where
  emptyHanded : C.machine.Along C.EmptyHanded s is
  released : ∀ s' calls, C.machine.run s (is ++ [last]) = some (s', calls) →
    calls.foldl (outstanding C.receipt) (some (C.held s)) = some 0

/-- The law; moreover what gives up meets `K`, and `last` leaves nothing to do for another
one. -/
structure Released (last : ι) (K : σ → Prop) (s : σ) (is : List ι) : Prop
    extends C.Law last s is where
  failsInto : C.machine.Along (C.FailsInto K) s is
  idempotent : ∀ s, C.exec last (C.exec last s).2.1 = (some (), (C.exec last s).2.1, [])

/-- What the rule asks of the operations.  `Inv` holds in every run, `Good` in every
admissible one. -/
structure Rules (last : ι) (Inv Good : σ → Prop) (ok : σ → ι → Prop) : Prop where
  accounts : ∀ i s, Inv s →
    Accounts C.receipt C.held (C.exec i) (fun _ s' _ => Inv s') (fun s' _ => Inv s') s
  inv : ∀ s, Good s → Inv s
  keeps : ∀ i s, Good s → ok s i →
    Lossless C.receipt C.held (C.exec i) (fun _ => Good)
      (fun s' => Good s' ∧ (C.Tries s i → C.held s' = 0)) s
  loses : ∀ i s, Good s → ¬ ok s i →
    Accounts C.receipt C.held (C.exec i) (fun _ _ more => more ≠ 0)
      (fun s' more => more = 0 → C.Tries s i ∧ C.held s' ≠ 0) s
  empties : ∀ s, Good s →
    Lossless C.receipt C.held (C.exec last) (fun _ s' => C.held s' = 0) (fun _ => False) s

/-- A good state, and the calls that have led to it: what is outstanding is what it holds. -/
structure Books (Good : σ → Prop) (s : σ) (calls : List κ) : Prop where
  good : Good s
  balance : calls.foldl (outstanding C.receipt) (some 0) = some (C.held s)

namespace Rules

variable {C} {last : ι} {Inv Good : σ → Prop} {ok : σ → ι → Prop} {s s' : σ} {is : List ι}
  {calls : List κ} (h : C.Rules last Inv Good ok)
include h

theorem step_inv (hs : Inv s) (i : ι) : Inv (C.exec i s).2.1 := by
  obtain ⟨_, -, hend⟩ := (h.accounts i s hs).balance 0
  split at hend <;> exact hend

/-- What is lost once stays outstanding. -/
theorem run_accounts (hs : Inv s) (hrun : C.machine.run s is = some (s', calls))
    (lost : Multiset η) :
    ∃ more, calls.foldl (outstanding C.receipt) (some (C.held s + lost)) =
      some (C.held s' + (more + lost)) := by
  induction is generalizing s lost calls with
  | nil =>
      cases hrun
      exact ⟨0, by rw [zero_add]; rfl⟩
  | cons i is ih =>
      obtain ⟨os, hrest, rfl⟩ := C.run_cons hrun
      obtain ⟨more, hbalance, -⟩ := (h.accounts i s hs).balance lost
      obtain ⟨more', hos⟩ := ih (h.step_inv hs i) hrest (more + lost)
      exact ⟨more' + more, by rw [List.foldl_append, hbalance, hos, add_assoc more']⟩

/-- An admissible step keeps the books. -/
theorem step_keeps (hs : Good s) {i : ι} (hok : ok s i) :
    (C.exec i s).2.2.foldl (outstanding C.receipt) (some (C.held s)) =
        some (C.held (C.exec i s).2.1) ∧
      Good (C.exec i s).2.1 ∧ C.EmptyHanded s i := by
  obtain ⟨hbalance, hend⟩ := (h.keeps i s hs hok).balance
  rw [EmptyHanded, FailsInto]
  cases hresult : (C.exec i s).1 with
  | none =>
      simp only [hresult] at hend
      exact ⟨hbalance, hend.1, fun htries _ => hend.2 htries⟩
  | some a =>
      simp only [hresult] at hend
      exact ⟨hbalance, hend, fun _ hnone => by contradiction⟩

/-- An inadmissible step loses a handle. -/
theorem step_loses (hs : Good s) {i : ι} (hnot : ¬ ok s i) (hempty : C.EmptyHanded s i) :
    ∃ more, more ≠ 0 ∧
      (C.exec i s).2.2.foldl (outstanding C.receipt) (some (C.held s)) =
        some (C.held (C.exec i s).2.1 + more) := by
  obtain ⟨more, hbalance, hend⟩ := (h.loses i s hs hnot).balance 0
  rw [add_zero, add_zero] at hbalance
  refine ⟨more, ?_, hbalance⟩
  cases hresult : (C.exec i s).1 with
  | none =>
      simp only [hresult] at hend
      intro hzero
      obtain ⟨htries, hheld⟩ := hend hzero
      exact hheld (hempty htries hresult)
  | some a => simpa only [hresult] using hend

/-- **Exactness**: from a good state, the law holds of a run exactly when all its steps
are admissible. -/
theorem law_iff_along (hs : Good s) : C.Law last s is ↔ C.machine.Along ok s is := by
  induction is generalizing s with
  | nil =>
      refine iff_of_true ⟨trivial, fun s' calls hrun => ?_⟩ trivial
      cases hrun
      obtain ⟨hbalance, hend⟩ := (h.empties s hs).balance
      split at hend
      · exact hend.elim
      · rw [List.append_nil, hbalance, hend]
  | cons i is ih =>
      rw [along_cons]
      by_cases hok : ok s i
      · obtain ⟨hledger, hgood, hempty⟩ := h.step_keeps hs hok
        simp only [hok, true_and, ← ih hgood]
        constructor
        · rintro ⟨halong, hreleased⟩
          refine ⟨(C.along_cons.mp halong).2, fun s' os hrest => ?_⟩
          have hall := hreleased s' _ (C.run_cons_of hrest)
          rwa [List.foldl_append, hledger] at hall
        · rintro ⟨halong, hreleased⟩
          refine ⟨C.along_cons.mpr ⟨hempty, halong⟩, fun s' calls hcalls => ?_⟩
          obtain ⟨os, hrest, rfl⟩ := C.run_cons hcalls
          rw [List.foldl_append, hledger]
          exact hreleased s' os hrest
      · refine iff_of_false ?_ fun halong => hok halong.1
        rintro ⟨halong, hreleased⟩
        -- what the step loses is still outstanding in the end
        obtain ⟨lost, hlost, hledger⟩ := h.step_loses hs hok (C.along_cons.mp halong).1
        obtain ⟨s', os, hrest⟩ := C.run_total (C.exec i s).2.1 (is ++ [last])
        obtain ⟨more, hos⟩ := h.run_accounts (h.step_inv (h.inv s hs) i) hrest lost
        have hzero := hreleased s' _ (C.run_cons_of hrest)
        rw [List.foldl_append, hledger, hos, Option.some.injEq] at hzero
        exact hlost (add_eq_zero.mp (add_eq_zero.mp hzero).2).2

/-- What a run leaves behind is released exactly if its steps are admissible and meet the condition
that leads into `K`. -/
theorem released_iff_along {K : σ → Prop} {ok' : σ → ι → Prop}
    (hK : ∀ s i, C.FailsInto K s i ↔ ok' s i)
    (hlast : ∀ s, C.exec last (C.exec last s).2.1 = (some (), (C.exec last s).2.1, []))
    (hs : Good s) :
    C.Released last K s is ↔ C.machine.Along (fun s i => ok s i ∧ ok' s i) s is := by
  rw [Machine.along_and, ← h.law_iff_along hs, ← C.machine.along_congr hK]
  exact ⟨fun hall => ⟨hall.toLaw, hall.failsInto⟩, fun hboth => ⟨hboth.1, hboth.2, hlast⟩⟩

/-- The books of an object that is used by another one. -/
theorem books_step (hbooks : C.Books Good s calls) {i : ι} (hok : ok s i) :
    C.Books Good (C.exec i s).2.1 (calls ++ (C.exec i s).2.2) ∧ C.EmptyHanded s i := by
  obtain ⟨hledger, hgood, hempty⟩ := h.step_keeps hbooks.good hok
  exact ⟨⟨hgood, by rw [List.foldl_append, hbooks.balance, hledger]⟩, hempty⟩

theorem held_last (hs : Good s) : C.held (C.exec last s).2.1 = 0 := by
  obtain ⟨-, hend⟩ := (h.empties s hs).balance
  split at hend
  · exact hend.elim
  · exact hend

end Rules

end Custodian

end Lib
