/-!
# TwinScreen.Lib.Attempt

Fallible operations on a state that issue calls: an operation ends with a result or
gives up, and either way leaves the state and the calls as they are by then.

`Wp law x Q E s` says that `x`, started in `s`, issues only calls that meet `law`,
and ends in `Q` with its result or gives up in `E`.  It is exact for each of the
combinators (the simp set), and composes by `wp_bind_of`.  `gaveUp_imp_iff` reads an
exact condition for a failure off it.

`Seen obs x Q E s g` is the same for laws that look back: an observer, in `g` before
`x`, takes every call in with `obs`, and `Q` and `E` also speak of what it has seen.
`Wp.seen` frames the parts of which it takes no notice.

`Keeps law v x` says that `x` leaves `v` of the state as it is; it goes through the
combinators one by one.
-/

namespace Lib

/-- An operation: its result, `none` when it gave up, the state it leaves, and the
calls it issued. -/
def Attempt (σ κ α : Type) : Type := σ → Option α × σ × List κ

namespace Attempt

variable {σ κ α β : Type}

/-! ## combinators -/

instance : Monad (Attempt σ κ) where
  pure a := fun s => (some a, s, [])
  bind x f := fun s =>
    match x s with
    | (none, s', ks) => (none, s', ks)
    | (some a, s', ks) =>
        let (r, s'', ks') := f a s'
        (r, s'', ks ++ ks')

/-- The state as it is. -/
def state : Attempt σ κ σ := fun s => (some s, s, [])

def update (f : σ → σ) : Attempt σ κ Unit := fun s => (some (), f s, [])

def issue (k : κ) : Attempt σ κ Unit := fun s => (some (), s, [k])

def issueAll (ks : List κ) : Attempt σ κ Unit := fun s => (some (), s, ks)

/-- The outcome of a call: its result, or give up. -/
def outcome (o : Option α) : Attempt σ κ α := fun s => (o, s, [])

/-- Give up unless `b`. -/
def check (b : Bool) : Attempt σ κ Unit := outcome (if b then some () else none)

def whenever (b : Bool) (x : Attempt σ κ Unit) : Attempt σ κ Unit := if b then x else pure ()

def forSome (o : Option α) (f : α → Attempt σ κ Unit) : Attempt σ κ Unit :=
  match o with
  | none => pure ()
  | some a => f a

/-- `x`, and when it gives up, `y` before giving up. -/
def orCleanUp (x : Attempt σ κ α) (y : Attempt σ κ Unit) : Attempt σ κ α := fun s =>
  match x s with
  | (none, s', ks) =>
      let (_, s'', ks') := y s'
      (none, s'', ks ++ ks')
  | r => r

/-- `x`, whether it gives up or not. -/
def ignore (x : Attempt σ κ α) : Attempt σ κ Unit := fun s => (some (), (x s).2)

/-! ## weakest preconditions -/

/-- Every call meets `law`, and the operation ends in `Q` or gives up in `E`. -/
def Wp (law : κ → Prop) (x : Attempt σ κ α) (Q : α → σ → Prop) (E : σ → Prop) (s : σ) : Prop :=
  (∀ k ∈ (x s).2.2, law k) ∧
    match (x s).1 with
    | none => E (x s).2.1
    | some a => Q a (x s).2.1

variable {law : κ → Prop} {Q : α → σ → Prop} {E : σ → Prop} {s : σ}

@[simp] theorem wp_pure (a : α) : Wp law (pure a) Q E = Q a := by
  funext s
  simp [Wp, pure]

@[simp] theorem wp_bind (x : Attempt σ κ β) (f : β → Attempt σ κ α) :
    Wp law (x >>= f) Q E s ↔ Wp law x (fun b => Wp law (f b) Q E) E s := by
  simp only [Wp, bind]
  rcases x s with ⟨_ | b, s', ks⟩
  · rfl
  · simp [or_imp, forall_and, and_assoc]

@[simp] theorem wp_state {Q : σ → σ → Prop} : Wp law state Q E s ↔ Q s s := by
  simp [Wp, state]

@[simp] theorem wp_update {Q : Unit → σ → Prop} (f : σ → σ) :
    Wp law (update f) Q E s ↔ Q () (f s) := by
  simp [Wp, update]

@[simp] theorem wp_issue {Q : Unit → σ → Prop} (k : κ) :
    Wp law (issue k) Q E s ↔ law k ∧ Q () s := by
  simp [Wp, issue]

@[simp] theorem wp_issueAll {Q : Unit → σ → Prop} (ks : List κ) :
    Wp law (issueAll ks) Q E s ↔ (∀ k ∈ ks, law k) ∧ Q () s := by
  simp [Wp, issueAll]

@[simp] theorem wp_outcome (o : Option α) :
    Wp law (outcome o) Q E s ↔
      match o with
      | none => E s
      | some a => Q a s := by
  simp [Wp, outcome]

@[simp] theorem wp_check {Q : Unit → σ → Prop} (b : Bool) :
    Wp law (check b) Q E s ↔ if b then Q () s else E s := by
  cases b <;> simp [check]

@[simp] theorem wp_whenever {Q : Unit → σ → Prop} (b : Bool) (x : Attempt σ κ Unit) :
    Wp law (whenever b x) Q E s ↔ if b then Wp law x Q E s else Q () s := by
  cases b <;> simp [whenever]

@[simp] theorem wp_forSome {Q : Unit → σ → Prop} (o : Option β) (f : β → Attempt σ κ Unit) :
    Wp law (forSome o f) Q E s ↔
      match o with
      | none => Q () s
      | some b => Wp law (f b) Q E s := by
  cases o <;> simp [forSome]

/-- A call for a handle that may be missing changes nothing else. -/
@[simp high] theorem wp_forSome_issue {Q : Unit → σ → Prop} (o : Option β) (k : β → κ) :
    Wp law (forSome o fun b => issue (k b)) Q E s ↔ (∀ b, o = some b → law (k b)) ∧ Q () s := by
  cases o <;> simp

@[simp] theorem wp_orCleanUp (x : Attempt σ κ α) (y : Attempt σ κ Unit) :
    Wp law (orCleanUp x y) Q E s ↔ Wp law x Q (Wp law y (fun _ => E) E) s := by
  simp only [Wp, orCleanUp]
  rcases x s with ⟨_ | a, s', ks⟩
  · rcases hy : y s' with ⟨_ | b, s'', ks'⟩ <;> simp [hy, or_imp, forall_and, and_assoc]
  · rfl

@[simp] theorem wp_ignore {Q : Unit → σ → Prop} (x : Attempt σ κ α) :
    Wp law (ignore x) Q E s ↔ Wp law x (fun _ => Q ()) (Q ()) s := by
  simp only [Wp, ignore]
  split <;> rfl

/-- The calls alone. -/
theorem wp_calls {x : Attempt σ κ α} :
    Wp law x (fun _ _ => True) (fun _ => True) s ↔ ∀ k ∈ (x s).2.2, law k := by
  simp only [Wp]
  split <;> simp

theorem Wp.calls {x : Attempt σ κ α} (h : Wp law x Q E s) : ∀ k ∈ (x s).2.2, law k := h.1

/-- What holds either way holds of the state left. -/
theorem Wp.inv {x : Attempt σ κ α} {I : σ → Prop} (h : Wp law x (fun _ => I) I s) :
    I (x s).2.1 := by
  simp only [Wp] at h
  split at h <;> exact h.2

/-- Weaker conclusions. -/
theorem Wp.mono {x : Attempt σ κ α} {Q' : α → σ → Prop} {E' : σ → Prop} (h : Wp law x Q E s)
    (hQ : ∀ a s, Q a s → Q' a s) (hE : ∀ s, E s → E' s) : Wp law x Q' E' s := by
  simp only [Wp] at h ⊢
  split at h
  · exact ⟨h.1, hE _ h.2⟩
  · exact ⟨h.1, hQ _ _ h.2⟩

/-- **Sequencing**: what the first part ends in is all that the second starts from. -/
theorem wp_bind_of {x : Attempt σ κ β} {f : β → Attempt σ κ α} {P : β → σ → Prop}
    (hx : Wp law x P E s) (hf : ∀ b s, P b s → Wp law (f b) Q E s) : Wp law (x >>= f) Q E s :=
  (wp_bind x f).mpr (hx.mono hf fun _ h => h)

/-- Two specifications of one operation. -/
theorem Wp.and {law' : κ → Prop} {x : Attempt σ κ α} {Q' : α → σ → Prop} {E' : σ → Prop}
    (h : Wp law x Q E s) (h' : Wp law' x Q' E' s) :
    Wp law x (fun a s' => Q a s' ∧ Q' a s') (fun s' => E s' ∧ E' s') s := by
  refine ⟨h.1, ?_⟩
  have hfirst := h.2
  have hsecond := h'.2
  split at hfirst
  · next hx =>
      simp only [hx] at hsecond ⊢
      exact ⟨hfirst, hsecond⟩
  · next hx =>
      simp only [hx] at hsecond ⊢
      exact ⟨hfirst, hsecond⟩

/-- **Exact condition**: when an operation ends only under `C`, and gives up within `K`
exactly under `C`, giving up within `K` is a matter of `C`. -/
theorem gaveUp_imp_iff_of {x : Attempt σ κ α} {C : Prop} {K : σ → Prop}
    (h : Wp (fun _ => True) x (fun _ _ => C) (fun s' => K s' ↔ C) s) :
    ((x s).1 = none → K (x s).2.1) ↔ C := by
  simp only [Wp] at h
  cases hx : (x s).1 with
  | none =>
      simp only [hx] at h
      simpa using h.2
  | some a =>
      simp only [hx] at h
      simp [h.2]

/-- An attempt that gives up only without `C` and outside of `K` leads into `K` exactly under
`C`. -/
theorem gaveUp_imp_iff {x : Attempt σ κ α} {C : Prop} {K : σ → Prop}
    (h : Wp (fun _ => True) x (fun _ _ => C) (fun s' => ¬ C ∧ ¬ K s') s) :
    ((x s).1 = none → K (x s).2.1) ↔ C :=
  gaveUp_imp_iff_of (h.mono (fun _ _ hC => hC) fun _ hnot => iff_of_false hnot.2 hnot.1)

/-! ## observers -/

variable {γ : Type} {obs : γ → κ → γ}

/-- With an observer that starts in `g`, the operation ends in `Q` or gives up in `E`. -/
def Seen (obs : γ → κ → γ) (x : Attempt σ κ α) (Q : α → σ → γ → Prop) (E : σ → γ → Prop) (s : σ)
    (g : γ) : Prop :=
  match (x s).1 with
  | none => E (x s).2.1 ((x s).2.2.foldl obs g)
  | some a => Q a (x s).2.1 ((x s).2.2.foldl obs g)

variable {Q : α → σ → γ → Prop} {E : σ → γ → Prop} {s : σ} {g : γ}

@[simp] theorem seen_pure (a : α) : Seen obs (pure a) Q E = Q a := by
  funext s g
  simp [Seen, pure]

@[simp] theorem seen_bind (x : Attempt σ κ β) (f : β → Attempt σ κ α) :
    Seen obs (x >>= f) Q E s g ↔ Seen obs x (fun b => Seen obs (f b) Q E) E s g := by
  simp only [Seen, bind]
  rcases x s with ⟨_ | b, s', ks⟩
  · rfl
  · simp

@[simp] theorem seen_state {Q : σ → σ → γ → Prop} : Seen obs state Q E s g ↔ Q s s g := by
  simp [Seen, state]

@[simp] theorem seen_update {Q : Unit → σ → γ → Prop} (f : σ → σ) :
    Seen obs (update f) Q E s g ↔ Q () (f s) g := by
  simp [Seen, update]

@[simp] theorem seen_issue {Q : Unit → σ → γ → Prop} (k : κ) :
    Seen obs (issue k) Q E s g ↔ Q () s (obs g k) := by
  simp [Seen, issue]

@[simp] theorem seen_issueAll {Q : Unit → σ → γ → Prop} (ks : List κ) :
    Seen obs (issueAll ks) Q E s g ↔ Q () s (ks.foldl obs g) := by
  simp [Seen, issueAll]

@[simp] theorem seen_outcome (o : Option α) :
    Seen obs (outcome o) Q E s g ↔
      match o with
      | none => E s g
      | some a => Q a s g := by
  simp [Seen, outcome]

@[simp] theorem seen_check {Q : Unit → σ → γ → Prop} (b : Bool) :
    Seen obs (check b) Q E s g ↔ if b then Q () s g else E s g := by
  cases b <;> simp [check]

@[simp] theorem seen_whenever {Q : Unit → σ → γ → Prop} (b : Bool) (x : Attempt σ κ Unit) :
    Seen obs (whenever b x) Q E s g ↔ if b then Seen obs x Q E s g else Q () s g := by
  cases b <;> simp [whenever]

@[simp] theorem seen_forSome {Q : Unit → σ → γ → Prop} (o : Option β)
    (f : β → Attempt σ κ Unit) :
    Seen obs (forSome o f) Q E s g ↔
      match o with
      | none => Q () s g
      | some b => Seen obs (f b) Q E s g := by
  cases o <;> simp [forSome]

@[simp] theorem seen_orCleanUp (x : Attempt σ κ α) (y : Attempt σ κ Unit) :
    Seen obs (orCleanUp x y) Q E s g ↔ Seen obs x Q (Seen obs y (fun _ => E) E) s g := by
  simp only [Seen, orCleanUp]
  rcases x s with ⟨_ | a, s', ks⟩
  · rcases hy : y s' with ⟨_ | b, s'', ks'⟩ <;> simp [hy]
  · rfl

@[simp] theorem seen_ignore {Q : Unit → σ → γ → Prop} (x : Attempt σ κ α) :
    Seen obs (ignore x) Q E s g ↔ Seen obs x (fun _ => Q ()) (Q ()) s g := by
  simp only [Seen, ignore]
  split <;> rfl

/-- Weaker conclusions. -/
theorem Seen.mono {x : Attempt σ κ α} {Q' : α → σ → γ → Prop} {E' : σ → γ → Prop}
    (h : Seen obs x Q E s g) (hQ : ∀ a s g, Q a s g → Q' a s g) (hE : ∀ s g, E s g → E' s g) :
    Seen obs x Q' E' s g := by
  simp only [Seen] at h ⊢
  split at h
  · exact hE _ _ h
  · exact hQ _ _ _ h

/-- **Sequencing**, as for `Wp`. -/
theorem seen_bind_of {x : Attempt σ κ β} {f : β → Attempt σ κ α} {P : β → σ → γ → Prop}
    (hx : Seen obs x P E s g) (hf : ∀ b s g, P b s g → Seen obs (f b) Q E s g) :
    Seen obs (x >>= f) Q E s g :=
  (seen_bind x f).mpr (hx.mono hf fun _ _ h => h)

/-- **Sequencing** after a part that never gives up. -/
theorem seen_bind_of_total {x : Attempt σ κ β} {f : β → Attempt σ κ α} {P : β → σ → γ → Prop}
    (hx : Seen obs x P (fun _ _ => False) s g) (hf : ∀ b s g, P b s g → Seen obs (f b) Q E s g) :
    Seen obs (x >>= f) Q E s g :=
  seen_bind_of (hx.mono (fun _ _ _ h => h) fun _ _ h => h.elim) hf

/-- What holds either way. -/
theorem seen_both {x : Attempt σ κ α} {I : σ → γ → Prop} :
    Seen obs x (fun _ => I) I s g ↔ I (x s).2.1 ((x s).2.2.foldl obs g) := by
  simp only [Seen]
  split <;> rfl

/-- What holds should it give up. -/
theorem seen_gaveUp {x : Attempt σ κ α} {E : σ → γ → Prop} :
    Seen obs x (fun _ _ _ => True) E s g ↔
      ((x s).1 = none → E (x s).2.1 ((x s).2.2.foldl obs g)) := by
  simp only [Seen]
  split <;> simp_all

/-- An observer that is not asked. -/
theorem Wp.unseen {law : κ → Prop} {x : Attempt σ κ α} {Q : α → σ → Prop} {E : σ → Prop}
    (h : Wp law x Q E s) (g : γ) : Seen obs x (fun a s' _ => Q a s') (fun s' _ => E s') s g := by
  simp only [Wp, Seen] at h ⊢
  split at h <;> exact h.2

/-- **Framing**: an observer of calls that it takes no notice of. -/
theorem Wp.seen {law : κ → Prop} {x : Attempt σ κ α} {Q : α → σ → Prop} {E : σ → Prop}
    (h : Wp law x Q E s) (hobs : ∀ k, law k → ∀ g, obs g k = g) (g : γ) :
    Seen obs x (fun a s' g' => Q a s' ∧ g' = g) (fun s' g' => E s' ∧ g' = g) s g := by
  have hcalls (ks : List κ) (hks : ∀ k ∈ ks, law k) : ks.foldl obs g = g := by
    induction ks with
    | nil => rfl
    | cons k ks ih =>
        rw [List.foldl_cons, hobs k (hks k (.head ks)) g]
        exact ih fun k' hk' => hks k' (.tail k hk')
  simp only [Wp, Seen] at h ⊢
  split at h
  · exact ⟨h.2, hcalls _ h.1⟩
  · exact ⟨h.2, hcalls _ h.1⟩

/-! ## what an operation leaves alone -/

section

variable {δ : Type} {v : σ → δ}

/-- However it ends, the operation leaves `v` of the state as it was, and issues only
calls that meet `law`. -/
def Keeps (law : κ → Prop) (v : σ → δ) (x : Attempt σ κ α) : Prop :=
  ∀ s, Wp law x (fun _ s' => v s' = v s) (fun s' => v s' = v s) s

@[simp] theorem keeps_pure (a : α) : Keeps law v (pure a) := by
  simp [Keeps]

@[simp] theorem keeps_state : Keeps law v state := by
  simp [Keeps]

@[simp] theorem keeps_outcome (o : Option α) : Keeps law v (outcome o) := by
  intro s
  rw [wp_outcome]
  split <;> rfl

@[simp] theorem keeps_check (b : Bool) : Keeps law v (check b) := keeps_outcome _

@[simp] theorem keeps_update (f : σ → σ) : Keeps law v (update f) ↔ ∀ s, v (f s) = v s := by
  simp [Keeps]

theorem keeps_issue {k : κ} (h : law k) : Keeps law v (issue k) := by
  simp [Keeps, h]

theorem Keeps.bind {x : Attempt σ κ β} {f : β → Attempt σ κ α} (hx : Keeps law v x)
    (hf : ∀ b, Keeps law v (f b)) : Keeps law v (x >>= f) := by
  intro s
  apply wp_bind_of (hx s)
  intro b s' h
  rw [← h]
  exact hf b s'

theorem Keeps.weaken {law' : κ → Prop} {x : Attempt σ κ α} (hx : Keeps law v x)
    (h : ∀ k, law k → law' k) : Keeps law' v x :=
  fun s => ⟨fun k hk => h k ((hx s).calls k hk), (hx s).2⟩

theorem Keeps.ignore {x : Attempt σ κ α} (hx : Keeps law v x) : Keeps law v (ignore x) := by
  intro s
  rw [wp_ignore]
  exact hx s

theorem Keeps.whenever {x : Attempt σ κ Unit} (hx : Keeps law v x) (b : Bool) :
    Keeps law v (whenever b x) := by
  intro s
  rw [wp_whenever]
  split
  · exact hx s
  · rfl

theorem Keeps.orCleanUp {x : Attempt σ κ α} {y : Attempt σ κ Unit} (hx : Keeps law v x)
    (hy : Keeps law v y) : Keeps law v (orCleanUp x y) := by
  intro s
  rw [wp_orCleanUp]
  apply (hx s).mono fun _ _ h => h
  intro s' h
  rw [← h]
  exact hy s'

end

end Attempt

end Lib
