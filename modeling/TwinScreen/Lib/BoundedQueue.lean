import TwinScreen.Lib.Machine

/-!
# TwinScreen.Lib.BoundedQueue

A concurrent queue kept short by its one producer: before it adds an element the
producer polls until the size is below a bound, with a test of the size, a poll and
the add as separate steps.  Consumers poll at any time, and the producer may clear
the queue between two elements.

`step` is one atomic operation on the queue, whoever does it.  `Flows` is the
invariant of a history of operations: the bound holds, and what was polled, what is
queued and what the producer holds were offered in this order (`Flows.does`).
Undisturbed, the producer keeps the newest elements (`goes_alone`).
-/

namespace Lib

/-- Where the producer is. -/
inductive Producer (α : Type)
  | idle
  /-- With an element, at the test of the size. -/
  | testing (x : α)
  /-- At the poll that makes room. -/
  | polling (x : α)
  /-- At the add. -/
  | adding (x : α)
  deriving DecidableEq, Repr

/-- The element the producer holds. -/
def Producer.hand {α : Type} : Producer α → List α
  | .idle => []
  | .testing x | .polling x | .adding x => [x]

/-- The queue and its producer. -/
structure BoundedQueue (α : Type) where
  items : List α := []
  producer : Producer α := .idle
  deriving DecidableEq, Repr

namespace BoundedQueue

variable {α : Type}

/-- An operation. -/
inductive Op (α : Type)
  /-- The producer gets an element to add. -/
  | offer (x : α)
  /-- The producer's next operation. -/
  | go
  /-- The producer clears the queue. -/
  | clear
  /-- A consumer polls. -/
  | poll
  deriving DecidableEq, Repr

/-- What is seen of the queue. -/
inductive Event (α : Type)
  | offered (x : α)
  | polled (x : α)
  deriving DecidableEq, Repr

/-- `poll()`. -/
def pollHead (q : BoundedQueue α) : BoundedQueue α × List (Event α) :=
  match q.items with
  | [] => (q, [])
  | x :: xs => ({ q with items := xs }, [.polled x])

/-- One operation on a queue with room for `max` elements. -/
def step (max : Nat) (q : BoundedQueue α) : Op α → Option (BoundedQueue α × List (Event α))
  | .offer x =>
      match q.producer with
      | .idle => some ({ q with producer := .testing x }, [.offered x])
      | _ => none
  | .go =>
      match q.producer with
      | .idle => none
      | .testing x =>
          let producer := if max ≤ q.items.length then .polling x else .adding x
          some ({ q with producer := producer }, [])
      | .polling x =>
          let r := q.pollHead
          some ({ r.1 with producer := .testing x }, r.2)
      | .adding x => some (⟨q.items ++ [x], .idle⟩, [])
  | .clear =>
      match q.producer with
      | .idle => some ({ q with items := [] }, [])
      | _ => none
  | .poll => some q.pollHead

/-- The producer alone. -/
def goes (max : Nat) : Machine (BoundedQueue α) Unit (Event α) where
  step q _ := step max q .go

/-- The elements queued and held. -/
def held (q : BoundedQueue α) : List α := q.items ++ q.producer.hand

/-- The elements offered, in order. -/
def offered (tr : List (Event α)) : List α :=
  tr.filterMap fun e =>
    match e with
    | .offered x => some x
    | .polled _ => none

/-- The elements polled, in order. -/
def polled (tr : List (Event α)) : List α :=
  tr.filterMap fun e =>
    match e with
    | .offered _ => none
    | .polled x => some x

theorem mem_offered {tr : List (Event α)} {x : α} : x ∈ offered tr ↔ .offered x ∈ tr := by
  rw [offered, List.mem_filterMap]
  constructor
  · intro h
    obtain ⟨e, he, hx⟩ := h
    cases e with
    | offered y => cases hx; exact he
    | polled y => contradiction
  · intro h
    exact ⟨_, h, rfl⟩

/-- No offer among the events. -/
theorem offered_eq_nil {tr : List (Event α)} (h : ∀ x, .offered x ∉ tr) : offered tr = [] :=
  List.eq_nil_iff_forall_not_mem.mpr fun x hx => h x (mem_offered.mp hx)

theorem offered_append (tr os : List (Event α)) :
    offered (tr ++ os) = offered tr ++ offered os := List.filterMap_append

theorem polled_append (tr os : List (Event α)) : polled (tr ++ os) = polled tr ++ polled os :=
  List.filterMap_append

/-! ## one operation -/

/-- What an operation does: it offers an element, takes the first one out, clears the
queue, or moves the producer. -/
inductive Does (max : Nat) (q : BoundedQueue α) : BoundedQueue α → List (Event α) → Prop
  | offer (x : α) (h : q.producer = .idle) :
      Does max q { q with producer := .testing x } [.offered x]
  | take (x : α) (xs : List α) (producer : Producer α) (h : q.items = x :: xs)
      (hhand : producer.hand = q.producer.hand) (hadd : ∀ y, producer = .adding y →
        q.producer = .adding y) : Does max q ⟨xs, producer⟩ [.polled x]
  | clear (h : q.producer = .idle) : Does max q {} []
  | add (x : α) (h : q.producer = .adding x) : Does max q ⟨q.items ++ [x], .idle⟩ []
  | move (producer : Producer α) (hhand : producer.hand = q.producer.hand)
      (hadd : ∀ y, producer = .adding y → q.items.length < max ∨ q.producer = .adding y) :
      Does max q { q with producer := producer } []

/-- A poll takes the first element out, or finds nothing. -/
theorem does_pollHead (max : Nat) (q : BoundedQueue α) (producer : Producer α)
    (hhand : producer.hand = q.producer.hand)
    (hadd : ∀ y, producer = .adding y → q.producer = .adding y) :
    Does max q { q.pollHead.1 with producer := producer } q.pollHead.2 := by
  unfold pollHead
  cases hitems : q.items with
  | nil => exact .move producer hhand fun y hy => .inr (hadd y hy)
  | cons x xs => exact .take x xs producer hitems hhand hadd

/-- **Step lemma.** -/
theorem does_of_step {max : Nat} {q q' : BoundedQueue α} {op : Op α} {os : List (Event α)}
    (h : step max q op = some (q', os)) : Does max q q' os := by
  unfold step at h
  cases op with
  | offer x =>
      cases hp : q.producer with
      | idle => rw [hp] at h; cases h; exact .offer x hp
      | testing y | polling y | adding y => rw [hp] at h; contradiction
  | go =>
      cases hp : q.producer with
      | idle => rw [hp] at h; contradiction
      | testing x =>
          rw [hp] at h
          cases h
          refine .move _ ?_ fun y hy => ?_
          · rw [hp]
            split <;> rfl
          · split at hy
            · contradiction
            · next hroom => exact .inl (Nat.lt_of_not_le hroom)
      | polling x =>
          rw [hp] at h
          cases h
          exact does_pollHead max q _ (by rw [hp]; rfl) fun y hy => by contradiction
      | adding x => rw [hp] at h; cases h; exact .add x hp
  | clear =>
      cases hp : q.producer with
      | idle => rw [hp] at h; cases h; exact .clear hp
      | testing y | polling y | adding y => rw [hp] at h; contradiction
  | poll =>
      have hdoes := does_pollHead max q q.producer rfl fun y hy => hy
      have hsame : { q.pollHead.1 with producer := q.producer } = q.pollHead.1 := by
        unfold pollHead
        cases q.items <;> rfl
      rw [hsame] at hdoes
      have hpoll : q.pollHead = (q', os) := Option.some.inj h
      rw [hpoll] at hdoes
      exact hdoes

/-- Only an offer offers. -/
theorem offer_of_step {max : Nat} {q q' : BoundedQueue α} {op : Op α} {os : List (Event α)}
    (h : step max q op = some (q', os)) {x : α} (hx : .offered x ∈ os) : op = .offer x := by
  have hpoll : ∀ q : BoundedQueue α, .offered x ∉ q.pollHead.2 := by
    intro q
    unfold pollHead
    cases q.items <;> simp
  unfold step at h
  cases op with
  | offer y =>
      cases hp : q.producer with
      | idle =>
          rw [hp] at h
          cases h
          cases List.mem_singleton.mp hx
          rfl
      | testing z | polling z | adding z => rw [hp] at h; contradiction
  | go =>
      cases hp : q.producer with
      | idle => rw [hp] at h; contradiction
      | polling z => rw [hp] at h; cases h; exact absurd hx (hpoll q)
      | testing z | adding z => rw [hp] at h; cases h; contradiction
  | clear =>
      cases hp : q.producer with
      | idle => rw [hp] at h; cases h; contradiction
      | testing z | polling z | adding z => rw [hp] at h; contradiction
  | poll =>
      have heq : q.pollHead = (q', os) := Option.some.inj h
      have hnot := hpoll q
      rw [heq] at hnot
      exact absurd hx hnot

theorem step_offer {max : Nat} {q : BoundedQueue α} (h : q.producer = .idle) (x : α) :
    step max q (.offer x) = some ({ q with producer := .testing x }, [.offered x]) := by
  rw [step, h]

theorem step_clear {max : Nat} {q q' : BoundedQueue α} {os : List (Event α)}
    (h : step max q .clear = some (q', os)) : q'.held = [] ∧ os = [] := by
  unfold step at h
  cases hp : q.producer with
  | idle => rw [hp] at h; cases h; exact ⟨rfl, rfl⟩
  | testing z | polling z | adding z => rw [hp] at h; contradiction

/-- What is polled was queued. -/
theorem Does.mem_of_polled {max : Nat} {q q' : BoundedQueue α} {os : List (Event α)}
    (h : Does max q q' os) {x : α} (hx : .polled x ∈ os) : x ∈ q.items := by
  cases h with
  | take y xs producer hitems =>
      cases List.mem_singleton.mp hx
      rw [hitems]
      exact List.mem_cons_self
  | offer y => cases List.mem_singleton.mp hx
  | clear | add | move => contradiction

/-- What is held was held before, or is offered. -/
theorem Does.mem_held {max : Nat} {q q' : BoundedQueue α} {os : List (Event α)}
    (h : Does max q q' os) {x : α} (hx : x ∈ q'.held) : x ∈ q.held ∨ .offered x ∈ os := by
  cases h with
  | offer y hp =>
      rw [held, List.mem_append] at hx ⊢
      cases hx with
      | inl hx => exact .inl (.inl hx)
      | inr hx =>
          rw [List.mem_singleton.mp hx]
          exact .inr List.mem_cons_self
  | take y xs producer hitems hhand =>
      rw [held, hhand] at hx
      rw [held, hitems]
      exact .inl (List.mem_cons_of_mem y hx)
  | clear hp => contradiction
  | add y hp =>
      rw [held, hp]
      simpa [held, Producer.hand] using hx
  | move producer hhand =>
      rw [held, hhand] at hx
      exact .inl hx

/-- An operation is seen as one event at most. -/
theorem Does.events {max : Nat} {q q' : BoundedQueue α} {os : List (Event α)}
    (h : Does max q q' os) : os = [] ∨ ∃ e, os = [e] := by
  cases h with
  | offer x => exact .inr ⟨_, rfl⟩
  | take x => exact .inr ⟨_, rfl⟩
  | clear | add | move => exact .inl rfl

/-- A producer with empty hands stays so unless an element is offered. -/
theorem Does.hand_eq_nil {max : Nat} {q q' : BoundedQueue α} {os : List (Event α)}
    (h : Does max q q' os) (hos : offered os = []) (hq : q.producer.hand = []) :
    q'.producer.hand = [] := by
  cases h with
  | offer x => contradiction
  | take x xs producer hitems hhand => rw [← hq, ← hhand]
  | clear => rfl
  | add => rfl
  | move producer hhand => rw [← hq, ← hhand]

/-- A queue that holds nothing stays so unless an element is offered. -/
theorem Does.held_eq_nil {max : Nat} {q q' : BoundedQueue α} {os : List (Event α)}
    (h : Does max q q' os) (hos : offered os = []) (hq : q.held = []) : q'.held = [] := by
  apply List.eq_nil_iff_forall_not_mem.mpr
  intro x hx
  rcases h.mem_held hx with hx | hx
  · rw [hq] at hx
    contradiction
  · rw [← mem_offered, hos] at hx
    contradiction

/-! ## the producer alone -/

/-- **Undisturbed**, the producer drops the oldest elements until there is room, and
adds its own. -/
theorem goes_alone {max : Nat} (hmax : 0 < max) {q : BoundedQueue α} {x : α}
    (h : q.producer = .testing x) :
    ∃ n evs, (goes max).run q (List.replicate n ()) =
      some (⟨q.items.drop (q.items.length + 1 - max) ++ [x], .idle⟩, evs) := by
  obtain ⟨items, producer⟩ := q
  cases h
  induction items with
  | nil =>
      have htest : (goes max).step ⟨[], .testing x⟩ () = some (⟨[], .adding x⟩, []) := by
        simp [goes, step, Nat.not_le.mpr hmax]
      have hadd : (goes max).step ⟨[], .adding x⟩ () = some (⟨[x], .idle⟩, []) := rfl
      refine ⟨2, [], ?_⟩
      simp [List.replicate_succ, Machine.run, htest, hadd]
  | cons y ys ih =>
      by_cases hfull : max ≤ (y :: ys).length
      · -- the head goes, and the rest is as in the induction hypothesis
        obtain ⟨n, evs, hrun⟩ := ih
        have htest : (goes max).step ⟨y :: ys, .testing x⟩ () =
            some (⟨y :: ys, .polling x⟩, []) := by
          simp only [goes, step, if_pos hfull]
        have hpoll : (goes max).step ⟨y :: ys, .polling x⟩ () =
            some (⟨ys, .testing x⟩, [.polled y]) := rfl
        have hdrop : (y :: ys).length + 1 - max = ys.length + 1 - max + 1 := by
          rw [List.length_cons] at hfull ⊢
          omega
        refine ⟨n + 2, .polled y :: evs, ?_⟩
        rw [hdrop, List.drop_succ_cons]
        simp only [List.replicate_succ, Machine.run, htest, hpoll, hrun, Option.map_some,
          List.nil_append, List.singleton_append]
      · have htest : (goes max).step ⟨y :: ys, .testing x⟩ () =
            some (⟨y :: ys, .adding x⟩, []) := by
          simp only [goes, step, if_neg hfull]
        have hadd : (goes max).step ⟨y :: ys, .adding x⟩ () =
            some (⟨y :: ys ++ [x], .idle⟩, []) := rfl
        have hdrop : (y :: ys).length + 1 - max = 0 := by omega
        refine ⟨2, [], ?_⟩
        rw [hdrop, List.drop_zero]
        simp only [List.replicate_succ, List.replicate_zero, Machine.run, htest, hadd,
          Option.map_some, List.nil_append]

/-! ## histories -/

/-- The bound, with room for the element that is being added; and the order. -/
structure Flows (max : Nat) (q : BoundedQueue α) (tr : List (Event α)) : Prop where
  bound : q.items.length ≤ max
  room : ∀ x, q.producer = .adding x → q.items.length < max
  order : (polled tr ++ q.held).Sublist (offered tr)

theorem flows_nil (max : Nat) : Flows max ({} : BoundedQueue α) [] where
  bound := Nat.zero_le max
  room _ h := nomatch h
  order := List.Sublist.refl []

/-- **Every operation keeps the bound and the order.** -/
theorem Flows.does {max : Nat} {q q' : BoundedQueue α} {tr os : List (Event α)}
    (h : Flows max q tr) (hdoes : Does max q q' os) : Flows max q' (tr ++ os) := by
  cases hdoes with
  | offer x hp =>
      have horder := h.order.append (List.Sublist.refl [x])
      rw [held, hp] at horder
      refine ⟨h.bound, fun y hy => by contradiction, ?_⟩
      rw [polled_append, offered_append]
      simpa [polled, offered, held, Producer.hand] using horder
  | take x xs producer hitems hhand hadd =>
      have hbound := h.bound
      rw [hitems, List.length_cons] at hbound
      refine ⟨by show xs.length ≤ max; omega, fun y hy => ?_, ?_⟩
      · have hroom := h.room y (hadd y hy)
        rw [hitems, List.length_cons] at hroom
        show xs.length < max
        omega
      · have horder := h.order
        rw [held, hitems] at horder
        rw [polled_append, offered_append, held, hhand]
        simpa [polled, offered] using horder
  | clear hp =>
      refine ⟨Nat.zero_le max, fun y hy => by contradiction, ?_⟩
      have hheld : ({} : BoundedQueue α).held = [] := rfl
      rw [List.append_nil, hheld, List.append_nil]
      exact (List.sublist_append_left _ _).trans h.order
  | add x hp =>
      have hroom := h.room x hp
      have hlen : (q.items ++ [x]).length ≤ max := by
        rw [List.length_append, List.length_singleton]
        omega
      have horder := h.order
      refine ⟨hlen, fun y hy => by contradiction, ?_⟩
      rw [held, hp] at horder
      rw [List.append_nil, held]
      simpa [Producer.hand] using horder
  | move producer hhand hadd =>
      refine ⟨h.bound, fun y hy => (hadd y hy).elim id (h.room y), ?_⟩
      rw [List.append_nil, held, hhand]
      exact h.order

end BoundedQueue

end Lib
