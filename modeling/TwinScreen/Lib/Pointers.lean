import Mathlib.Data.List.Nodup
import TwinScreen.Lib.Alternation
import TwinScreen.Lib.Machine

/-!
# TwinScreen.Lib.Pointers

Streams of events of several pointers, which go down, move and are closed again, and the
signals that the events give contacts.  The pointers that are down are known by the events
that opened them: a pointer holds what its event has pressed.

`Fits` is a condition on an event and the pointers that are down.  Where every event of a stream
meets it, the contacts are pressed and released in turn (`inTurn_of_fits`); and it is exact: it is
what the streams need in which, at any point, the pointers that are down are finished (`fits_iff`).
-/

namespace Lib

/-- What an event is to its pointer. -/
inductive Stage
  | opens
  | moves
  | closes
  deriving DecidableEq

/-- Whose an event is, and what it is, if it is known. -/
structure PointerRule (α κ : Type) where
  key : α → κ
  stage : α → Option Stage

namespace PointerRule

variable {α κ δ : Type} [DecidableEq κ] (R : PointerRule α κ)

/-- The pointers that are down after an event. -/
def track (down : List α) (e : α) : List α :=
  match R.stage e with
  | some .opens => e :: down
  | some .closes => down.filter fun p => R.key p ≠ R.key e
  | _ => down

/-- The rule: a pointer goes down only when it is not, and moves and closes only when it is. -/
def Allowed (down : List α) (e : α) : Prop :=
  match R.stage e with
  | some .opens => ∀ p ∈ down, R.key p ≠ R.key e
  | some .moves | some .closes => ∃ p ∈ down, R.key p = R.key e
  | none => False

instance (down : List α) (e : α) : Decidable (R.Allowed down e) := by
  unfold Allowed
  split <;> infer_instance

/-- The pointers in the course of a stream. -/
def machine : Machine (List α) α Unit := .reporting R.track fun _ _ => ()

/-- The pointers that a stream leaves down. -/
def down (evs : List α) : List α := evs.foldl R.track []

/-- Every event keeps the rule. -/
def Obeys (evs : List α) : Prop := R.machine.Along R.Allowed [] evs

/-- No pointer is left down. -/
def AllClosed (evs : List α) : Prop := R.down evs = []

instance (evs : List α) : Decidable (R.Obeys evs) :=
  inferInstanceAs (Decidable (Machine.Along _ _ _ _))

instance [DecidableEq α] (evs : List α) : Decidable (R.AllClosed evs) :=
  inferInstanceAs (Decidable (_ = _))

variable (signal : δ → α → Option Signal)

/-- Every contact is pressed and released in turn, and none is held whenever all pointers are
closed. -/
structure InTurn (evs : List α) : Prop where
  alternates : ∀ d, Signal.Alternates (evs.filterMap (signal d))
  released : ∀ d pre, pre <+: evs → R.AllClosed pre → ¬ Signal.Held (pre.filterMap (signal d))

/-- What an event is to do to a contact: opening a pointer, to press it only if no pointer that is
down has; moving one, nothing; closing one, to release it exactly if that pointer has pressed it. -/
def FitsAt (down : List α) (e : α) (d : δ) : Prop :=
  match R.stage e with
  | some .opens =>
      signal d e ≠ some .release ∧
        (signal d e = some .press → ∀ p ∈ down, signal d p ≠ some .press)
  | some .closes =>
      ∀ p ∈ down, R.key p = R.key e →
        signal d e = if signal d p = some .press then some .release else none
  | _ => signal d e = none

def Fits (down : List α) (e : α) : Prop := ∀ d, R.FitsAt signal down e d

/-! ## the pointers that are down -/

variable {R} {down : List α} {e : α} {evs : List α}

/-- The pointers that are down have been opened, one for each key. -/
structure Wf (R : PointerRule α κ) (down : List α) : Prop where
  nodup : (down.map R.key).Nodup
  opens : ∀ p ∈ down, R.stage p = some .opens

omit [DecidableEq κ] in
theorem wf_nil : R.Wf [] := ⟨List.nodup_nil, by simp⟩

theorem Wf.track (h : R.Wf down) (hallowed : R.Allowed down e) : R.Wf (R.track down e) := by
  obtain ⟨hnodup, hopens⟩ := h
  unfold Allowed at hallowed
  unfold PointerRule.track
  split
  · next hstage =>
      rw [hstage] at hallowed
      refine ⟨?_, ?_⟩
      · rw [List.map_cons, List.nodup_cons]
        exact ⟨by simpa using hallowed, hnodup⟩
      · rw [List.forall_mem_cons]
        exact ⟨hstage, hopens⟩
  · exact ⟨hnodup.sublist (List.filter_sublist.map _),
      fun p hp => hopens p (List.mem_of_mem_filter hp)⟩
  · exact ⟨hnodup, hopens⟩

/-- A pointer, and those with other keys. -/
theorem perm_cons_filter (hnodup : (down.map R.key).Nodup) {p : α} (hp : p ∈ down) :
    down.Perm (p :: down.filter fun q => R.key q ≠ R.key p) := by
  induction down with
  | nil => contradiction
  | cons q down ih =>
      rw [List.map_cons, List.nodup_cons] at hnodup
      rcases List.mem_cons.mp hp with rfl | hp
      · have hothers : down.filter (fun q => R.key q ≠ R.key p) = down := by
          rw [List.filter_eq_self]
          intro q hq
          have hne : R.key q ≠ R.key p := fun heq => hnodup.1 (heq ▸ List.mem_map_of_mem hq)
          simpa using hne
        rw [List.filter_cons_of_neg (by simp), hothers]
      · have hne : R.key q ≠ R.key p := fun heq => hnodup.1 (heq ▸ List.mem_map_of_mem hp)
        rw [List.filter_cons_of_pos (by simpa using hne)]
        exact ((ih hnodup.2 hp).cons q).trans (.swap p q _)

omit [DecidableEq κ] in
/-- A key belongs to one pointer. -/
theorem Wf.eq_of_key (h : R.Wf down) {p q : α} (hp : p ∈ down) (hq : q ∈ down)
    (hkey : R.key p = R.key q) : p = q :=
  List.inj_on_of_nodup_map h.nodup hp hq hkey

theorem down_append (evs evs' : List α) : R.down (evs ++ evs') = evs'.foldl R.track (R.down evs) :=
  List.foldl_append

theorem obeys_append {evs evs' : List α} :
    R.Obeys (evs ++ evs') ↔ R.Obeys evs ∧ R.machine.Along R.Allowed (R.down evs) evs' :=
  Machine.along_reporting_append

theorem Obeys.of_prefix {pre : List α} (h : R.Obeys evs) (hpre : pre <+: evs) : R.Obeys pre := by
  obtain ⟨post, rfl⟩ := hpre
  exact (obeys_append.mp h).1

/-- **Run lemma**: a stream that obeys the rule leaves such pointers down. -/
theorem Obeys.wf (h : R.Obeys evs) : R.Wf (R.down evs) := by
  induction evs using List.reverseRecOn with
  | nil => exact wf_nil
  | append_singleton evs e ih =>
      obtain ⟨hobeys, hallowed⟩ := obeys_append.mp h
      rw [down_append]
      exact (ih hobeys).track hallowed.1

/-! ## contacts and their holders -/

variable {signal} {d : δ}

/-- The pointers that hold a contact. -/
def holders (signal : δ → α → Option Signal) (d : δ) (down : List α) : Nat :=
  down.countP fun p => signal d p = some .press

theorem holders_eq_zero_iff : holders signal d down = 0 ↔ ∀ p ∈ down, signal d p ≠ some .press := by
  simp [holders, List.countP_eq_zero]

/-- The holders when a pointer closes. -/
theorem holders_close (h : R.Wf down) (hstage : R.stage e = some .closes) {p : α} (hp : p ∈ down)
    (hkey : R.key p = R.key e) :
    holders signal d down = holders signal d (R.track down e) +
      if signal d p = some .press then 1 else 0 := by
  simp only [PointerRule.track, hstage, ← hkey]
  rw [holders, (perm_cons_filter h.nodup hp).countP_eq, List.countP_cons, holders]
  simp

/-- The holders when a pointer goes down. -/
theorem holders_open (hstage : R.stage e = some .opens) :
    holders signal d (R.track down e) =
      holders signal d down + if signal d e = some .press then 1 else 0 := by
  simp [PointerRule.track, hstage, holders, List.countP_cons]

omit [DecidableEq κ] in
/-- What closing a pointer is to do, by that pointer. -/
theorem fitsAt_close_iff (h : R.Wf down) (hstage : R.stage e = some .closes) {p : α}
    (hp : p ∈ down) (hkey : R.key p = R.key e) :
    R.FitsAt signal down e d ↔
      signal d e = if signal d p = some .press then some .release else none := by
  simp only [FitsAt, hstage]
  constructor
  · intro hall
    exact hall p hp hkey
  · intro hsignal q hq hqe
    rwa [h.eq_of_key hq hp (hqe.trans hkey.symm)]

/-- **Step lemma**: an event leaves a contact matched with its holders exactly if it fits. -/
theorem matched_step (hwf : R.Wf down) (hallowed : R.Allowed down e) {l : List Signal}
    (h : Signal.Matched l (holders signal d down)) :
    Signal.Matched (l ++ (signal d e).toList) (holders signal d (R.track down e)) ↔
      R.FitsAt signal down e d := by
  have hle := h.le_one
  rw [Signal.matched_concat h]
  cases hstage : R.stage e with
  | none => simp [Allowed, hstage] at hallowed
  | some stage =>
      cases stage with
      | opens =>
          simp only [FitsAt, hstage, holders_open hstage, ← holders_eq_zero_iff]
          cases hsignal : signal d e with
          | none => simp
          | some x =>
              cases x <;> simp
              omega
      | moves =>
          have hsame : R.track down e = down := by simp [track, hstage]
          simp only [FitsAt, hstage, hsame]
          cases hsignal : signal d e with
          | none => simp
          | some x => cases x <;> simp <;> omega
      | closes =>
          simp only [Allowed, hstage] at hallowed
          obtain ⟨p, hp, hkey⟩ := hallowed
          rw [fitsAt_close_iff hwf hstage hp hkey]
          rw [holders_close hwf hstage hp hkey] at hle ⊢
          by_cases hpress : signal d p = some .press
          · rw [if_pos hpress] at hle ⊢
            rw [if_pos hpress]
            cases hsignal : signal d e with
            | none => simp
            | some x =>
                cases x <;> simp
                omega
          · rw [if_neg hpress, if_neg hpress]
            cases hsignal : signal d e with
            | none => simp
            | some x => cases x <;> simp <;> omega

/-- The contacts are matched with the pointers that hold them. -/
def Follows (R : PointerRule α κ) (signal : δ → α → Option Signal) (evs : List α) : Prop :=
  ∀ d, Signal.Matched (evs.filterMap (signal d)) (holders signal d (R.down evs))

/-- **Run lemma**: every event fits exactly if all contacts are matched all along. -/
theorem along_fits_iff (h : R.Obeys evs) :
    R.machine.Along (R.Fits signal) [] evs ↔ ∀ pre, pre <+: evs → R.Follows signal pre := by
  induction evs using List.reverseRecOn with
  | nil =>
      refine iff_of_true trivial fun pre hpre d => ?_
      rw [List.prefix_nil.mp hpre]
      exact Signal.matched_nil
  | append_singleton evs e ih =>
      obtain ⟨hobeys, hallowed⟩ := obeys_append.mp h
      have hone (hfollows : R.Follows signal evs) :
          R.Follows signal (evs ++ [e]) ↔ R.Fits signal (R.down evs) e := by
        refine forall_congr' fun d => ?_
        rw [← matched_step hobeys.wf hallowed.1 (hfollows d), down_append, List.filterMap_append]
        cases hsignal : signal d e <;> simp [hsignal]
      have hlast : R.machine.Along (R.Fits signal) (R.down evs) [e] ↔
          R.Fits signal (R.down evs) e := by
        simp [machine]
      rw [machine, Machine.along_reporting_append]
      simp only [List.prefix_concat_iff, forall_eq_or_imp]
      rw [← machine, ← down, hlast, ih hobeys, and_comm]
      exact and_congr_left fun hall => (hone (hall evs (List.prefix_refl evs))).symm

/-- **In turn**, when every event fits. -/
theorem inTurn_of_fits (h : R.Obeys evs) (hfits : R.machine.Along (R.Fits signal) [] evs) :
    R.InTurn signal evs := by
  have hfollows := (along_fits_iff h).mp hfits
  refine ⟨fun d => (hfollows evs (List.prefix_refl evs) d).1, fun d pre hpre hclosed => ?_⟩
  have hmatched := hfollows pre hpre d
  rw [show R.down pre = [] from hclosed] at hmatched
  exact hmatched.not_held

/-! ## finishing the pointers -/

/-- An event that closes a pointer as its opening requires. -/
structure Finishes (R : PointerRule α κ) (signal : δ → α → Option Signal) (finish : α → α) :
    Prop where
  key : ∀ p, R.key (finish p) = R.key p
  stage : ∀ p, R.stage (finish p) = some .closes
  signal : ∀ p, R.stage p = some .opens → ∀ d,
    signal d (finish p) = if signal d p = some .press then some .release else none

variable {finish : α → α} (hfinish : R.Finishes signal finish)

include hfinish

/-- The pointers that are down can be finished: the rule allows it, every such event fits, and none
is down in the end. -/
theorem Wf.finished (h : R.Wf down) :
    R.machine.Along R.Allowed down (down.map finish) ∧
      R.machine.Along (R.Fits signal) down (down.map finish) ∧
      (down.map finish).foldl R.track down = [] := by
  induction down with
  | nil => exact ⟨trivial, trivial, rfl⟩
  | cons p down ih =>
      obtain ⟨hnodup, hopens⟩ := h
      have hwf : R.Wf (p :: down) := ⟨hnodup, hopens⟩
      rw [List.map_cons, List.nodup_cons] at hnodup
      rw [List.forall_mem_cons] at hopens
      have htrack : R.track (p :: down) (finish p) = down := by
        have hothers : ∀ q ∈ down, R.key q ≠ R.key p :=
          fun q hq heq => hnodup.1 (heq ▸ List.mem_map_of_mem hq)
        rw [PointerRule.track, hfinish.stage]
        simp only [hfinish.key]
        rw [List.filter_cons_of_neg (by simp), List.filter_eq_self]
        simpa using hothers
      have hrest := ih ⟨hnodup.2, hopens.2⟩
      simp only [machine, List.map_cons, Machine.along_reporting_cons, List.foldl_cons, htrack]
      refine ⟨⟨?_, hrest.1⟩, ⟨fun d => ?_, hrest.2.1⟩, hrest.2.2⟩
      · simp only [Allowed, hfinish.stage]
        exact ⟨p, List.mem_cons_self, (hfinish.key p).symm⟩
      · simp only [FitsAt, hfinish.stage]
        intro q hq hkey
        rw [hfinish.key] at hkey
        rw [hwf.eq_of_key hq List.mem_cons_self hkey]
        exact hfinish.signal p hopens.1 d

omit [DecidableEq κ] in
/-- Finishing the pointers that are down releases a contact once for each holder. -/
theorem Wf.filterMap_finished (h : R.Wf down) :
    (down.map finish).filterMap (signal d) = List.replicate (holders signal d down) .release := by
  have hopens := h.opens
  clear h
  induction down with
  | nil => rfl
  | cons p down ih =>
      rw [List.forall_mem_cons] at hopens
      have hp := hfinish.signal p hopens.1 d
      rw [List.map_cons, List.filterMap_cons, hp, ih hopens.2]
      by_cases hpress : signal d p = some .press <;>
        simp [holders, hpress, List.replicate_succ]

/-- A stream with the pointers finished that it leaves down. -/
theorem Obeys.finished (h : R.Obeys evs) :
    R.Obeys (evs ++ (R.down evs).map finish) ∧
      R.AllClosed (evs ++ (R.down evs).map finish) := by
  obtain ⟨hallowed, -, hend⟩ := h.wf.finished hfinish
  refine ⟨obeys_append.mpr ⟨h, hallowed⟩, ?_⟩
  rw [AllClosed, down_append, hend]

/-- **Exactness**: every event fits exactly if the contacts are in turn, wherever in the stream
the pointers are finished. -/
theorem fits_iff (h : R.Obeys evs) :
    R.machine.Along (R.Fits signal) [] evs ↔
      ∀ pre, pre <+: evs → R.InTurn signal (pre ++ (R.down pre).map finish) := by
  constructor
  · intro hfits pre hpre
    have hobeys := h.of_prefix hpre
    obtain ⟨post, rfl⟩ := hpre
    refine inTurn_of_fits (hobeys.finished hfinish).1 ?_
    rw [machine, Machine.along_reporting_append] at hfits ⊢
    exact ⟨hfits.1, (hobeys.wf.finished hfinish).2.1⟩
  · intro hall
    rw [along_fits_iff h]
    intro pre hpre d
    have hobeys := h.of_prefix hpre
    have hinTurn := hall pre hpre
    have halternates := hinTurn.alternates d
    have hreleased := hinTurn.released d _ (List.prefix_refl _) (hobeys.finished hfinish).2
    rw [List.filterMap_append, hobeys.wf.filterMap_finished hfinish] at halternates hreleased
    exact Signal.matched_of_released halternates hreleased

end PointerRule

end Lib
