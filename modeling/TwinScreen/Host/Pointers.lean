import TwinScreen.Host.Inject
import TwinScreen.Lib.Pointers

/-!
# TwinScreen.Host.Pointers

The pointer rule of `proto/protocol.md`, and what the contacts of the host's devices get out of
the streams that keep it.  A pointer's events are routed one by one (`host/src/input/inject.cpp`),
and a pointer that has pressed a button or a contact does not always come back to it.

* `Proper` — which events suit the pointers that are down, on the wire.
* `inTurn_of_proper` — on streams of such events every contact is pressed and released in turn.
* `cancelledFinger_not_inTurn` — on other streams not: a finger that is cancelled.
-/

namespace TwinScreen.Host

open Lib

/-! ## the pointer rule -/

/-- The event brings its pointer down. -/
def Opens (e : SpInputEvent) : Prop := e.type = spInputDown ∨ e.type = spInputStylusDown

/-- The event moves its pointer. -/
def Moves (e : SpInputEvent) : Prop := e.type = spInputMove ∨ e.type = spInputStylusMove

/-- The event ends its pointer's contact. -/
def Closes (e : SpInputEvent) : Prop :=
  e.type = spInputUp ∨ e.type = spInputStylusUp ∨ e.type = spInputCancel

instance : DecidablePred Opens := fun _ => inferInstanceAs (Decidable (_ ∨ _))
instance : DecidablePred Moves := fun _ => inferInstanceAs (Decidable (_ ∨ _))
instance : DecidablePred Closes := fun _ => inferInstanceAs (Decidable (_ ∨ _))

/-- What an event is to its pointer. -/
def stage (e : SpInputEvent) : Option Stage :=
  if Opens e then some .opens
  else if Moves e then some .moves
  else if Closes e then some .closes
  else none

/-- The rule of `protocol.md`: per `pointer_id` a DOWN or STYLUS_DOWN, then moves, then one UP,
STYLUS_UP or CANCEL. -/
def pointerRule : PointerRule SpInputEvent UInt8 := ⟨SpInputEvent.pointerId, stage⟩

/-- The stream obeys the rule. -/
abbrev Obeys (evs : List SpInputEvent) : Prop := pointerRule.Obeys evs

/-- No pointer is down after these events. -/
abbrev AllClosed (evs : List SpInputEvent) : Prop := pointerRule.AllClosed evs

/-- Every contact is pressed and released in turn, and none is held whenever all
pointers are closed. -/
abbrev InTurn (inj : InputInjector) (scr : VirtualScreen) (evs : List SpInputEvent) : Prop :=
  pointerRule.InTurn (eventSignal inj scr) evs

variable {e : SpInputEvent}

theorem Opens.not_moves (h : Opens e) : ¬ Moves e := by
  rcases h with ht | ht <;> simp only [Moves, ht] <;> decide

theorem Opens.not_closes (h : Opens e) : ¬ Closes e := by
  rcases h with ht | ht <;> simp only [Closes, ht] <;> decide

theorem Moves.not_closes (h : Moves e) : ¬ Closes e := by
  rcases h with ht | ht <;> simp only [Closes, ht] <;> decide

theorem stage_opens_iff : stage e = some .opens ↔ Opens e := by
  unfold stage
  by_cases hopens : Opens e <;> by_cases hmoves : Moves e <;> by_cases hcloses : Closes e <;>
    simp [hopens, hmoves, hcloses]

theorem stage_moves_iff : stage e = some .moves ↔ Moves e := by
  unfold stage
  by_cases hopens : Opens e
  · simp [hopens, hopens.not_moves]
  · by_cases hmoves : Moves e <;> by_cases hcloses : Closes e <;> simp [hopens, hmoves, hcloses]

theorem stage_closes_iff : stage e = some .closes ↔ Closes e := by
  unfold stage
  by_cases hopens : Opens e
  · simp [hopens, hopens.not_closes]
  · by_cases hmoves : Moves e
    · simp [hopens, hmoves, hmoves.not_closes]
    · by_cases hcloses : Closes e <;> simp [hopens, hmoves, hcloses]

/-! ## which events suit the pointers that are down -/

variable (inj : InputInjector) (scr : VirtualScreen)

/-- The pointer has pressed a button, when it went down. -/
def HoldsButton (b : Button) (p : SpInputEvent) : Prop :=
  p.type = spInputDown ∧ p.buttons &&& b.bit ≠ 0

/-- What suits the mouse: a DOWN brings a button that no other pointer holds, a MOVE none, and a
pointer is closed by an UP with the button if it holds it, and otherwise not. -/
def MouseProper (b : Button) (down : List SpInputEvent) (e : SpInputEvent) : Prop :=
  (e.type = spInputDown → e.buttons &&& b.bit ≠ 0 → ∀ p ∈ down, ¬ HoldsButton b p) ∧
    (e.type = spInputMove → e.buttons &&& b.bit = 0) ∧
    (Closes e → ∀ p ∈ down, p.pointerId = e.pointerId →
      (HoldsButton b p ↔ e.type = spInputUp ∧ e.buttons &&& b.bit ≠ 0))

/-- What suits a stylus and a finger: one is closed by STYLUS_UP or CANCEL, the other by UP. -/
def ClosesItsKind (down : List SpInputEvent) (e : SpInputEvent) : Prop :=
  Closes e → ∀ p ∈ down, p.pointerId = e.pointerId →
    (p.type = spInputStylusDown ↔ e.type = spInputStylusUp ∨ e.type = spInputCancel)

/-- What suits the pen: one stylus at a time. -/
def PenProper (down : List SpInputEvent) (e : SpInputEvent) : Prop :=
  (e.type = spInputStylusDown → ∀ p ∈ down, p.type ≠ spInputStylusDown) ∧ ClosesItsKind down e

/-- What suits the touch screen: one stylus at a time for each of the sixteen contacts. -/
def TouchProper (down : List SpInputEvent) (e : SpInputEvent) : Prop :=
  (e.type = spInputStylusDown → ∀ p ∈ down, p.type = spInputStylusDown →
    p.pointerId.toUInt32 % 16 ≠ e.pointerId.toUInt32 % 16) ∧ ClosesItsKind down e

/-- What suits the devices that get the events. -/
structure Proper (down : List SpInputEvent) (e : SpInputEvent) : Prop where
  mouse : 0 < scr.cx ∧ 0 < scr.cy → ∀ b, MouseProper b down e
  pen : inj.penOk = true → PenProper down e
  touch : inj.penOk = false ∧ inj.touchOk = true → TouchProper down e

instance (b : Button) (down : List SpInputEvent) (e : SpInputEvent) :
    Decidable (MouseProper b down e) := by
  unfold MouseProper HoldsButton
  infer_instance

instance (down : List SpInputEvent) (e : SpInputEvent) : Decidable (PenProper down e) := by
  unfold PenProper ClosesItsKind
  infer_instance

instance (down : List SpInputEvent) (e : SpInputEvent) : Decidable (TouchProper down e) := by
  unfold TouchProper ClosesItsKind
  infer_instance

instance (P : Button → Prop) [DecidablePred P] : Decidable (∀ b, P b) :=
  decidable_of_iff (P .left ∧ P .right ∧ P .middle)
    ⟨fun ⟨hleft, hright, hmiddle⟩ b => by cases b <;> assumption, fun h => ⟨h _, h _, h _⟩⟩

instance (down : List SpInputEvent) (e : SpInputEvent) : Decidable (Proper inj scr down e) :=
  decidable_of_iff _ ⟨fun ⟨hmouse, hpen, htouch⟩ => ⟨hmouse, hpen, htouch⟩,
    fun h => And.intro h.mouse (And.intro h.pen h.touch)⟩

/-- Every event of the stream suits the pointers that are down. -/
def AllProper (evs : List SpInputEvent) : Prop := pointerRule.machine.Along (Proper inj scr) [] evs

instance (evs : List SpInputEvent) : Decidable (AllProper inj scr evs) :=
  inferInstanceAs (Decidable (Machine.Along _ _ _ _))

/-- The event that lifts a pointer, as it went down. -/
def lift (p : SpInputEvent) : SpInputEvent :=
  { p with type := if p.type = spInputDown then spInputUp else spInputStylusUp }

/-- The stream with all pointers lifted that it leaves down. -/
def lifted (evs : List SpInputEvent) : List SpInputEvent := evs ++ (pointerRule.down evs).map lift

/-! ## what the devices do with such events -/

variable {inj scr} {down : List SpInputEvent} {d : Contact}

theorem eventSignal_press_iff : eventSignal inj scr d e = some .press ↔ Presses inj scr d e := by
  rw [eventSignal_eq]
  by_cases hp : Presses inj scr d e <;> by_cases hr : Releases inj scr d e <;> simp [hp, hr]

/-- Only an event that closes a pointer releases, and no such event presses. -/
theorem Releases.closes (h : Releases inj scr d e) : Closes e := by
  cases d with
  | button b => exact .inl h.2.1
  | pen => exact .inr h.2
  | touch id => exact .inr h.2.1

theorem Closes.not_presses (h : Closes e) : ¬ Presses inj scr d e := by
  intro hp
  have htype : Opens e ∨ Moves e := by
    cases d with
    | button b => exact hp.2.1.imp .inl .inl
    | pen => exact .inl (.inr hp.2)
    | touch id => exact .inl (.inr hp.2.1)
  exact htype.elim (fun hopens => hopens.not_closes h) fun hmoves => hmoves.not_closes h

/-- What an event is to do to a contact, in terms of the events that press and release it. -/
theorem fitsAt_opens_iff (h : Opens e) :
    pointerRule.FitsAt (eventSignal inj scr) down e d ↔
      (Presses inj scr d e → ∀ p ∈ down, ¬ Presses inj scr d p) := by
  have hstage : pointerRule.stage e = some .opens := stage_opens_iff.mpr h
  have hfree : eventSignal inj scr d e ≠ some .release := by
    have hr : ¬ Releases inj scr d e := fun hr => h.not_closes hr.closes
    rw [eventSignal_eq, if_neg hr]
    split <;> simp
  simp only [PointerRule.FitsAt, hstage, hfree, ne_eq, not_false_eq_true, true_and,
    eventSignal_press_iff]

theorem fitsAt_moves_iff (h : Moves e) :
    pointerRule.FitsAt (eventSignal inj scr) down e d ↔ ¬ Presses inj scr d e := by
  have hstage : pointerRule.stage e = some .moves := stage_moves_iff.mpr h
  have hr : ¬ Releases inj scr d e := fun hr => h.not_closes hr.closes
  simp only [PointerRule.FitsAt, hstage, eventSignal_eq, if_neg hr]
  by_cases hp : Presses inj scr d e <;> simp [hp]

theorem fitsAt_closes_iff (h : Closes e) :
    pointerRule.FitsAt (eventSignal inj scr) down e d ↔
      ∀ p ∈ down, p.pointerId = e.pointerId → (Presses inj scr d p ↔ Releases inj scr d e) := by
  have hstage : pointerRule.stage e = some .closes := stage_closes_iff.mpr h
  have hsignal : eventSignal inj scr d e = if Releases inj scr d e then some .release else none := by
    rw [eventSignal_eq, if_neg h.not_presses]
  simp only [PointerRule.FitsAt, hstage, hsignal, eventSignal_press_iff]
  refine forall₃_congr fun p _ _ => ?_
  by_cases hp : Presses inj scr d p <;> by_cases hr : Releases inj scr d e <;> simp [hp, hr]

/-- The opened pointers that hold a button, the pen or a touch contact. -/
theorem presses_button_iff (h : Opens e) (b : Button) :
    Presses inj scr (.button b) e ↔ (0 < scr.cx ∧ 0 < scr.cy) ∧ HoldsButton b e := by
  have hmove : e.type ≠ spInputMove := fun ht => h.not_moves (.inl ht)
  simp [Presses, HoldsButton, hmove]

theorem fitsAt_button_iff (hopened : ∀ p ∈ down, Opens p) (hkind : Opens e ∨ Moves e ∨ Closes e)
    (b : Button) :
    pointerRule.FitsAt (eventSignal inj scr) down e (.button b) ↔
      (0 < scr.cx ∧ 0 < scr.cy → MouseProper b down e) := by
  rcases hkind with h | h | h
  · have hmove : e.type ≠ spInputMove := fun ht => h.not_moves (.inl ht)
    rw [fitsAt_opens_iff h, presses_button_iff h]
    simp only [MouseProper, hmove, h.not_closes]
    grind [presses_button_iff, HoldsButton]
  · have hdown : e.type ≠ spInputDown := fun ht => Opens.not_moves (.inl ht) h
    rw [fitsAt_moves_iff h]
    simp only [MouseProper, hdown, h.not_closes, Presses]
    grind
  · have hdown : e.type ≠ spInputDown := fun ht => Opens.not_closes (.inl ht) h
    have hmove : e.type ≠ spInputMove := fun ht => Moves.not_closes (.inl ht) h
    rw [fitsAt_closes_iff h]
    simp only [MouseProper, hdown, hmove, h, Releases]
    grind [presses_button_iff]

theorem fitsAt_pen_iff (hkind : Opens e ∨ Moves e ∨ Closes e) :
    pointerRule.FitsAt (eventSignal inj scr) down e .pen ↔
      (inj.penOk = true → PenProper down e) := by
  rcases hkind with h | h | h
  · rw [fitsAt_opens_iff h]
    simp only [PenProper, ClosesItsKind, h.not_closes, Presses]
    grind
  · have hdown : e.type ≠ spInputStylusDown := fun ht => Opens.not_moves (.inr ht) h
    rw [fitsAt_moves_iff h]
    simp only [PenProper, ClosesItsKind, hdown, h.not_closes, Presses]
    grind
  · have hdown : e.type ≠ spInputStylusDown := fun ht => Opens.not_closes (.inr ht) h
    rw [fitsAt_closes_iff h]
    simp only [PenProper, ClosesItsKind, hdown, h, Presses, Releases]
    grind

theorem fitsAt_touch_iff (hkind : Opens e ∨ Moves e ∨ Closes e) :
    (∀ id, pointerRule.FitsAt (eventSignal inj scr) down e (.touch id)) ↔
      (inj.penOk = false ∧ inj.touchOk = true → TouchProper down e) := by
  rcases hkind with h | h | h
  · simp only [fitsAt_opens_iff h, Presses]
    constructor
    · intro hfits hok
      refine ⟨fun ht p hp hdown hid => ?_, fun hcloses => absurd hcloses h.not_closes⟩
      exact hfits _ ⟨hok, ht, rfl⟩ p hp ⟨hok, hdown, hid⟩
    · rintro hproper id ⟨hok, ht, rfl⟩ p hp ⟨-, hdown, hid⟩
      exact (hproper hok).1 ht p hp hdown hid
  · have hdown : e.type ≠ spInputStylusDown := fun ht => Opens.not_moves (.inr ht) h
    simp only [fitsAt_moves_iff h, TouchProper, ClosesItsKind, hdown, h.not_closes, Presses]
    grind
  · have hdown : e.type ≠ spInputStylusDown := fun ht => Opens.not_closes (.inr ht) h
    simp only [fitsAt_closes_iff h, Presses, Releases]
    constructor
    · intro hfits hok
      refine ⟨fun ht => absurd ht hdown, fun _ p hp hkey => ?_⟩
      have hone := hfits (e.pointerId.toUInt32 % 16) p hp hkey
      simpa [hok, hkey] using hone
    · intro hproper id p hp hkey
      by_cases hok : inj.penOk = false ∧ inj.touchOk = true
      · rw [hkey, (hproper hok).2 h p hp hkey]
      · simp only [hok, false_and]

/-- **Step lemma**: what fits the contacts is what suits the devices. -/
theorem fits_iff_proper (hopened : ∀ p ∈ down, Opens p) (hkind : Opens e ∨ Moves e ∨ Closes e) :
    pointerRule.Fits (eventSignal inj scr) down e ↔ Proper inj scr down e := by
  have hcontacts : pointerRule.Fits (eventSignal inj scr) down e ↔
      (∀ b, pointerRule.FitsAt (eventSignal inj scr) down e (.button b)) ∧
        pointerRule.FitsAt (eventSignal inj scr) down e .pen ∧
        ∀ id, pointerRule.FitsAt (eventSignal inj scr) down e (.touch id) := by
    refine ⟨fun h => ⟨fun b => h _, h _, fun id => h _⟩, fun ⟨hbutton, hpen, htouch⟩ d => ?_⟩
    cases d with
    | button b => exact hbutton b
    | pen => exact hpen
    | touch id => exact htouch id
  rw [hcontacts, fitsAt_pen_iff hkind, fitsAt_touch_iff hkind]
  simp only [fitsAt_button_iff hopened hkind]
  exact ⟨fun ⟨hmouse, hpen, htouch⟩ => ⟨fun hscr b => hmouse b hscr, hpen, htouch⟩,
    fun h => ⟨fun b hscr => h.mouse hscr b, h.pen, h.touch⟩⟩

/-- **Run lemma**: along a stream that obeys the rule. -/
theorem along_fits_iff_allProper {evs : List SpInputEvent} (h : Obeys evs) :
    pointerRule.machine.Along (pointerRule.Fits (eventSignal inj scr)) [] evs ↔
      AllProper inj scr evs := by
  have hlaw : ∀ down e, pointerRule.Wf down → pointerRule.Allowed down e →
      (pointerRule.Fits (eventSignal inj scr) down e ↔ Proper inj scr down e) := by
    intro down e hwf hallowed
    refine fits_iff_proper (fun p hp => stage_opens_iff.mp (hwf.opens p hp)) ?_
    by_contra hnone
    obtain ⟨hopens, hmoves, hcloses⟩ : ¬ Opens e ∧ ¬ Moves e ∧ ¬ Closes e := by simpa using hnone
    have hstage : pointerRule.stage e = none := by
      simp [pointerRule, stage, hopens, hmoves, hcloses]
    simp [PointerRule.Allowed, hstage] at hallowed
  refine Machine.along_iff_along pointerRule.machine hlaw ?_ PointerRule.wf_nil h
  rintro down e _ _ hwf hallowed - ⟨⟩
  exact hwf.track hallowed

theorem closes_lift (p : SpInputEvent) : Closes (lift p) := by
  by_cases hdown : p.type = spInputDown <;> simp [Closes, lift, hdown]

/-- Lifting a pointer closes it as its DOWN requires. -/
theorem finishes_lift : pointerRule.Finishes (eventSignal inj scr) lift where
  key p := rfl
  stage p := stage_closes_iff.mpr (closes_lift p)
  signal p hopens d := by
    have hsame : Presses inj scr d p ↔ Releases inj scr d (lift p) := by
      rcases stage_opens_iff.mp hopens with ht | ht <;> cases d <;>
        simp [Presses, Releases, lift, ht, spInputDown, spInputMove, spInputUp, spInputStylusDown,
          spInputStylusUp, spInputCancel]
    rw [eventSignal_eq inj scr d (lift p), if_neg (closes_lift p).not_presses]
    simp only [eventSignal_press_iff, hsame]

/-- Lifting the pointers that are down goes by the rule. -/
theorem obeys_lifted {evs : List SpInputEvent} (h : Obeys evs) :
    Obeys (lifted evs) ∧ AllClosed (lifted evs) :=
  h.finished (@finishes_lift ⟨0, 0, true, true⟩ ⟨0, 0, 1920, 1080⟩)

/-- **When contacts are pressed and released in turn**: on every stream that obeys the rule and
whose events all suit the pointers that are down; and any other one fails where, at some point,
the pointers are lifted. -/
theorem inTurn_of_proper (inj : InputInjector) (scr : VirtualScreen) {evs : List SpInputEvent}
    (h : Obeys evs) :
    (AllProper inj scr evs → InTurn inj scr evs) ∧
      (AllProper inj scr evs ↔ ∀ pre, pre <+: evs → InTurn inj scr (lifted pre)) := by
  rw [← along_fits_iff_allProper h]
  exact ⟨PointerRule.inTurn_of_fits h, PointerRule.fits_iff finishes_lift h⟩

/-- A finger drags with the left button while a stylus writes, each with its own id. -/
def dragAndWrite : List SpInputEvent :=
  [⟨100, 100, spInputDown, spBtnLeft, 0, 128, 0, 0⟩, ⟨300, 200, spInputStylusDown, 0, 1, 90, 0, 0⟩,
    ⟨110, 100, spInputMove, 0, 0, 128, 0, 0⟩, ⟨310, 200, spInputStylusMove, 0, 1, 95, 0, 0⟩,
    ⟨110, 100, spInputUp, spBtnLeft, 0, 128, 0, 0⟩, ⟨310, 200, spInputStylusUp, 0, 1, 0, 0, 0⟩]

theorem inTurn_dragAndWrite :
    (Obeys dragAndWrite ∧ AllProper ⟨0, 0, true, true⟩ ⟨0, 0, 1920, 1080⟩ dragAndWrite) ∧
      InTurn ⟨0, 0, true, true⟩ ⟨0, 0, 1920, 1080⟩ dragAndWrite :=
  ⟨⟨by decide, by decide⟩, (inTurn_of_proper _ _ (by decide)).1 (by decide)⟩

/-- A finger that goes down with the left button, and is cancelled. -/
def cancelledFinger : List SpInputEvent :=
  [⟨100, 100, spInputDown, spBtnLeft, 0, 128, 0, 0⟩, ⟨100, 100, spInputCancel, 0, 0, 128, 0, 0⟩]

/-- A cancelled finger leaves the left button held, and releases a pen that was never pressed. -/
theorem cancelledFinger_not_inTurn :
    Obeys cancelledFinger ∧ AllClosed cancelledFinger ∧
      ¬ InTurn ⟨0, 0, true, true⟩ ⟨0, 0, 1920, 1080⟩ cancelledFinger := by
  refine ⟨by decide, by decide, fun h => ?_⟩
  exact h.released (.button .left) _ (List.prefix_refl _) (by decide) (by decide)

end TwinScreen.Host
