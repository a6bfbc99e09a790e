import Mathlib.Data.Rat.Floor
import TwinScreen.Tablet.Sender

/-!
# TwinScreen.Tablet.InputSender

`InputSender.kt`: touches of the render view become input batches.  Positions,
pressures and angles are exact rationals.

`activePointers` is the list of its keys; a `HashMap` has an order of its own, and
no result is about the order of the CANCEL events it gives.
-/

namespace TwinScreen.Tablet

open Lib

/-! ## `MotionEvent` -/

inductive ToolType
  | unknown
  | finger
  | stylus
  | mouse
  | eraser
  deriving DecidableEq, Repr

/-- `getActionMasked`. -/
inductive Action
  | down
  | up
  | move
  | cancel
  | outside
  | pointerDown
  | pointerUp
  deriving DecidableEq, Repr

/-- What a `MotionEvent` says of one pointer. -/
structure Pointer where
  id : Int
  toolType : ToolType
  x : ℚ
  y : ℚ
  pressure : ℚ
  orientation : ℚ
  tilt : ℚ
  deriving DecidableEq

structure MotionEvent where
  actionMasked : Action
  actionIndex : Nat
  pointers : List Pointer
  deriving DecidableEq

/-- The pointer at an index; there is no other index. -/
def MotionEvent.pointer (e : MotionEvent) (index : Nat) : Except Throwable Pointer :=
  match e.pointers[index]? with
  | none => .error .illegalArgument
  | some p => .ok p

/-! ## `InputSender` -/

def inMove : Int := 0
def inDown : Int := 1
def inUp : Int := 2
def inStylusDown : Int := 3
def inStylusMove : Int := 4
def inStylusUp : Int := 5
def inCancel : Int := 6

/-- `toInt()` of a floating-point number: toward zero, as far as an `Int` goes. -/
def floatToInt (v : ℚ) : Int := max (-2147483648) (min (v.num.tdiv v.den) 2147483647)

/-- `coerceIn` throws when the range is empty. -/
def coerceIn (v lo hi : Int) : Except Throwable Int :=
  if hi < lo then .error .illegalArgument else .ok (max lo (min v hi))

def Pointer.isStylus (p : Pointer) : Bool := p.toolType == .stylus

/-- `toEvent`, for a display mode and a view of these sizes. -/
def toEvent (display view : Int × Int) (p : Pointer) (type : Int) :
    Except Throwable InputEvent := do
  let vw : ℚ := if view.1 > 0 then view.1 else 1
  let vh : ℚ := if view.2 > 0 then view.2 else 1
  let x ← coerceIn (floatToInt (p.x / vw * display.1)) 0 display.1
  let y ← coerceIn (floatToInt (p.y / vh * display.2)) 0 display.2
  -- radians to tenths of a degree
  let tilt (v : ℚ) : Int := if p.isStylus then floatToInt (v * (5729578 / 10000)) else 0
  return {
    x := x
    y := y
    type := type
    buttons := 0
    pointerId := p.id
    pressure := floatToInt (max 0 (min p.pressure 1) * 255)
    tiltX := tilt p.orientation
    tiltY := tilt p.tilt }

/-- `InputSender`: the keys of `activePointers`. -/
structure InputSender where
  activePointers : List Int := []
  deriving DecidableEq, Repr

/-- The events of the pointers that move. -/
def movesOf (display view : Int × Int) : List Pointer → Except Throwable (List InputEvent)
  | [] => .ok []
  | p :: ps => do
      let event ← toEvent display view p (if p.isStylus then inStylusMove else inMove)
      let events ← movesOf display view ps
      return event :: events

/-- `onTouch`: the sender after it, and the events it sends. -/
def InputSender.onTouch (s : InputSender) (display view : Int × Int) (e : MotionEvent) :
    Except Throwable (InputSender × List InputEvent) :=
  match e.actionMasked with
  | .down | .pointerDown => do
      let p ← e.pointer e.actionIndex
      let event ← toEvent display view p (if p.isStylus then inStylusDown else inDown)
      return ({ s with activePointers := s.activePointers.insert p.id }, [event])
  | .move => do
      let events ← movesOf display view (e.pointers.filter (·.id ∈ s.activePointers))
      return (s, events)
  | .up | .pointerUp => do
      let p ← e.pointer e.actionIndex
      let event ← toEvent display view p (if p.isStylus then inStylusUp else inUp)
      return ({ s with activePointers := s.activePointers.erase p.id }, [event])
  | .cancel =>
      return ({ s with activePointers := [] },
        s.activePointers.map fun id => ⟨0, 0, inCancel, 0, id, 0, 0, 0⟩)
  | .outside => return (s, [])

/-- A touch of the view, with the view's size at that time. -/
structure Touch where
  view : Int × Int
  event : MotionEvent
  deriving DecidableEq

/-- The batches of touches one after the other. -/
def InputSender.batches (display : Int × Int) :
    InputSender → List Touch → Except Throwable (List (List InputEvent))
  | _, [] => .ok []
  | s, t :: ts => do
      let (s', events) ← s.onTouch display t.view t.event
      let rest ← s'.batches display ts
      return events :: rest

/-- `displayW` and `displayH`, as `RenderView` gives them. -/
def Client.display (c : Client) : Int × Int :=
  ((c.ack.map Ack.modeW).getD 1, (c.ack.map Ack.modeH).getD 1)

/-- The bytes that these batches write. -/
def Client.sendBatches (c : Client) : List (List InputEvent) → Except Throwable (List UInt8)
  | [] => .ok []
  | events :: batches => do
      let bytes ← if events = [] then .ok [] else c.sendInputBatch events
      let rest ← c.sendBatches batches
      return bytes ++ rest

/-! ## the events -/

/-- Whatever the touch, an event holds no button. -/
theorem toEvent_buttons {display view : Int × Int} {p : Pointer} {type : Int} {event : InputEvent}
    (h : toEvent display view p type = .ok event) : event.buttons = 0 := by
  rw [toEvent] at h
  obtain ⟨x, -, h⟩ := bind_eq_ok_iff.mp h
  obtain ⟨y, -, h⟩ := bind_eq_ok_iff.mp h
  cases h
  rfl

theorem movesOf_spec {display view : Int × Int} {ps : List Pointer} {events : List InputEvent}
    (h : movesOf display view ps = .ok events) :
    events.length = ps.length ∧ ∀ event ∈ events, event.buttons = 0 := by
  induction ps generalizing events with
  | nil =>
      cases h
      simp
  | cons p ps ih =>
      rw [movesOf] at h
      obtain ⟨event, hevent, h⟩ := bind_eq_ok_iff.mp h
      obtain ⟨rest, hrest, h⟩ := bind_eq_ok_iff.mp h
      cases h
      obtain ⟨hlen, hbuttons⟩ := ih hrest
      rw [List.forall_mem_cons]
      exact ⟨by rw [List.length_cons, hlen, List.length_cons], toEvent_buttons hevent, hbuttons⟩

theorem MotionEvent.pointers_pos {e : MotionEvent} {index : Nat} {p : Pointer}
    (h : e.pointer index = .ok p) : 1 ≤ e.pointers.length := by
  rw [pointer] at h
  split at h
  · contradiction
  · next hget =>
      have hlt := (List.getElem?_eq_some_iff.mp hget).1
      omega

/-- A touch that sends the event of one pointer. -/
theorem oneEvent_spec {display view : Int × Int} {e : MotionEvent} {type : Pointer → Int}
    {next : Pointer → InputSender} {s' : InputSender} {events : List InputEvent}
    (h : (do
      let p ← e.pointer e.actionIndex
      let event ← toEvent display view p (type p)
      return (next p, [event])) = .ok (s', events)) :
    events.length ≤ e.pointers.length ∧ ∀ event ∈ events, event.buttons = 0 := by
  obtain ⟨p, hp, h⟩ := bind_eq_ok_iff.mp h
  obtain ⟨event, hevent, h⟩ := bind_eq_ok_iff.mp h
  cases h
  simp [toEvent_buttons hevent, MotionEvent.pointers_pos hp]

/-- What a touch sends holds no button, and unless it cancels there is at most an event
for each of its pointers. -/
theorem InputSender.onTouch_spec {s s' : InputSender} {display view : Int × Int}
    {e : MotionEvent} {events : List InputEvent}
    (h : s.onTouch display view e = .ok (s', events)) :
    (e.actionMasked ≠ .cancel → events.length ≤ e.pointers.length) ∧
      ∀ event ∈ events, event.buttons = 0 := by
  rw [onTouch] at h
  split at h
  · exact (oneEvent_spec h).imp_left fun hlen _ => hlen
  · exact (oneEvent_spec h).imp_left fun hlen _ => hlen
  · obtain ⟨moved, hmoved, h⟩ := bind_eq_ok_iff.mp h
    cases h
    obtain ⟨hlen, hbuttons⟩ := movesOf_spec hmoved
    exact ⟨fun _ => hlen ▸ List.length_filter_le _ _, hbuttons⟩
  · exact (oneEvent_spec h).imp_left fun hlen _ => hlen
  · exact (oneEvent_spec h).imp_left fun hlen _ => hlen
  · next hcancel =>
      cases h
      simp [hcancel]
  · cases h
    simp

/-- The batches of touches that do not cancel. -/
theorem InputSender.batches_spec {s : InputSender} {display : Int × Int} {ts : List Touch}
    {bs : List (List InputEvent)} (h : s.batches display ts = .ok bs)
    (hcancel : ∀ t ∈ ts, t.event.actionMasked ≠ .cancel) :
    ∀ events ∈ bs, (∃ t ∈ ts, events.length ≤ t.event.pointers.length) ∧
      ∀ event ∈ events, event.buttons = 0 := by
  induction ts generalizing s bs with
  | nil =>
      cases h
      simp
  | cons t ts ih =>
      rw [batches] at h
      obtain ⟨⟨s', events⟩, htouch, h⟩ := bind_eq_ok_iff.mp h
      obtain ⟨rest, hrest, h⟩ := bind_eq_ok_iff.mp h
      cases h
      rw [List.forall_mem_cons] at hcancel ⊢
      obtain ⟨hlen, hbuttons⟩ := onTouch_spec htouch
      constructor
      · exact ⟨⟨t, by simp, hlen hcancel.1⟩, hbuttons⟩
      · have hih := ih hrest hcancel.2
        grind

/-! ## touches that are sent -/

theorem toEvent_ok {display : Int × Int} (h : 0 ≤ display.1 ∧ 0 ≤ display.2) (view : Int × Int)
    (p : Pointer) (type : Int) : ∃ event, toEvent display view p type = .ok event := by
  simp only [toEvent, coerceIn, if_neg (not_lt.mpr h.1), if_neg (not_lt.mpr h.2)]
  exact ⟨_, rfl⟩

theorem movesOf_ok {display : Int × Int} (h : 0 ≤ display.1 ∧ 0 ≤ display.2) (view : Int × Int)
    (ps : List Pointer) : ∃ events, movesOf display view ps = .ok events := by
  induction ps with
  | nil => exact ⟨[], rfl⟩
  | cons p ps ih =>
      obtain ⟨event, hevent⟩ := toEvent_ok h view p (if p.isStylus then inStylusMove else inMove)
      obtain ⟨events, hevents⟩ := ih
      rw [movesOf, hevent, hevents]
      exact ⟨_, rfl⟩

theorem InputSender.onTouch_ok {display : Int × Int} (h : 0 ≤ display.1 ∧ 0 ≤ display.2)
    (view : Int × Int) {e : MotionEvent} (hindex : e.actionIndex < e.pointers.length)
    (s : InputSender) : ∃ r, s.onTouch display view e = .ok r := by
  have hpointer : e.pointer e.actionIndex = .ok e.pointers[e.actionIndex] := by
    rw [MotionEvent.pointer, List.getElem?_eq_getElem hindex]
  have hone (type : Int) := toEvent_ok h view e.pointers[e.actionIndex] type
  rw [onTouch, hpointer]
  cases e.actionMasked with
  | down | pointerDown =>
      obtain ⟨event, hevent⟩ :=
        hone (if e.pointers[e.actionIndex].isStylus then inStylusDown else inDown)
      exact ⟨_, bind_eq_ok_iff.mpr ⟨_, rfl, bind_eq_ok_iff.mpr ⟨event, hevent, rfl⟩⟩⟩
  | move =>
      obtain ⟨events, hevents⟩ :=
        movesOf_ok h view (e.pointers.filter (·.id ∈ s.activePointers))
      exact ⟨_, bind_eq_ok_iff.mpr ⟨events, hevents, rfl⟩⟩
  | up | pointerUp =>
      obtain ⟨event, hevent⟩ :=
        hone (if e.pointers[e.actionIndex].isStylus then inStylusUp else inUp)
      exact ⟨_, bind_eq_ok_iff.mpr ⟨_, rfl, bind_eq_ok_iff.mpr ⟨event, hevent, rfl⟩⟩⟩
  | cancel | outside => exact ⟨_, rfl⟩

/-- A display of a size that is not negative gets every touch. -/
theorem InputSender.batches_ok {display : Int × Int} (h : 0 ≤ display.1 ∧ 0 ≤ display.2)
    {ts : List Touch} (hindex : ∀ t ∈ ts, t.event.actionIndex < t.event.pointers.length)
    (s : InputSender) : ∃ bs, s.batches display ts = .ok bs := by
  induction ts generalizing s with
  | nil => exact ⟨[], rfl⟩
  | cons t ts ih =>
      rw [List.forall_mem_cons] at hindex
      obtain ⟨⟨s', events⟩, htouch⟩ := s.onTouch_ok h t.view hindex.1
      obtain ⟨rest, hrest⟩ := ih hindex.2 s'
      rw [batches, htouch]
      exact ⟨_, bind_eq_ok_iff.mpr ⟨_, rfl, bind_eq_ok_iff.mpr ⟨rest, hrest, rfl⟩⟩⟩

end TwinScreen.Tablet
