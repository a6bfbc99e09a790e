import Mathlib.Data.List.Nodup
import Mathlib.Logic.Function.Basic
import TwinScreen.Tablet.InputSender

/-!
# TwinScreen.Tablet.Contacts

The touch events that Android delivers to a view, and the contacts that `InputSender`
makes of them, pointer by pointer.

* `contacts_of_read` — the rule of `protocol.md` as a grammar, and an automaton for it.
* `touches_keep_rule` — for every delivered sequence of touches, each pointer's events
  follow the rule, and `activePointers` holds the pointers that are down.
-/

namespace TwinScreen.Tablet

open Lib

/-! ## the rule -/

/-- The types of a contact, of a stylus or not. -/
def downType (stylus : Bool) : Int := if stylus then inStylusDown else inDown
def moveType (stylus : Bool) : Int := if stylus then inStylusMove else inMove
def upType (stylus : Bool) : Int := if stylus then inStylusUp else inUp

/-- The event types of one pointer: contacts one after the other, each a DOWN, then MOVEs,
then one UP or CANCEL.  The state is the contact that is still going on, a stylus or not. -/
inductive Contacts : List Int → Option Bool → Prop
  | nil : Contacts [] none
  | held (stylus : Bool) (moves : Nat) :
      Contacts (downType stylus :: List.replicate moves (moveType stylus)) (some stylus)
  | ended (stylus : Bool) (moves : Nat) {last : Int} {types : List Int} {state : Option Bool}
      (hlast : last = upType stylus ∨ last = inCancel) (rest : Contacts types state) :
      Contacts (downType stylus :: List.replicate moves (moveType stylus) ++ last :: types) state

/-- The contact after one more event, if the rule allows that event. -/
def readType : Option Bool → Int → Option (Option Bool)
  | none, type =>
      if type = downType false then some (some false)
      else if type = downType true then some (some true)
      else none
  | some stylus, type =>
      if type = moveType stylus then some (some stylus)
      else if type = upType stylus ∨ type = inCancel then some none
      else none

theorem readType_none_iff {type : Int} {state : Option Bool} :
    readType none type = some state ↔ ∃ stylus, type = downType stylus ∧ state = some stylus := by
  rw [readType]
  split
  · next h => simp [h, eq_comm, downType, inDown, inStylusDown]
  · next h =>
      split
      · next h' => simp [h', eq_comm, downType, inDown, inStylusDown]
      · next h' => simp [h, h']

theorem readType_some_iff {stylus : Bool} {type : Int} {state : Option Bool} :
    readType (some stylus) type = some state ↔
      type = moveType stylus ∧ state = some stylus ∨
        (type = upType stylus ∨ type = inCancel) ∧ state = none := by
  rw [readType]
  split
  · next h =>
      cases stylus <;>
        simp [h, eq_comm, moveType, upType, inMove, inUp, inStylusMove, inStylusUp, inCancel]
  · next h =>
      split
      · next h' => simp [h, h', eq_comm]
      · next h' => simp [h, h']

/-- What the automaton reads follows the rule. -/
theorem contacts_of_foldlM (types : List Int) (state : Option Bool) :
    (types.foldlM readType none = some state → Contacts types state) ∧
      ∀ stylus moves, types.foldlM readType (some stylus) = some state →
        Contacts (downType stylus :: List.replicate moves (moveType stylus) ++ types) state := by
  induction types with
  | nil =>
      constructor
      · intro h
        cases h
        exact .nil
      · intro stylus moves h
        cases h
        rw [List.append_nil]
        exact .held stylus moves
  | cons type types ih =>
      constructor
      · intro h
        rw [List.foldlM_cons] at h
        obtain ⟨s, hs, h⟩ := Option.bind_eq_some_iff.mp h
        obtain ⟨stylus, rfl, rfl⟩ := readType_none_iff.mp hs
        exact ih.2 stylus 0 h
      · intro stylus moves h
        rw [List.foldlM_cons] at h
        obtain ⟨s, hs, h⟩ := Option.bind_eq_some_iff.mp h
        rcases readType_some_iff.mp hs with ⟨rfl, rfl⟩ | ⟨hlast, rfl⟩
        · -- one move more
          have hmore := ih.2 stylus (moves + 1) h
          rw [List.replicate_succ', List.cons_append, List.append_assoc] at hmore
          exact hmore
        · exact .ended stylus moves hlast (ih.1 h)

/-- **The automaton reads only what follows the rule.** -/
theorem contacts_of_read {types : List Int} {state : Option Bool}
    (h : types.foldlM readType none = some state) : Contacts types state :=
  (contacts_of_foldlM types state).1 h

/-- Moves keep a contact. -/
theorem read_moves {types : List Int} {stylus : Bool} (h : ∀ t ∈ types, t = moveType stylus) :
    types.foldlM readType (some stylus) = some (some stylus) := by
  induction types with
  | nil => rfl
  | cons type types ih =>
      rw [List.forall_mem_cons] at h
      rw [List.foldlM_cons, readType_some_iff.mpr (.inl ⟨h.1, rfl⟩)]
      exact ih h.2

/-! ## what Android delivers -/

/-- The pointers that are down, with their tool types. -/
abbrev Down := Int → Option ToolType

/-- No pointer is down. -/
def Down.none : Down := fun _ => Option.none

/-- The event shows these pointers, each once and with its tool type. -/
structure MotionEvent.Shows (e : MotionEvent) (down : Down) : Prop where
  once : (e.pointers.map Pointer.id).Nodup
  each : ∀ id tool, down id = some tool ↔ ∃ p ∈ e.pointers, p.id = id ∧ p.toolType = tool

/-- What Android delivers to a view with these pointers down, and the pointers that are
down after it. -/
inductive Delivers : Down → MotionEvent → Down → Prop
  | lands {down : Down} {e : MotionEvent} (p : Pointer)
      (action : e.actionMasked = .down ∧ down = Down.none ∨
        e.actionMasked = .pointerDown ∧ down ≠ Down.none)
      (index : e.pointer e.actionIndex = .ok p) (new : down p.id = none)
      (shows : e.Shows (Function.update down p.id (some p.toolType))) :
      Delivers down e (Function.update down p.id (some p.toolType))
  | moves {down : Down} {e : MotionEvent} (action : e.actionMasked = .move)
      (shows : e.Shows down) : Delivers down e down
  | lifts {down : Down} {e : MotionEvent} (p : Pointer)
      (action : e.actionMasked = .up ∧ Function.update down p.id none = Down.none ∨
        e.actionMasked = .pointerUp ∧ Function.update down p.id none ≠ Down.none)
      (index : e.pointer e.actionIndex = .ok p) (shows : e.Shows down) :
      Delivers down e (Function.update down p.id none)
  | cancels {down : Down} {e : MotionEvent} (action : e.actionMasked = .cancel) :
      Delivers down e Down.none

/-- A touch, and the display mode at that time: both sizes are unsigned shorts. -/
structure ShownTouch extends Touch where
  modeW : UInt16
  modeH : UInt16
  deriving DecidableEq

def ShownTouch.display (t : ShownTouch) : Int × Int := (t.modeW.toNat, t.modeH.toNat)

/-- What Android delivers one after the other. -/
inductive Delivered : Down → List ShownTouch → Down → Prop
  | nil (down : Down) : Delivered down [] down
  | cons {down down' down'' : Down} {t : ShownTouch} {ts : List ShownTouch}
      (head : Delivers down t.event down') (tail : Delivered down' ts down'') :
      Delivered down (t :: ts) down''

/-- The sender after these touches, and the events it has sent. -/
def InputSender.touches : InputSender → List ShownTouch →
    Except Throwable (InputSender × List InputEvent)
  | s, [] => .ok (s, [])
  | s, t :: ts => do
      let (s', events) ← s.onTouch t.display t.view t.event
      let (s'', rest) ← s'.touches ts
      return (s'', events ++ rest)

/-- Unsigned shorts are what the mode of an answer and the default are. -/
theorem Client.display_eq {c : Client}
    (h : ∀ ack, c.ack = some ack → ∃ data, readAck data = .ok ack) :
    ∃ w h : UInt16, c.display = ((w.toNat : Int), (h.toNat : Int)) := by
  have hshort (v : Int) : ((UInt16.ofInt v).toNat : Int) = maskBytes 2 v := by
    rw [toNat_uint16_ofInt, maskBytes]
    omega
  rw [Client.display]
  cases hack : c.ack with
  | none => exact ⟨1, 1, rfl⟩
  | some ack =>
      obtain ⟨data, hdata⟩ := h ack hack
      obtain ⟨⟨_, rest⟩, hrun, rfl⟩ := map_eq_ok_iff.mp hdata
      simp only [getAck, Get.byte, Get.short, Get.int, Get.num_bind_run_eq_ok_iff,
        Get.pure_run] at hrun
      obtain ⟨-, -, -, -, -, -, -, -, -, hend⟩ := hrun
      cases hend
      exact ⟨.ofInt _, .ofInt _, Prod.ext (hshort _).symm (hshort _).symm⟩

/-! ## the events of one pointer -/

/-- The types of a pointer's events. -/
def typesOf (id : Int) (events : List InputEvent) : List Int :=
  (events.filter (·.pointerId = id)).map (·.type)

theorem typesOf_append (id : Int) (xs ys : List InputEvent) :
    typesOf id (xs ++ ys) = typesOf id xs ++ typesOf id ys := by
  rw [typesOf, List.filter_append, List.map_append]
  rfl

theorem typesOf_cons (id : Int) (event : InputEvent) (events : List InputEvent) :
    typesOf id (event :: events) =
      if event.pointerId = id then event.type :: typesOf id events else typesOf id events := by
  by_cases h : event.pointerId = id <;> simp [typesOf, h]

/-- An event says which pointer it is about. -/
theorem toEvent_names {display : Int × Int} (h : 0 ≤ display.1 ∧ 0 ≤ display.2)
    (view : Int × Int) (p : Pointer) (type : Int) :
    ∃ event, toEvent display view p type = .ok event ∧
      event.pointerId = p.id ∧ event.type = type := by
  simp only [toEvent, coerceIn, if_neg (not_lt.mpr h.1), if_neg (not_lt.mpr h.2)]
  exact ⟨_, rfl, rfl, rfl⟩

/-- The moves of a pointer are of its kind. -/
theorem movesOf_names {display : Int × Int} (h : 0 ≤ display.1 ∧ 0 ≤ display.2)
    (view : Int × Int) (ps : List Pointer) :
    ∃ events, movesOf display view ps = .ok events ∧
      ∀ id, ∀ type ∈ typesOf id events, ∃ p ∈ ps, p.id = id ∧ type = moveType p.isStylus := by
  induction ps with
  | nil => exact ⟨[], rfl, fun _ _ hmem => nomatch hmem⟩
  | cons p ps ih =>
      obtain ⟨event, hevent, hid, htype⟩ := toEvent_names h view p (moveType p.isStylus)
      obtain ⟨events, hevents, htypes⟩ := ih
      refine ⟨event :: events, ?_, fun id type hmem => ?_⟩
      · rw [movesOf]
        exact bind_eq_ok_iff.mpr ⟨event, hevent, bind_eq_ok_iff.mpr ⟨events, hevents, rfl⟩⟩
      · have hrest := htypes id type
        rw [typesOf_cons] at hmem
        split at hmem
        · next heq =>
            rw [List.mem_cons] at hmem
            rcases hmem with rfl | hmem
            · exact ⟨p, List.mem_cons_self, hid ▸ heq, htype⟩
            · obtain ⟨q, hq, hspec⟩ := hrest hmem
              exact ⟨q, List.mem_cons_of_mem p hq, hspec⟩
        · obtain ⟨q, hq, hspec⟩ := hrest hmem
          exact ⟨q, List.mem_cons_of_mem p hq, hspec⟩

/-- A cancel is sent once for each pointer that is known. -/
theorem typesOf_cancels {ids : List Int} (h : ids.Nodup) (id : Int) :
    typesOf id (ids.map fun id => ⟨0, 0, inCancel, 0, id, 0, 0, 0⟩) =
      if id ∈ ids then [inCancel] else [] := by
  induction ids with
  | nil => rfl
  | cons i ids ih =>
      rw [List.nodup_cons] at h
      rw [List.map_cons, typesOf_cons, ih h.2]
      by_cases heq : i = id
      · subst heq
        simp [h.1]
      · simp [heq, Ne.symm heq]

/-! ## one touch -/

/-- `activePointers` holds the pointers that are down. -/
structure InputSender.Knows (s : InputSender) (down : Down) : Prop where
  nodup : s.activePointers.Nodup
  mem : ∀ id, id ∈ s.activePointers ↔ (down id).isSome

/-- The contact of a pointer, a stylus or not. -/
def Down.contact (down : Down) (id : Int) : Option Bool := (down id).map (· == .stylus)

theorem InputSender.knows_none : ({} : InputSender).Knows Down.none :=
  ⟨List.nodup_nil, fun id => by simp [Down.none]⟩

/-- A pointer that lands is known, and one that lifts is forgotten. -/
theorem InputSender.Knows.insert {s : InputSender} {down : Down} (h : s.Knows down) (id : Int)
    (tool : ToolType) :
    ({ s with activePointers := s.activePointers.insert id } : InputSender).Knows
      (Function.update down id (some tool)) := by
  constructor
  · exact h.nodup.insert
  · intro id'
    rw [List.mem_insert_iff, h.mem]
    by_cases heq : id' = id
    · subst heq
      simp
    · simp [heq]

theorem InputSender.Knows.erase {s : InputSender} {down : Down} (h : s.Knows down) (id : Int) :
    ({ s with activePointers := s.activePointers.erase id } : InputSender).Knows
      (Function.update down id none) := by
  constructor
  · exact h.nodup.erase id
  · intro id'
    rw [h.nodup.mem_erase_iff, h.mem]
    by_cases heq : id' = id
    · subst heq
      simp
    · simp [heq]

@[simp] theorem Down.contact_update (down : Down) (id : Int) (tool : Option ToolType) (id' : Int) :
    Down.contact (Function.update down id tool) id' =
      if id' = id then tool.map (· == .stylus) else down.contact id' := by
  by_cases h : id' = id <;> simp [contact, h]

theorem MotionEvent.mem_pointers {e : MotionEvent} {index : Nat} {p : Pointer}
    (h : e.pointer index = .ok p) : p ∈ e.pointers := by
  rw [pointer] at h
  split at h
  · contradiction
  · next hget =>
      cases h
      exact List.mem_of_getElem? hget

theorem ShownTouch.display_nonneg (t : ShownTouch) : 0 ≤ t.display.1 ∧ 0 ≤ t.display.2 :=
  ⟨Int.natCast_nonneg _, Int.natCast_nonneg _⟩

/-- One event goes on with the contact of its pointer. -/
theorem read_one {down : Down} {event : InputEvent} {tool : Option ToolType}
    (h : readType (down.contact event.pointerId) event.type = some (tool.map (· == .stylus)))
    (id : Int) : (typesOf id [event]).foldlM readType (down.contact id) =
      some (Down.contact (Function.update down event.pointerId tool) id) := by
  rw [typesOf_cons, Down.contact_update]
  by_cases heq : event.pointerId = id
  · subst heq
    rw [if_pos rfl, if_pos rfl]
    exact Option.bind_eq_some_iff.mpr ⟨_, h, rfl⟩
  · rw [if_neg heq, if_neg (Ne.symm heq)]
    rfl

/-- Whoever moves is down, with the tool it shows. -/
theorem read_shown {down : Down} {e : MotionEvent} (shows : e.Shows down)
    {events : List InputEvent} {ps : List Pointer} (hps : ∀ p ∈ ps, p ∈ e.pointers)
    (htypes : ∀ id, ∀ type ∈ typesOf id events,
      ∃ p ∈ ps, p.id = id ∧ type = moveType p.isStylus) (id : Int) :
    (typesOf id events).foldlM readType (down.contact id) = some (down.contact id) := by
  have htool : ∀ type ∈ typesOf id events,
      ∃ tool, down id = some tool ∧ type = moveType (tool == .stylus) := by
    intro type hmem
    obtain ⟨p, hp, rfl, htype⟩ := htypes id type hmem
    exact ⟨p.toolType, (shows.each _ _).mpr ⟨p, hps p hp, rfl, rfl⟩, htype⟩
  rw [Down.contact]
  cases hdown : down id with
  | none =>
      have hnil : typesOf id events = [] := by
        apply List.eq_nil_iff_forall_not_mem.mpr
        intro type hmem
        obtain ⟨tool, hsome, -⟩ := htool type hmem
        rw [hdown] at hsome
        contradiction
      rw [hnil]
      rfl
  | some tool =>
      apply read_moves
      intro type hmem
      obtain ⟨tool', hsome, htype⟩ := htool type hmem
      rw [hdown] at hsome
      cases hsome
      exact htype

/-- **One touch**: the sender knows the pointers that are down after it, and each pointer's
events go on with its contact. -/
theorem InputSender.onTouch_contact {s : InputSender} {down down' : Down} (hs : s.Knows down)
    {t : ShownTouch} (h : Delivers down t.event down') :
    ∃ s' events, s.onTouch t.display t.view t.event = .ok (s', events) ∧ s'.Knows down' ∧
      ∀ id, (typesOf id events).foldlM readType (down.contact id) = some (down'.contact id) := by
  have hone := toEvent_names t.display_nonneg t.view
  cases h with
  | lands p action index new shows =>
      obtain ⟨event, hevent, hid, htype⟩ := hone p (downType p.isStylus)
      refine ⟨_, [event], ?_, hs.insert p.id p.toolType, ?_⟩
      · rcases action with ⟨haction, -⟩ | ⟨haction, -⟩ <;> rw [onTouch, haction, index] <;>
          exact bind_eq_ok_iff.mpr ⟨p, rfl, bind_eq_ok_iff.mpr ⟨event, hevent, rfl⟩⟩
      · rw [← hid]
        apply read_one
        rw [hid, htype, Down.contact, new]
        exact readType_none_iff.mpr ⟨_, rfl, rfl⟩
  | moves action shows =>
      obtain ⟨events, hevents, htypes⟩ := movesOf_names t.display_nonneg t.view
        (t.event.pointers.filter (·.id ∈ s.activePointers))
      refine ⟨s, events, ?_, hs, read_shown shows (fun p hp => List.mem_of_mem_filter hp) htypes⟩
      rw [onTouch, action]
      exact bind_eq_ok_iff.mpr ⟨events, hevents, rfl⟩
  | lifts p action index shows =>
      obtain ⟨event, hevent, hid, htype⟩ := hone p (upType p.isStylus)
      have htool : down p.id = some p.toolType :=
        (shows.each _ _).mpr ⟨p, MotionEvent.mem_pointers index, rfl, rfl⟩
      refine ⟨_, [event], ?_, hs.erase p.id, ?_⟩
      · rcases action with ⟨haction, -⟩ | ⟨haction, -⟩ <;> rw [onTouch, haction, index] <;>
          exact bind_eq_ok_iff.mpr ⟨p, rfl, bind_eq_ok_iff.mpr ⟨event, hevent, rfl⟩⟩
      · rw [← hid]
        apply read_one
        rw [hid, htype, Down.contact, htool]
        exact readType_some_iff.mpr (.inr ⟨.inl rfl, rfl⟩)
  | cancels action =>
      refine ⟨_, _, by rw [onTouch, action]; rfl, knows_none, fun id => ?_⟩
      have hmem := hs.mem id
      rw [typesOf_cancels hs.nodup, Down.contact]
      cases hdown : down id with
      | none =>
          rw [if_neg (by simp [hmem, hdown])]
          rfl
      | some tool =>
          rw [if_pos (by simp [hmem, hdown])]
          exact Option.bind_eq_some_iff.mpr
            ⟨_, readType_some_iff.mpr (.inr ⟨.inr rfl, rfl⟩), rfl⟩

/-! ## any sequence of touches -/

theorem InputSender.touches_contact {s : InputSender} {down down' : Down} (hs : s.Knows down)
    {ts : List ShownTouch} (h : Delivered down ts down') :
    ∃ s' events, s.touches ts = .ok (s', events) ∧ s'.Knows down' ∧
      ∀ id, (typesOf id events).foldlM readType (down.contact id) = some (down'.contact id) := by
  induction h generalizing s with
  | nil down => exact ⟨s, [], rfl, hs, fun _ => rfl⟩
  | cons head tail ih =>
      obtain ⟨s₁, events, htouch, hs₁, hread⟩ := onTouch_contact hs head
      obtain ⟨s₂, rest, htouches, hs₂, hreads⟩ := ih hs₁
      refine ⟨s₂, events ++ rest, ?_, hs₂, fun id => ?_⟩
      · rw [touches]
        exact bind_eq_ok_iff.mpr ⟨_, htouch, bind_eq_ok_iff.mpr ⟨_, htouches, rfl⟩⟩
      · rw [typesOf_append, List.foldlM_append, hread id]
        exact hreads id

/-- **Whatever Android delivers**, after every event `activePointers` holds the pointers that
are down, and what was sent of each pointer are contacts as the rule has them; the one going
on is a stylus's exactly when the pointer is one. -/
theorem touches_keep_rule (ts : List ShownTouch) (down : Down) (h : Delivered Down.none ts down) :
    ∃ s events, ({} : InputSender).touches ts = .ok (s, events) ∧
      (∀ id, id ∈ s.activePointers ↔ (down id).isSome) ∧
      ∀ id, Contacts (typesOf id events) (down.contact id) := by
  obtain ⟨s, events, htouches, hs, hread⟩ := InputSender.touches_contact InputSender.knows_none h
  exact ⟨s, events, htouches, hs.mem, fun id => contacts_of_read (hread id)⟩

/-- A finger and a stylus. -/
def thumb : Pointer := ⟨0, .finger, 10, 10, 1, 0, 0⟩
def nib : Pointer := ⟨1, .stylus, 20, 20, 1, 0, 0⟩

/-- A touch by some pointers of a view of 100x100 that shows 1920x1080. -/
def touchOf (action : Action) (index : Nat) (pointers : List Pointer) : ShownTouch :=
  ⟨⟨(100, 100), ⟨action, index, pointers⟩⟩, 1920, 1080⟩

theorem shows_thumb (action : Action) (index : Nat) :
    (touchOf action index [thumb]).event.Shows (Function.update Down.none 0 (some .finger)) := by
  constructor
  · simp [touchOf]
  · intro id tool
    simp [touchOf, thumb, Function.update, Down.none]
    grind

theorem shows_both (action : Action) (index : Nat) :
    (touchOf action index [thumb, nib]).event.Shows
      (Function.update (Function.update Down.none 0 (some .finger)) 1 (some .stylus)) := by
  constructor
  · simp [touchOf, thumb, nib]
  · intro id tool
    simp [touchOf, thumb, nib, Function.update, Down.none]
    grind

/-- The finger goes down, then the stylus; the finger lifts, and the rest is cancelled. -/
theorem touches_keep_rule_cancelled :
    ∃ s events, ({} : InputSender).touches
        [touchOf .down 0 [thumb], touchOf .pointerDown 1 [thumb, nib], touchOf .move 0 [thumb, nib],
          touchOf .pointerUp 0 [thumb, nib], touchOf .cancel 0 [nib]] = .ok (s, events) ∧
      (∀ id, id ∈ s.activePointers ↔ (Down.none id).isSome) ∧
      ∀ id, Contacts (typesOf id events) (Down.none.contact id) := by
  have hfinger : Function.update Down.none 0 (some ToolType.finger) ≠ Down.none :=
    fun h => nomatch congrFun h 0
  have hstylus : Function.update (Function.update (Function.update Down.none 0
      (some ToolType.finger)) 1 (some .stylus)) 0 none ≠ Down.none := fun h => nomatch congrFun h 1
  apply touches_keep_rule
  refine .cons (.lands thumb (.inl ⟨rfl, rfl⟩) rfl rfl (shows_thumb ..)) ?_
  refine .cons (.lands nib (.inr ⟨rfl, hfinger⟩) rfl rfl (shows_both ..)) ?_
  refine .cons (.moves rfl (shows_both ..)) ?_
  refine .cons (.lifts thumb (.inr ⟨rfl, hstylus⟩) rfl (shows_both ..)) ?_
  exact .cons (.cancels rfl) (.nil _)

end TwinScreen.Tablet
