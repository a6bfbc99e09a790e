import TwinScreen.Lib.Alternation
import TwinScreen.Protocol

/-!
# TwinScreen.Host.Inject

`host/src/input/inject.cpp`: one tablet event becomes at most one call of a
Windows injection API.  The arguments of the call are the model's output, and
the press and release bits among its flags are what the contacts of the host's
devices see.  `eventSignal_eq` says which events press and release a contact.
-/

namespace TwinScreen.Host

open Lib

/-! ## `winuser.h` -/

def mouseeventfMove : UInt32 := 0x0001
def mouseeventfLeftdown : UInt32 := 0x0002
def mouseeventfLeftup : UInt32 := 0x0004
def mouseeventfRightdown : UInt32 := 0x0008
def mouseeventfRightup : UInt32 := 0x0010
def mouseeventfMiddledown : UInt32 := 0x0020
def mouseeventfMiddleup : UInt32 := 0x0040
def mouseeventfAbsolute : UInt32 := 0x8000

def pointerFlagInrange : UInt32 := 0x00000002
def pointerFlagIncontact : UInt32 := 0x00000004
def pointerFlagFirstbutton : UInt32 := 0x00000010
def pointerFlagPrimary : UInt32 := 0x00002000
def pointerFlagCanceled : UInt32 := 0x00008000
def pointerFlagDown : UInt32 := 0x00010000
def pointerFlagUpdate : UInt32 := 0x00020000
def pointerFlagUp : UInt32 := 0x00040000

/-- `PenFlagsForType`. -/
def penFlagsForType (type : UInt8) : UInt32 :=
  if type = spInputStylusDown then
    pointerFlagDown ||| pointerFlagInrange ||| pointerFlagIncontact ||| pointerFlagFirstbutton |||
      pointerFlagPrimary
  else if type = spInputStylusMove then
    pointerFlagUpdate ||| pointerFlagInrange ||| pointerFlagIncontact ||| pointerFlagFirstbutton |||
      pointerFlagPrimary
  else if type = spInputStylusUp then
    pointerFlagUp
  else if type = spInputCancel then
    pointerFlagUp ||| pointerFlagCanceled
  else
    0

/-- `TouchFlagsForType`. -/
def touchFlagsForType (type : UInt8) : UInt32 :=
  if type = spInputStylusDown then
    pointerFlagDown ||| pointerFlagInrange ||| pointerFlagIncontact
  else if type = spInputStylusMove then
    pointerFlagUpdate ||| pointerFlagInrange ||| pointerFlagIncontact
  else if type = spInputStylusUp then
    pointerFlagUp
  else if type = spInputCancel then
    pointerFlagCanceled ||| pointerFlagUp
  else
    0

/-! ## the injector -/

/-- The virtual screen, as `GetSystemMetrics` reports it. -/
structure VirtualScreen where
  x : Int
  y : Int
  cx : Int
  cy : Int
  deriving DecidableEq

/-- `InputInjector` after `Init`. -/
structure InputInjector where
  offsetX : Int
  offsetY : Int
  touchOk : Bool
  penOk : Bool
  deriving DecidableEq

/-- The `INPUT` of a `SendInput` call. -/
structure MouseInput where
  dx : Int
  dy : Int
  flags : UInt32
  deriving DecidableEq

/-- The `POINTER_TOUCH_INFO` of an `InjectTouchInput` call. -/
structure TouchInfo where
  pointerId : UInt32
  pointerFlags : UInt32
  x : Int
  y : Int
  pressure : UInt32
  /-- `rcContact`: left, top, right, bottom. -/
  contact : Int × Int × Int × Int
  deriving DecidableEq

/-- The `POINTER_PEN_INFO` of an `InjectSyntheticPointerInput` call. -/
structure PenInfo where
  pointerFlags : UInt32
  x : Int
  y : Int
  pressure : UInt32
  tiltX : Int
  tiltY : Int
  deriving DecidableEq

/-- A call of one of the three injection APIs. -/
inductive Injection
  | mouse (i : MouseInput)
  | touch (i : TouchInfo)
  | pen (i : PenInfo)
  deriving DecidableEq

/-- The flags of the buttons set in `buttons`. -/
def buttonFlags (buttons : UInt8) (left right middle : UInt32) : UInt32 :=
  (if buttons &&& spBtnLeft ≠ 0 then left else 0) |||
    (if buttons &&& spBtnRight ≠ 0 then right else 0) |||
    (if buttons &&& spBtnMiddle ≠ 0 then middle else 0)

/-- A coordinate on the scale of `MOUSEEVENTF_ABSOLUTE`; the quotient is taken in
`double`, which is wide enough to truncate it as exactly as here. -/
def normalized (abs origin extent : Int) : Int := ((abs - origin) * 65536).tdiv extent + 1

/-- `InjectMouse`. -/
def injectMouse (inj : InputInjector) (scr : VirtualScreen) (x y : UInt16) (buttons type : UInt8) :
    Option Injection :=
  if scr.cx ≤ 0 ∨ scr.cy ≤ 0 then
    none
  else
    let absX := inj.offsetX + x.toNat
    let absY := inj.offsetY + y.toNat
    let down := buttonFlags buttons mouseeventfLeftdown mouseeventfRightdown mouseeventfMiddledown
    let up := buttonFlags buttons mouseeventfLeftup mouseeventfRightup mouseeventfMiddleup
    some (.mouse {
      dx := normalized absX scr.x scr.cx
      dy := normalized absY scr.y scr.cy
      flags := mouseeventfMove ||| mouseeventfAbsolute ||| (if type = spInputUp then up else down) })

/-- `InjectTouch`. -/
def injectTouch (inj : InputInjector) (x y : UInt16) (type : UInt8) (contact : UInt32) :
    Option Injection :=
  if inj.touchOk = false then
    none
  else
    let px := inj.offsetX + x.toNat
    let py := inj.offsetY + y.toNat
    some (.touch {
      pointerId := contact % 16
      pointerFlags := touchFlagsForType type
      x := px
      y := py
      pressure := 32000
      contact := (px - 2, py - 2, px + 2, py + 2) })

/-- `InjectPen`. -/
def injectPen (inj : InputInjector) (x y : UInt16) (type pressure : UInt8) (tiltX tiltY : Int16) :
    Option Injection :=
  if inj.penOk = false then
    none
  else
    some (.pen {
      pointerFlags := penFlagsForType type
      x := inj.offsetX + x.toNat
      y := inj.offsetY + y.toNat
      pressure := pressure.toUInt32 * 1024 / 255
      tiltX := tiltX.toInt.tdiv 10
      tiltY := tiltY.toInt.tdiv 10 })

/-- The body of the loop of `InjectBatch`. -/
def injectEvent (inj : InputInjector) (scr : VirtualScreen) (e : SpInputEvent) : Option Injection :=
  if e.type = spInputDown ∨ e.type = spInputMove ∨ e.type = spInputUp then
    injectMouse inj scr e.x e.y e.buttons e.type
  else if e.type = spInputStylusDown ∨ e.type = spInputStylusMove ∨ e.type = spInputStylusUp ∨
      e.type = spInputCancel then
    if inj.penOk = true ∧ e.type ≠ spInputCancel then
      injectPen inj e.x e.y e.type e.pressure e.tiltX e.tiltY
    else if inj.penOk = true then
      -- cancel releases the pen; the coordinates are dropped
      injectPen inj 0 0 e.type 0 0 0
    else
      -- the stylus acts as touch
      injectTouch inj e.x e.y e.type e.pointerId.toUInt32
  else
    none

/-! ## `InjectBatch` -/

/-- The bytes in memory from an address on. -/
abbrev Memory := Nat → UInt8

/-- `n` bytes at an offset. -/
def Memory.load (mem : Memory) (off n : Nat) : List UInt8 := (List.range n).map fun k => mem (off + k)

/-- The memory at a buffer: its bytes, and behind them whatever is there. -/
def memoryOf (buf : List UInt8) (beyond : Memory) : Memory := fun k =>
  buf.getD k (beyond (k - buf.length))

/-- What a batch does: the indices of the events it reads, and its calls. -/
structure BatchRun where
  reads : List Nat
  injected : List Injection

/-- The loop of `InjectBatch` from index `i` on, with `n` rounds to go. -/
def injectFrom (inj : InputInjector) (scr : VirtualScreen) (mem : Memory) (i : Nat) :
    Nat → BatchRun
  | 0 => ⟨[], []⟩
  | n + 1 =>
      let e := SpInputEvent.ofBytes (mem.load (spInputBatchSize + SpInputEvent.size * i)
        SpInputEvent.size)
      let rest := injectFrom inj scr mem (i + 1) n
      ⟨i :: rest.reads, (injectEvent inj scr e).toList ++ rest.injected⟩

/-- The `count` of a batch. -/
def batchCount (mem : Memory) : UInt32 := u32At (mem.load 0 spInputBatchSize) 0

/-- The event at index `i` of the batch, seen through the struct. -/
def Memory.event (mem : Memory) (i : Nat) : SpInputEvent :=
  .ofBytes (mem.load (spInputBatchSize + SpInputEvent.size * i) SpInputEvent.size)

/-- The events of the batch, as its count gives them. -/
def batchEvents (mem : Memory) : List SpInputEvent :=
  (List.range (batchCount mem).toNat).map mem.event

/-- `InjectBatch` on the batch at the front of memory. -/
def injectBatch (inj : InputInjector) (scr : VirtualScreen) (mem : Memory) : BatchRun :=
  injectFrom inj scr mem 0 (batchCount mem).toNat

/-- The events read are the first `count` ones. -/
theorem reads_injectFrom (inj : InputInjector) (scr : VirtualScreen) (mem : Memory) (i n : Nat) :
    (injectFrom inj scr mem i n).reads = List.range' i n := by
  induction n generalizing i with
  | zero => rfl
  | succ n ih => rw [injectFrom, ih, List.range'_succ]

theorem mem_reads_injectBatch {inj : InputInjector} {scr : VirtualScreen} {mem : Memory} {i : Nat} :
    i ∈ (injectBatch inj scr mem).reads ↔ i < (batchCount mem).toNat := by
  rw [injectBatch, reads_injectFrom]
  simp

/-- Inside the buffer memory is the buffer. -/
theorem load_memoryOf {buf : List UInt8} {beyond : Memory} {off n : Nat}
    (h : off + n ≤ buf.length) : (memoryOf buf beyond).load off n = (buf.drop off).take n := by
  apply List.ext_getElem
  · simp [Memory.load]
    omega
  · intro k hk _
    have hlt : k < n := by simpa [Memory.load] using hk
    simp [Memory.load, memoryOf, List.getElem?_eq_getElem (show off + k < buf.length by omega)]

/-- A buffer with at least its count knows the count. -/
theorem batchCount_memoryOf {buf : List UInt8} (beyond : Memory) (h : spInputBatchSize ≤ buf.length) :
    batchCount (memoryOf buf beyond) = u32At buf 0 := by
  rw [batchCount, load_memoryOf (by omega), List.drop_zero, u32At, u32At,
    fieldAt_take (by decide)]

/-- An event between others is found at its index. -/
theorem load_event (n : Nat) (pre : List SpInputEvent) (e : SpInputEvent)
    (post : List SpInputEvent) (beyond : Memory) :
    (memoryOf (leBytes 4 n ++ (pre ++ e :: post).flatMap SpInputEvent.bytes) beyond).load
      (spInputBatchSize + SpInputEvent.size * pre.length) SpInputEvent.size = e.bytes := by
  have hpre : (leBytes 4 n ++ pre.flatMap SpInputEvent.bytes).length =
      spInputBatchSize + SpInputEvent.size * pre.length := by
    rw [List.length_append, length_leBytes, length_flatMap_bytes]
    rfl
  have hsplit : leBytes 4 n ++ (pre ++ e :: post).flatMap SpInputEvent.bytes =
      (leBytes 4 n ++ pre.flatMap SpInputEvent.bytes) ++
        (e.bytes ++ post.flatMap SpInputEvent.bytes) := by
    simp [List.append_assoc]
  rw [hsplit, load_memoryOf, ← hpre, List.drop_left, ← SpInputEvent.length_bytes e, List.take_left]
  rw [List.length_append, hpre, List.length_append, SpInputEvent.length_bytes]
  omega

/-- The count of a batch on the wire. -/
theorem batchCount_inputBatchBytes {evs : List SpInputEvent} (hlen : evs.length < 2 ^ 32)
    (beyond : Memory) :
    (batchCount (memoryOf (inputBatchBytes evs) beyond)).toNat = evs.length := by
  have hsize : spInputBatchSize ≤ (inputBatchBytes evs).length := by
    rw [length_inputBatchBytes]
    exact Nat.le_add_right _ _
  have hfield : fieldAt (inputBatchBytes evs) 0 4 = evs.length := by
    rw [fieldAt, List.drop_zero, inputBatchBytes, List.take_append_of_le_length (by simp),
      List.take_of_length_le (by simp), leNat_leBytes_of_lt (by simpa using hlen)]
  rw [batchCount_memoryOf beyond hsize, toNat_u32At, hfield]

/-- The events of a batch on the wire are found in it, in order. -/
theorem batchEvents_inputBatchBytes {evs : List SpInputEvent} (hlen : evs.length < 2 ^ 32)
    (beyond : Memory) : batchEvents (memoryOf (inputBatchBytes evs) beyond) = evs := by
  rw [batchEvents, batchCount_inputBatchBytes hlen]
  apply List.ext_getElem
  · rw [List.length_map, List.length_range]
  · intro i _ hi
    have hsplit : evs = evs.take i ++ evs[i] :: evs.drop (i + 1) := by
      rw [← List.drop_eq_getElem_cons hi, List.take_append_drop]
    have hload := load_event evs.length (evs.take i) evs[i] (evs.drop (i + 1)) beyond
    rw [← hsplit, List.length_take, Nat.min_eq_left (Nat.le_of_lt hi)] at hload
    rw [List.getElem_map, List.getElem_range, inputBatchBytes, Memory.event, hload,
      SpInputEvent.ofBytes_bytes]

/-- The loop injects the events it sees. -/
theorem injected_injectFrom (inj : InputInjector) (scr : VirtualScreen) (mem : Memory) (i n : Nat) :
    (injectFrom inj scr mem i n).injected =
      ((List.range' i n).map mem.event).filterMap (injectEvent inj scr) := by
  induction n generalizing i with
  | zero => rfl
  | succ n ih =>
      have hturn : (injectFrom inj scr mem i (n + 1)).injected =
          (injectEvent inj scr (mem.event i)).toList ++ (injectFrom inj scr mem (i + 1) n).injected :=
        rfl
      rw [hturn, ih, List.range'_succ, List.map_cons, List.filterMap_cons]
      cases injectEvent inj scr (mem.event i) <;> rfl

/-- `InjectBatch` injects the events it sees in the batch. -/
theorem injected_injectBatch (inj : InputInjector) (scr : VirtualScreen) (mem : Memory) :
    (injectBatch inj scr mem).injected = (batchEvents mem).filterMap (injectEvent inj scr) := by
  rw [injectBatch, injected_injectFrom, batchEvents, List.range_eq_range']

/-- **A batch on the wire is injected event by event.** -/
theorem injectBatch_inputBatchBytes (inj : InputInjector) (scr : VirtualScreen)
    {evs : List SpInputEvent} (hlen : evs.length < 2 ^ 32) (beyond : Memory) :
    (injectBatch inj scr (memoryOf (inputBatchBytes evs) beyond)).injected =
      evs.filterMap (injectEvent inj scr) := by
  rw [injected_injectBatch, batchEvents_inputBatchBytes hlen]

/-- Batch after batch, the events are injected in the order of the stream. -/
theorem injected_flatten (inj : InputInjector) (scr : VirtualScreen)
    {batches : List (List SpInputEvent)} (hlen : ∀ evs ∈ batches, evs.length < 2 ^ 32)
    (beyond : Memory) :
    (batches.flatMap fun evs =>
      (injectBatch inj scr (memoryOf (inputBatchBytes evs) beyond)).injected) =
        batches.flatten.filterMap (injectEvent inj scr) := by
  induction batches with
  | nil => rfl
  | cons evs batches ih =>
      have ih := ih fun evs' hmem => hlen evs' (List.mem_cons_of_mem evs hmem)
      rw [List.flatMap_cons, ih, injectBatch_inputBatchBytes inj scr (hlen evs List.mem_cons_self),
        List.flatten_cons, List.filterMap_append]

/-! ## what the contacts see -/

/-- A mouse button. -/
inductive Button
  | left
  | right
  | middle
  deriving DecidableEq

namespace Button

/-- The button's bit in `sp_input_event.buttons`. -/
def bit : Button → UInt8
  | left => spBtnLeft
  | right => spBtnRight
  | middle => spBtnMiddle

def downFlag : Button → UInt32
  | left => mouseeventfLeftdown
  | right => mouseeventfRightdown
  | middle => mouseeventfMiddledown

def upFlag : Button → UInt32
  | left => mouseeventfLeftup
  | right => mouseeventfRightup
  | middle => mouseeventfMiddleup

end Button

/-- A contact of a host device. -/
inductive Contact
  | button (b : Button)
  | pen
  | touch (id : UInt32)
  deriving DecidableEq

/-- The signal that flags carry, by their press and their release bit. -/
def flagSignal (flags press release : UInt32) : Option Signal :=
  if flags &&& press ≠ 0 then some .press
  else if flags &&& release ≠ 0 then some .release
  else none

/-- The signal an injection gives a contact. -/
def Injection.signal (d : Contact) : Injection → Option Signal
  | mouse i =>
      match d with
      | .button b => flagSignal i.flags b.downFlag b.upFlag
      | _ => none
  | touch i =>
      match d with
      | .touch id =>
          if i.pointerId = id then flagSignal i.pointerFlags pointerFlagDown pointerFlagUp else none
      | _ => none
  | pen i =>
      match d with
      | .pen => flagSignal i.pointerFlags pointerFlagDown pointerFlagUp
      | _ => none

/-- The signal an event gives a contact. -/
def eventSignal (inj : InputInjector) (scr : VirtualScreen) (d : Contact) (e : SpInputEvent) :
    Option Signal :=
  (injectEvent inj scr e).bind (Injection.signal d)

/-- The presses and releases of a contact in the course of an event stream. -/
def signals (inj : InputInjector) (scr : VirtualScreen) (d : Contact) (evs : List SpInputEvent) :
    List Signal :=
  evs.filterMap (eventSignal inj scr d)

/-- The signals of a stream are those of the calls that its batches make. -/
theorem signals_flatten (inj : InputInjector) (scr : VirtualScreen) (d : Contact)
    {batches : List (List SpInputEvent)} (hlen : ∀ evs ∈ batches, evs.length < 2 ^ 32)
    (beyond : Memory) :
    signals inj scr d batches.flatten =
      (batches.flatMap fun evs =>
        (injectBatch inj scr (memoryOf (inputBatchBytes evs) beyond)).injected).filterMap
          (Injection.signal d) := by
  rw [injected_flatten inj scr hlen beyond, List.filterMap_filterMap]
  rfl

/-! ## which events press and release -/

/-- The wire events that press a contact. -/
def Presses (inj : InputInjector) (scr : VirtualScreen) : Contact → SpInputEvent → Prop
  | .button b, e =>
      (0 < scr.cx ∧ 0 < scr.cy) ∧ (e.type = spInputDown ∨ e.type = spInputMove) ∧
        e.buttons &&& b.bit ≠ 0
  | .pen, e => inj.penOk = true ∧ e.type = spInputStylusDown
  | .touch id, e =>
      (inj.penOk = false ∧ inj.touchOk = true) ∧ e.type = spInputStylusDown ∧
        e.pointerId.toUInt32 % 16 = id

/-- The wire events that release a contact. -/
def Releases (inj : InputInjector) (scr : VirtualScreen) : Contact → SpInputEvent → Prop
  | .button b, e =>
      (0 < scr.cx ∧ 0 < scr.cy) ∧ e.type = spInputUp ∧ e.buttons &&& b.bit ≠ 0
  | .pen, e => inj.penOk = true ∧ (e.type = spInputStylusUp ∨ e.type = spInputCancel)
  | .touch id, e =>
      (inj.penOk = false ∧ inj.touchOk = true) ∧
        (e.type = spInputStylusUp ∨ e.type = spInputCancel) ∧ e.pointerId.toUInt32 % 16 = id

instance (inj : InputInjector) (scr : VirtualScreen) (d : Contact) (e : SpInputEvent) :
    Decidable (Presses inj scr d e) := by
  cases d <;> exact inferInstanceAs (Decidable (_ ∧ _))

instance (inj : InputInjector) (scr : VirtualScreen) (d : Contact) (e : SpInputEvent) :
    Decidable (Releases inj scr d e) := by
  cases d <;> exact inferInstanceAs (Decidable (_ ∧ _))

/-- The bit of a button in the flags of a mouse injection. -/
theorem mouse_flagSignal (b : Button) (buttons : UInt8) (isUp : Bool) :
    flagSignal
        (mouseeventfMove ||| mouseeventfAbsolute |||
          (if isUp then
            buttonFlags buttons mouseeventfLeftup mouseeventfRightup mouseeventfMiddleup
          else
            buttonFlags buttons mouseeventfLeftdown mouseeventfRightdown mouseeventfMiddledown))
        b.downFlag b.upFlag =
      if buttons &&& b.bit ≠ 0 then some (if isUp then .release else .press) else none := by
  unfold buttonFlags
  cases b <;> simp only [Button.bit] <;>
    by_cases hl : buttons &&& spBtnLeft = 0 <;> by_cases hr : buttons &&& spBtnRight = 0 <;>
    by_cases hm : buttons &&& spBtnMiddle = 0 <;> cases isUp <;>
    simp only [hl, hr, hm, ne_eq, not_true_eq_false, not_false_eq_true, if_true, if_false] <;> decide

/-- The signal of a mouse event: its buttons, pressed unless it is an UP. -/
theorem injectMouse_signal (inj : InputInjector) (scr : VirtualScreen) (x y : UInt16)
    (buttons type : UInt8) (d : Contact) :
    (injectMouse inj scr x y buttons type).bind (Injection.signal d) =
      match d with
      | .button b =>
          if (0 < scr.cx ∧ 0 < scr.cy) ∧ buttons &&& b.bit ≠ 0 then
            some (if type = spInputUp then .release else .press)
          else none
      | _ => none := by
  unfold injectMouse
  by_cases hscr : scr.cx ≤ 0 ∨ scr.cy ≤ 0
  · have hpos : ¬ (0 < scr.cx ∧ 0 < scr.cy) := by omega
    cases d <;> simp [hscr, hpos]
  · have hpos : 0 < scr.cx ∧ 0 < scr.cy := by omega
    cases d with
    | pen => simp [hscr, Injection.signal]
    | touch id => simp [hscr, Injection.signal]
    | button b =>
        have hflags := mouse_flagSignal b buttons (decide (type = spInputUp))
        simp only [decide_eq_true_eq] at hflags
        simp only [hscr, if_false, hpos, and_self, true_and, Option.bind_some, Injection.signal]
        exact hflags

/-- The signal of a pen injection does not depend on where the pen is. -/
theorem injectPen_signal {inj : InputInjector} (hok : inj.penOk = true) (x y : UInt16)
    (type pressure : UInt8) (tiltX tiltY : Int16) (d : Contact) :
    (injectPen inj x y type pressure tiltX tiltY).bind (Injection.signal d) =
      if d = .pen then flagSignal (penFlagsForType type) pointerFlagDown pointerFlagUp
      else none := by
  cases d <;> simp [injectPen, hok, Injection.signal]

/-- The signal of a touch injection goes to the contact with its id. -/
theorem injectTouch_signal (inj : InputInjector) (x y : UInt16) (type : UInt8) (contact : UInt32)
    (d : Contact) :
    (injectTouch inj x y type contact).bind (Injection.signal d) =
      if inj.touchOk = true ∧ d = .touch (contact % 16) then
        flagSignal (touchFlagsForType type) pointerFlagDown pointerFlagUp
      else none := by
  cases hok : inj.touchOk <;> cases d <;> simp [injectTouch, hok, Injection.signal, eq_comm]

/-- The signal of a stylus event, by its type. -/
theorem stylus_flagSignal {type : UInt8} (h : type = spInputStylusDown ∨ type = spInputStylusMove ∨
      type = spInputStylusUp ∨ type = spInputCancel) :
    flagSignal (penFlagsForType type) pointerFlagDown pointerFlagUp =
        (if type = spInputStylusDown then some .press
        else if type = spInputStylusUp ∨ type = spInputCancel then some .release
        else none) ∧
      flagSignal (touchFlagsForType type) pointerFlagDown pointerFlagUp =
        (if type = spInputStylusDown then some .press
        else if type = spInputStylusUp ∨ type = spInputCancel then some .release
        else none) := by
  rcases h with rfl | rfl | rfl | rfl <;> decide

/-- **What an event does to a contact**, in terms of the event. -/
theorem eventSignal_eq (inj : InputInjector) (scr : VirtualScreen) (d : Contact)
    (e : SpInputEvent) :
    eventSignal inj scr d e =
      if Presses inj scr d e then some .press
      else if Releases inj scr d e then some .release
      else none := by
  unfold eventSignal injectEvent
  by_cases hmouse : e.type = spInputDown ∨ e.type = spInputMove ∨ e.type = spInputUp
  · rw [if_pos hmouse, injectMouse_signal]
    cases d with
    | button b =>
        rcases hmouse with ht | ht | ht <;>
          simp [Presses, Releases, ht, spInputDown, spInputMove, spInputUp]
    | pen | touch id =>
        rcases hmouse with ht | ht | ht <;>
          simp [Presses, Releases, ht, spInputDown, spInputMove, spInputUp, spInputStylusDown,
            spInputStylusUp, spInputCancel]
  · rw [if_neg hmouse]
    obtain ⟨hdown, hmove, hup⟩ : e.type ≠ spInputDown ∧ e.type ≠ spInputMove ∧
        e.type ≠ spInputUp := by simpa using hmouse
    by_cases hstylus : e.type = spInputStylusDown ∨ e.type = spInputStylusMove ∨
        e.type = spInputStylusUp ∨ e.type = spInputCancel
    · obtain ⟨hpen, htouch⟩ := stylus_flagSignal hstylus
      rw [if_pos hstylus]
      cases hok : inj.penOk with
      | true =>
          have hsignal : ∀ r, r = (if d = .pen then
              flagSignal (penFlagsForType e.type) pointerFlagDown pointerFlagUp else none) →
              r = if Presses inj scr d e then some .press
                else if Releases inj scr d e then some .release else none := by
            intro r hr
            rw [hr, hpen]
            cases d <;> simp [Presses, Releases, hok, hdown, hmove, hup]
          split
          · exact hsignal _ (injectPen_signal hok ..)
          · exact hsignal _ (by rw [if_pos rfl, injectPen_signal hok])
      | false =>
          simp only [Bool.false_eq_true, false_and, if_false, injectTouch_signal, htouch]
          cases d with
          | button b | pen => simp [Presses, Releases, hok, hdown, hmove, hup]
          | touch id =>
              have hid : Contact.touch id = .touch (e.pointerId.toUInt32 % 16) ↔
                  e.pointerId.toUInt32 % 16 = id := by
                rw [Contact.touch.injEq]
                exact eq_comm
              by_cases htouchOk : inj.touchOk = true <;>
                by_cases hcontact : e.pointerId.toUInt32 % 16 = id <;>
                simp [Presses, Releases, hok, hid, htouchOk, hcontact]
    · obtain ⟨hsdown, -, hsup, hcancel⟩ : e.type ≠ spInputStylusDown ∧
          e.type ≠ spInputStylusMove ∧ e.type ≠ spInputStylusUp ∧ e.type ≠ spInputCancel := by
        simpa using hstylus
      rw [if_neg hstylus]
      cases d <;> simp [Presses, Releases, hdown, hmove, hup, hsdown, hsup, hcancel]

end TwinScreen.Host
