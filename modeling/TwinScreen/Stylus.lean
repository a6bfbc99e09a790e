import Mathlib.Analysis.Real.Pi.Bounds
import TwinScreen.Host.Inject
import TwinScreen.Lib.Rounding
import TwinScreen.Tablet.InputSender

/-!
# TwinScreen.Stylus

A stylus on the tablet, up to the pen or the touch that the host injects: `toEvent`, the
event's struct on the wire, `injectEvent`.

* `pixel_inside_iff` — which positions are injected inside the monitor.
* `penRight_iff` — for which angles the pen's values are in the range of the API.
-/

namespace TwinScreen

open Lib Host Tablet

/-! ## the event -/

/-- The types a stylus sends. -/
def StylusType (type : Int) : Prop :=
  type = inStylusDown ∨ type = inStylusMove ∨ type = inStylusUp

/-- A side of the view, as `toEvent` divides by it. -/
def viewSide (n : Int) : ℚ := if n > 0 then n else 1

/-- A coordinate on a display side. -/
def scaled (v : ℚ) (view display : Int) : Int :=
  max 0 (min (floatToInt (v / viewSide view * display)) display)

/-- Radians in tenths of a degree. -/
def tenths (v : ℚ) : Int := floatToInt (v * (5729578 / 10000))

theorem viewSide_pos (n : Int) : 0 < viewSide n := by
  rw [viewSide]
  split
  · next h => exact_mod_cast h
  · exact one_pos

/-- What `toEvent` gives on a display of a size that is not negative. -/
theorem toEvent_eq {display : Int × Int} (h : 0 ≤ display.1 ∧ 0 ≤ display.2) (view : Int × Int)
    (p : Pointer) (type : Int) :
    toEvent display view p type = .ok
      { x := scaled p.x view.1 display.1
        y := scaled p.y view.2 display.2
        type := type
        buttons := 0
        pointerId := p.id
        pressure := floatToInt (max 0 (min p.pressure 1) * 255)
        tiltX := if p.isStylus then tenths p.orientation else 0
        tiltY := if p.isStylus then tenths p.tilt else 0 } := by
  simp only [toEvent, coerceIn, if_neg (not_lt.mpr h.1), if_neg (not_lt.mpr h.2)]
  rfl

/-- A positive bound on the number is one on its `toInt`. -/
theorem floatToInt_lt_iff {v : ℚ} {n : Int} (hn : 0 < n ∧ n < 2 ^ 31) :
    floatToInt v < n ↔ v < n := by
  have h := @truncate_lt_iff v n hn.1
  rw [← h, floatToInt, truncate]
  omega

theorem abs_floatToInt_lt_iff {v : ℚ} {n : Int} (hn : 0 < n ∧ n < 2 ^ 31) :
    |floatToInt v| < n ↔ |v| < n := by
  have h := @abs_truncate_lt_iff v n hn.1
  rw [← h, floatToInt, truncate, abs_lt, abs_lt]
  omega

theorem floatToInt_nonneg {v : ℚ} (h : 0 ≤ v) : 0 ≤ floatToInt v := by
  have hnonneg := truncate_nonneg h
  rw [floatToInt]
  rw [truncate] at hnonneg
  omega

theorem floatToInt_mono {v w : ℚ} (h : v ≤ w) : floatToInt v ≤ floatToInt w := by
  have hmono := truncate_mono h
  rw [floatToInt, floatToInt]
  rw [truncate, truncate] at hmono
  omega

theorem scaled_bounds (v : ℚ) (view : Int) {side : Int} (h : 0 ≤ side) :
    0 ≤ scaled v view side ∧ scaled v view side ≤ side := by
  rw [scaled]
  omega

/-- **A coordinate is on the display side** exactly when it is before the view's edge. -/
theorem scaled_lt_iff (v : ℚ) (view : Int) {side : Int} (h : 0 < side ∧ side < 2 ^ 31) :
    scaled v view side < side ↔ v < viewSide view := by
  have hside : (0 : ℚ) < side := Int.cast_pos.mpr h.1
  have hlt : floatToInt (v / viewSide view * side) < side ↔ v < viewSide view := by
    rw [floatToInt_lt_iff h, mul_lt_iff_lt_one_left hside, div_lt_one (viewSide_pos view)]
  rw [← hlt, scaled]
  omega

/-- A stylus event is injected as a pen, or else as a touch. -/
theorem injectEvent_stylus (inj : InputInjector) (scr : VirtualScreen) {event : InputEvent}
    (h : StylusType event.type) :
    injectEvent inj scr event.struct =
      if inj.penOk = true then
        injectPen inj event.struct.x event.struct.y event.struct.type event.struct.pressure
          event.struct.tiltX event.struct.tiltY
      else
        injectTouch inj event.struct.x event.struct.y event.struct.type
          event.struct.pointerId.toUInt32 := by
  have htype : (event.struct.type = spInputStylusDown ∨ event.struct.type = spInputStylusMove ∨
      event.struct.type = spInputStylusUp) := by
    have hstruct : event.struct.type = .ofInt event.type := rfl
    rw [hstruct]
    rcases h with h | h | h <;> rw [h] <;> decide
  rw [injectEvent]
  generalize event.struct = e at htype
  have hmouse : ¬ (e.type = spInputDown ∨ e.type = spInputMove ∨ e.type = spInputUp) := by
    rcases htype with h | h | h <;> rw [h] <;> decide
  have hcancel : e.type ≠ spInputCancel := by
    rcases htype with h | h | h <;> rw [h] <;> decide
  rw [if_neg hmouse, if_pos (by tauto)]
  by_cases hpen : inj.penOk = true
  · rw [if_pos ⟨hpen, hcancel⟩, if_pos hpen]
  · rw [if_neg (fun h => hpen h.1), if_neg hpen, if_neg hpen]

/-! ## the pixel -/

/-- The pixel at which a touch or a pen is injected. -/
def Host.Injection.pixel : Injection → Option (Int × Int)
  | .mouse _ => none
  | .touch i => some (i.x, i.y)
  | .pen i => some (i.x, i.y)

/-- The pixel lies on the injector's monitor, of this size. -/
def OnMonitor (inj : InputInjector) (w h : Int) (px : Int × Int) : Prop :=
  (inj.offsetX ≤ px.1 ∧ px.1 < inj.offsetX + w) ∧ inj.offsetY ≤ px.2 ∧ px.2 < inj.offsetY + h

/-- A stylus event is injected at its pixel of the monitor. -/
theorem injectEvent_pixel (inj : InputInjector) (scr : VirtualScreen)
    (hdevice : inj.penOk = true ∨ inj.touchOk = true) {event : InputEvent}
    (h : StylusType event.type) (hx : 0 ≤ event.x ∧ event.x ≤ 65535)
    (hy : 0 ≤ event.y ∧ event.y ≤ 65535) :
    ∃ call, injectEvent inj scr event.struct = some call ∧
      call.pixel = some (inj.offsetX + event.x, inj.offsetY + event.y) := by
  have hshort : ∀ v : Int, 0 ≤ v ∧ v ≤ 65535 → ((UInt16.ofInt v).toNat : Int) = v := by
    intro v hv
    rw [toNat_uint16_ofInt, maskBytes]
    omega
  rw [injectEvent_stylus inj scr h]
  by_cases hpen : inj.penOk = true
  · rw [if_pos hpen, injectPen, if_neg (by simp [hpen])]
    refine ⟨_, rfl, ?_⟩
    simp only [Injection.pixel, InputEvent.struct, hshort _ hx, hshort _ hy]
  · rw [if_neg hpen, injectTouch, if_neg (by simp [hdevice.resolve_left hpen])]
    refine ⟨_, rfl, ?_⟩
    simp only [Injection.pixel, InputEvent.struct, hshort _ hx, hshort _ hy]

/-- **Which positions are injected inside the monitor**: those before the right and the
bottom edge of the view. -/
theorem pixel_inside_iff (inj : InputInjector) (scr : VirtualScreen)
    (hdevice : inj.penOk = true ∨ inj.touchOk = true) (w h : UInt16) (hw : 0 < w) (hh : 0 < h)
    (view : Int × Int) (p : Pointer) (type : Int) (htype : StylusType type) :
    ∃ event call px, toEvent ((w.toNat : Int), (h.toNat : Int)) view p type = .ok event ∧
      injectEvent inj scr event.struct = some call ∧ call.pixel = some px ∧
      (OnMonitor inj w.toNat h.toNat px ↔ p.x < viewSide view.1 ∧ p.y < viewSide view.2) := by
  have hw' : 0 < w.toNat := hw
  have hh' : 0 < h.toNat := hh
  have hwlt := w.toNat_lt
  have hhlt := h.toNat_lt
  have hx := @scaled_bounds p.x view.1 w.toNat (by omega)
  have hy := @scaled_bounds p.y view.2 h.toNat (by omega)
  have hxiff := @scaled_lt_iff p.x view.1 w.toNat (by omega)
  have hyiff := @scaled_lt_iff p.y view.2 h.toNat (by omega)
  obtain ⟨event, hevent, hex, hey, het⟩ : ∃ event,
      toEvent ((w.toNat : Int), (h.toNat : Int)) view p type = .ok event ∧
        event.x = scaled p.x view.1 w.toNat ∧ event.y = scaled p.y view.2 h.toNat ∧
        event.type = type :=
    ⟨_, toEvent_eq ⟨Int.natCast_nonneg _, Int.natCast_nonneg _⟩ view p type, rfl, rfl, rfl⟩
  obtain ⟨call, hcall, hpx⟩ :=
    injectEvent_pixel inj scr hdevice (het ▸ htype) (by omega) (by omega)
  refine ⟨event, call, _, hevent, hcall, hpx, ?_⟩
  rw [← hxiff, ← hyiff, OnMonitor, hex, hey]
  simp only
  omega

/-- A display of 1920x1080 on a view of the same size. -/
theorem pixel_inside_iff_centre : ∃ event call px,
    toEvent (((1920 : UInt16).toNat : Int), ((1080 : UInt16).toNat : Int)) (1920, 1080)
        ⟨0, .stylus, 960, 540, 1, 0, 0⟩ inStylusDown = .ok event ∧
      injectEvent ⟨0, 0, true, true⟩ ⟨0, 0, 3840, 1080⟩ event.struct = some call ∧
      call.pixel = some px ∧
      (OnMonitor ⟨0, 0, true, true⟩ (1920 : UInt16).toNat (1080 : UInt16).toNat px ↔
        (960 : ℚ) < viewSide 1920 ∧ (540 : ℚ) < viewSide 1080) :=
  pixel_inside_iff ⟨0, 0, true, true⟩ ⟨0, 0, 3840, 1080⟩ (.inl rfl) 1920 1080 (by decide)
    (by decide) (1920, 1080) ⟨0, .stylus, 960, 540, 1, 0, 0⟩ inStylusDown (.inl rfl)

/-- At the right edge of the view the pen goes down on the monitor next to it. -/
theorem edge_not_inside : ∃ event call,
    toEvent (1920, 1080) (1920, 1080) ⟨0, .stylus, 1920, 540, 1, 0, 0⟩ inStylusDown = .ok event ∧
      injectEvent ⟨0, 0, true, true⟩ ⟨0, 0, 3840, 1080⟩ event.struct = some call ∧
      call.pixel = some (1920, 540) ∧ ¬ OnMonitor ⟨0, 0, true, true⟩ 1920 1080 (1920, 540) := by
  refine ⟨⟨1920, 540, 3, 0, 0, 255, 0, 0⟩, _, by decide +kernel, rfl, rfl, ?_⟩
  simp [OnMonitor]

/-! ## the pen -/

/-- The pen that an event is injected as. -/
def penOf (inj : InputInjector) (scr : VirtualScreen) (display view : Int × Int) (p : Pointer)
    (type : Int) : Option PenInfo :=
  match toEvent display view p type with
  | .error _ => none
  | .ok event =>
      match injectEvent inj scr event.struct with
      | some (.pen i) => some i
      | _ => none

/-- A sample of a stylus, with the angles in the ranges of their axes. -/
structure StylusSample (p : Pointer) : Prop where
  stylus : p.isStylus = true
  orientation : |(p.orientation : ℝ)| ≤ Real.pi
  tilt : 0 ≤ p.tilt ∧ (p.tilt : ℝ) ≤ Real.pi / 2

/-- The documented ranges of `POINTER_PEN_INFO`. -/
structure Host.PenInfo.InApiRange (i : PenInfo) : Prop where
  pressure : i.pressure ≤ 1024
  tiltX : -90 ≤ i.tiltX ∧ i.tiltX ≤ 90
  tiltY : -90 ≤ i.tiltY ∧ i.tiltY ≤ 90

/-- The pressure as `InjectPen` scales it. -/
def penPressure (v : ℚ) : UInt32 :=
  (UInt8.ofInt (floatToInt (max 0 (min v 1) * 255))).toUInt32 * 1024 / 255

theorem pressure_bounds (v : ℚ) : 0 ≤ floatToInt (max 0 (min v 1) * 255) ∧
    floatToInt (max 0 (min v 1) * 255) < 256 := by
  have h1 : max 0 (min v 1) ≤ 1 := max_le zero_le_one (min_le_right v 1)
  constructor
  · exact floatToInt_nonneg (by positivity)
  · rw [floatToInt_lt_iff (by omega)]
    push_cast
    linarith

theorem toNat_penPressure (v : ℚ) :
    (penPressure v).toNat = (floatToInt (max 0 (min v 1) * 255)).toNat * 1024 / 255 := by
  obtain ⟨h0, h256⟩ := pressure_bounds v
  rw [penPressure]
  generalize floatToInt (max 0 (min v 1) * 255) = k at h0 h256 ⊢
  have hk : (UInt8.ofInt k).toNat = k.toNat := by
    rw [toNat_uint8_ofInt, maskBytes]
    omega
  rw [UInt32.toNat_div, UInt32.toNat_mul, UInt8.toNat_toUInt32, hk]
  show k.toNat * 1024 % 2 ^ 32 / 255 = _
  rw [Nat.mod_eq_of_lt (by omega)]

theorem penPressure_le (v : ℚ) : penPressure v ≤ 1024 := by
  obtain ⟨h0, h256⟩ := pressure_bounds v
  rw [UInt32.le_iff_toNat_le, toNat_penPressure]
  show _ ≤ 1024
  omega

theorem penPressure_mono {v w : ℚ} (h : v ≤ w) : penPressure v ≤ penPressure w := by
  have hclamp : max 0 (min v 1) * 255 ≤ max 0 (min w 1) * 255 := by gcongr
  have hmono := floatToInt_mono hclamp
  rw [UInt32.le_iff_toNat_le, toNat_penPressure, toNat_penPressure]
  omega

/-- Angles within a bound stay within tenths of a degree. -/
theorem abs_tenths_lt_iff {v : ℚ} {n : Int} (hn : 0 < n ∧ n < 2 ^ 31) :
    |tenths v| < n ↔ |v * (5729578 / 10000)| < n := abs_floatToInt_lt_iff hn

/-- An angle of at most a half turn. -/
theorem abs_tenths_of_le_pi {v : ℚ} (h : |(v : ℝ)| ≤ Real.pi) : |tenths v| < 1801 := by
  have hpi := Real.pi_lt_d6
  have hv : |v| < 3.141593 := by
    have hreal : ((|v| : ℚ) : ℝ) < ((3.141593 : ℚ) : ℝ) := by
      push_cast
      linarith
    exact_mod_cast hreal
  have hfactor : |(5729578 / 10000 : ℚ)| = 5729578 / 10000 := abs_of_nonneg (by norm_num)
  rw [abs_tenths_lt_iff (by omega), abs_mul, hfactor]
  push_cast
  linarith

/-- An angle of at most a quarter turn. -/
theorem abs_tenths_of_le_half_pi {v : ℚ} (h0 : 0 ≤ v) (h : (v : ℝ) ≤ Real.pi / 2) :
    |tenths v| < 901 := by
  have hpi := Real.pi_lt_d6
  have hv : v < 1.5707965 := by
    have hreal : (v : ℝ) < ((1.5707965 : ℚ) : ℝ) := by
      push_cast
      linarith
    exact_mod_cast hreal
  rw [abs_tenths_lt_iff (by omega), abs_of_nonneg (by positivity)]
  push_cast
  linarith

/-- The event that a stylus sample becomes. -/
def stylusEvent (display view : Int × Int) (p : Pointer) (type : Int) : InputEvent where
  x := scaled p.x view.1 display.1
  y := scaled p.y view.2 display.2
  type := type
  buttons := 0
  pointerId := p.id
  pressure := floatToInt (max 0 (min p.pressure 1) * 255)
  tiltX := tenths p.orientation
  tiltY := tenths p.tilt

/-- A pointer id beyond a byte is cut off. -/
theorem uint8_ofInt_toNat (v : Int) :
    UInt8.ofInt ((UInt8.ofInt v).toNat : Int) = UInt8.ofInt v := by
  apply UInt8.toNat_inj.mp
  have h := toNat_uint8_ofInt v
  rw [toNat_uint8_ofInt, maskBytes, h, maskBytes]
  omega

/-- **Nothing else of a sample is cut off on the wire.** -/
theorem ofStruct_stylusEvent (w h : UInt16) (view : Int × Int) {p : Pointer}
    (hp : StylusSample p) {type : Int} (htype : StylusType type) :
    InputEvent.ofStruct (stylusEvent (w.toNat, h.toNat) view p type).struct =
      { stylusEvent (w.toNat, h.toNat) view p type with
        pointerId := (UInt8.ofInt p.id).toNat } := by
  have hx := @scaled_bounds p.x view.1 w.toNat (by omega)
  have hy := @scaled_bounds p.y view.2 h.toNat (by omega)
  have hw := w.toNat_lt
  have hh := h.toNat_lt
  have hpressure := pressure_bounds p.pressure
  have hid := (UInt8.ofInt p.id).toNat_lt
  have ho := abs_lt.mp (abs_tenths_of_le_pi hp.orientation)
  have ht := abs_lt.mp (abs_tenths_of_le_half_pi hp.tilt.1 hp.tilt.2)
  have htypes : 0 ≤ type ∧ type ≤ 255 := by
    rcases htype with rfl | rfl | rfl <;> decide
  have hrange : InputEvent.InRange
      { stylusEvent (w.toNat, h.toNat) view p type with
        pointerId := (UInt8.ofInt p.id).toNat } := by
    constructor <;> simp only [stylusEvent] <;> omega
  have hstruct : (stylusEvent (w.toNat, h.toNat) view p type).struct = InputEvent.struct
      { stylusEvent (w.toNat, h.toNat) view p type with
        pointerId := (UInt8.ofInt p.id).toNat } := by
    simp only [InputEvent.struct, uint8_ofInt_toNat]
    rfl
  rw [hstruct, InputEvent.ofStruct_struct hrange]

theorem toEvent_stylus (w h : UInt16) (view : Int × Int) {p : Pointer} (hp : p.isStylus = true)
    (type : Int) : toEvent (w.toNat, h.toNat) view p type =
      .ok (stylusEvent (w.toNat, h.toNat) view p type) := by
  rw [toEvent_eq ⟨Int.natCast_nonneg _, Int.natCast_nonneg _⟩, if_pos hp, if_pos hp]
  rfl

/-- The pen of a stylus sample. -/
theorem penOf_eq {inj : InputInjector} (hpen : inj.penOk = true) (scr : VirtualScreen)
    (w h : UInt16) (view : Int × Int) {p : Pointer} (hp : StylusSample p) {type : Int}
    (htype : StylusType type) :
    penOf inj scr (w.toNat, h.toNat) view p type = some
      { pointerFlags := penFlagsForType (UInt8.ofInt type)
        x := inj.offsetX + scaled p.x view.1 w.toNat
        y := inj.offsetY + scaled p.y view.2 h.toNat
        pressure := penPressure p.pressure
        tiltX := (tenths p.orientation).tdiv 10
        tiltY := (tenths p.tilt).tdiv 10 } := by
  have hstruct := ofStruct_stylusEvent w h view hp htype
  rw [InputEvent.ofStruct, InputEvent.mk.injEq] at hstruct
  obtain ⟨hx, hy, -, -, -, -, htiltX, htiltY⟩ := hstruct
  have hevent : StylusType (stylusEvent (w.toNat, h.toNat) view p type).type := htype
  rw [penOf, toEvent_stylus w h view hp.stylus]
  simp only [injectEvent_stylus inj scr hevent, if_pos hpen]
  rw [injectPen, if_neg (by simp [hpen])]
  simp only [hx, hy, htiltX, htiltY]
  rfl

/-- Tenths of a degree that are a quarter turn in degrees. -/
theorem tdiv_ten_iff (k : Int) : -90 ≤ k.tdiv 10 ∧ k.tdiv 10 ≤ 90 ↔ |k| < 910 := by
  rw [abs_lt]
  rcases le_total 0 k with hk | hk
  · rw [Int.tdiv_eq_ediv_of_nonneg hk]
    omega
  · have hneg := Int.neg_tdiv (-k) 10
    rw [neg_neg, Int.tdiv_eq_ediv_of_nonneg (neg_nonneg.mpr hk)] at hneg
    omega

theorem degrees_iff (v : ℚ) : -90 ≤ (tenths v).tdiv 10 ∧ (tenths v).tdiv 10 ≤ 90 ↔
    |v * (5729578 / 10000)| < 910 := by
  have h := @abs_tenths_lt_iff v 910 (by omega)
  push_cast at h
  rw [← h, tdiv_ten_iff]

/-- The pen of this sample is right: nothing is cut off on the wire, its values are in the
range of the API, and no lighter sample presses harder. -/
structure PenRight (inj : InputInjector) (scr : VirtualScreen) (w h : UInt16) (view : Int × Int)
    (type : Int) (p : Pointer) : Prop where
  wire : ∃ event, toEvent (w.toNat, h.toNat) view p type = .ok event ∧
    InputEvent.ofStruct event.struct = { event with pointerId := (UInt8.ofInt p.id).toNat }
  range : ∃ i, penOf inj scr (w.toNat, h.toNat) view p type = some i ∧ i.InApiRange
  pressure : ∀ q, StylusSample q → q.pressure ≤ p.pressure →
    ∀ i j, penOf inj scr (w.toNat, h.toNat) view q type = some i →
      penOf inj scr (w.toNat, h.toNat) view p type = some j → i.pressure ≤ j.pressure

/-- **For which samples the pen is right**: those with an orientation of less than 91
degrees to either side. -/
theorem penRight_iff (inj : InputInjector) (hpen : inj.penOk = true) (scr : VirtualScreen)
    (w h : UInt16) (view : Int × Int) (type : Int) (htype : StylusType type) (p : Pointer)
    (hp : StylusSample p) :
    PenRight inj scr w h view type p ↔ |p.orientation * (5729578 / 10000)| < 910 := by
  have hpenOf := fun q hq => @penOf_eq inj hpen scr w h view q hq type htype
  rw [← degrees_iff]
  constructor
  · intro hright
    obtain ⟨i, hi, hrange⟩ := hright.range
    rw [hpenOf p hp] at hi
    cases hi
    exact hrange.tiltX
  · intro horientation
    constructor
    · exact ⟨_, toEvent_stylus w h view hp.stylus type, ofStruct_stylusEvent w h view hp htype⟩
    · have ht := abs_tenths_of_le_half_pi hp.tilt.1 hp.tilt.2
      exact ⟨_, hpenOf p hp, penPressure_le p.pressure, horientation,
        (tdiv_ten_iff _).mpr (ht.trans (by decide))⟩
    · intro q hq hle i j hi hj
      rw [hpenOf q hq] at hi
      rw [hpenOf p hp] at hj
      cases hi
      cases hj
      exact penPressure_mono hle

/-- A stylus in the middle of the screen, at this orientation. -/
def stylusAt (orientation : ℚ) : Pointer := ⟨0, .stylus, 960, 540, 1 / 2, orientation, 1 / 2⟩

theorem stylusAt_sample {orientation : ℚ} (h : |orientation| ≤ 3) :
    StylusSample (stylusAt orientation) := by
  have hpi := Real.pi_gt_three
  have hreal : ((|orientation| : ℚ) : ℝ) ≤ ((3 : ℚ) : ℝ) := by exact_mod_cast h
  push_cast at hreal
  refine ⟨rfl, hreal.trans hpi.le, by norm_num [stylusAt], ?_⟩
  simp only [stylusAt]
  push_cast
  linarith

theorem penRight_iff_upright :
    PenRight ⟨0, 0, true, true⟩ ⟨0, 0, 1920, 1080⟩ 1920 1080 (1920, 1080) inStylusDown
        (stylusAt 0) ↔
      |(0 : ℚ) * (5729578 / 10000)| < 910 :=
  penRight_iff ⟨0, 0, true, true⟩ rfl ⟨0, 0, 1920, 1080⟩ 1920 1080 (1920, 1080) inStylusDown
    (.inl rfl) (stylusAt 0) (stylusAt_sample (by norm_num))

/-- Pointed down the screen, a stylus has a tilt of 171 degrees. -/
theorem penRight_fails :
    StylusSample (stylusAt 3) ∧
      ¬ PenRight ⟨0, 0, true, true⟩ ⟨0, 0, 1920, 1080⟩ 1920 1080 (1920, 1080) inStylusDown
        (stylusAt 3) := by
  refine ⟨stylusAt_sample (by norm_num), fun h => ?_⟩
  obtain ⟨i, hi, hrange⟩ := h.range
  rw [penOf_eq rfl _ _ _ _ (stylusAt_sample (by norm_num)) (.inl rfl)] at hi
  cases hi
  have htilt : (tenths (stylusAt 3).orientation).tdiv 10 = 171 := by decide +kernel
  have hle := hrange.tiltX.2
  simp only [htilt] at hle
  contradiction

end TwinScreen
