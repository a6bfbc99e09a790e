import Mathlib.Algebra.Ring.Int.Defs
import TwinScreen.Host.Capture

/-!
# TwinScreen.Host.Region

The region that `Capture` copies: the monitor as it was at `Start`, whatever the size of
the surface that it gets.

* `inSurface_iff` — when one frame's box lies on its surface.
* `copies_iff_covered` — in which runs every frame's does.
-/

namespace TwinScreen.Host

open Lib

/-- A monitor has pixels. -/
structure Rect.NonEmpty (r : Rect) : Prop where
  width : r.left < r.right
  height : r.top < r.bottom

/-- The geometry of a monitor. -/
structure ScreenCapture.Keeps (cap : ScreenCapture) (r : Rect) : Prop where
  width : cap.width = (r.right - r.left).toUInt32
  height : cap.height = (r.bottom - r.top).toUInt32
  offsetX : cap.offsetX = r.left
  offsetY : cap.offsetY = r.top

/-! ## one side of the box -/

/-- A negative number wraps around when it is cast. -/
theorem toNat_toUInt32 (a : Int32) : (a.toUInt32.toNat : Int) = a.toInt % 2 ^ 32 := by
  have hlt := a.toBitVec.isLt
  show (a.toBitVec.toNat : Int) = a.toBitVec.toInt % 2 ^ 32
  rw [BitVec.toInt_eq_toNat_cond]
  split <;> omega

/-- The side of a monitor. -/
theorem toNat_side {a b : Int32} (h : a < b) :
    ((b - a).toUInt32.toNat : Int) = b.toInt - a.toInt := by
  have ha := a.toInt_lt
  have hb := b.toInt_lt
  have ha' := a.le_toInt
  have hb' := b.le_toInt
  rw [Int32.lt_iff_toInt_lt] at h
  have hmod : (b.toInt - a.toInt).bmod (2 ^ 32) % 2 ^ 32 = (b.toInt - a.toInt) % 2 ^ 32 :=
    Int.bmod_emod
  rw [toNat_toUInt32, Int32.toInt_sub, hmod]
  omega

/-- One side of a box, cast and added, lies on a surface of this side, as it is. -/
def SideFits (offset : Int32) (side surface : UInt32) : Prop :=
  ((offset.toUInt32.toNat : Int) = offset.toInt ∧
    ((offset.toUInt32 + side).toNat : Int) = offset.toInt + side.toNat) ∧
  offset.toUInt32 < offset.toUInt32 + side ∧ offset.toUInt32 + side ≤ surface

/-- **A side fits** when it does not start before the surface, nor end behind it. -/
theorem sideFits_iff {a b : Int32} (h : a < b) (surface : UInt32) :
    SideFits a (b - a).toUInt32 surface ↔ 0 ≤ a ∧ b.toInt ≤ surface.toNat := by
  have hside := toNat_side h
  have ha := a.toInt_lt
  have hb := b.toInt_lt
  have ha' := a.le_toInt
  have hoffset := toNat_toUInt32 a
  rw [Int32.lt_iff_toInt_lt] at h
  rw [SideFits, UInt32.lt_iff_toNat_lt, UInt32.le_iff_toNat_le, UInt32.toNat_add,
    Int32.le_iff_toInt_le]
  have hzero : (0 : Int32).toInt = 0 := rfl
  omega

/-! ## one frame -/

/-- The box lies on a surface of this size, computed without a wrap-around, and its region
fits the texture. -/
structure InSurface (cap : ScreenCapture) (w h : UInt32) (box : Box) (texture : UInt32 × UInt32) :
    Prop where
  left : (box.left.toNat : Int) = cap.offsetX.toInt
  top : (box.top.toNat : Int) = cap.offsetY.toInt
  right : (box.right.toNat : Int) = cap.offsetX.toInt + cap.width.toNat
  bottom : (box.bottom.toNat : Int) = cap.offsetY.toInt + cap.height.toNat
  horizontal : box.left < box.right ∧ box.right ≤ w
  vertical : box.top < box.bottom ∧ box.bottom ≤ h
  fits : box.right - box.left ≤ texture.1 ∧ box.bottom - box.top ≤ texture.2

/-- The monitor's place is on a surface of this size, and its size in the texture. -/
structure Covers (cap : ScreenCapture) (w h : UInt32) (texture : UInt32 × UInt32) : Prop where
  x : 0 ≤ cap.offsetX ∧ cap.offsetX.toInt + cap.width.toNat ≤ w.toNat
  y : 0 ≤ cap.offsetY ∧ cap.offsetY.toInt + cap.height.toNat ≤ h.toNat
  fits : cap.width ≤ texture.1 ∧ cap.height ≤ texture.2

/-- **When a box lies on its surface.** -/
theorem inSurface_iff {cap : ScreenCapture} {r : Rect} (hr : r.NonEmpty) (hcap : cap.Keeps r)
    (w h : UInt32) (texture : UInt32 × UInt32) :
    InSurface cap w h cap.box texture ↔ Covers cap w h texture := by
  have hx := sideFits_iff hr.width w
  have hy := sideFits_iff hr.height h
  have hw := toNat_side hr.width
  have hh := toNat_side hr.height
  rw [← hcap.width] at hx hw
  rw [← hcap.height] at hy hh
  rw [← hcap.offsetX] at hx hw
  rw [← hcap.offsetY] at hy hh
  rw [SideFits] at hx hy
  have hsub (a b : UInt32) : a + b - a = b := by
    rw [UInt32.add_comm, UInt32.add_sub_cancel]
  constructor
  · intro hin
    have hfits := hin.fits
    rw [ScreenCapture.box] at hfits
    simp only [hsub] at hfits
    have hx' := hx.mp ⟨⟨hin.left, hin.right⟩, hin.horizontal⟩
    have hy' := hy.mp ⟨⟨hin.top, hin.bottom⟩, hin.vertical⟩
    exact ⟨⟨hx'.1, by omega⟩, ⟨hy'.1, by omega⟩, hfits⟩
  · intro hcovers
    obtain ⟨⟨hleft, hright⟩, hhorizontal⟩ := hx.mpr ⟨hcovers.x.1, by have := hcovers.x.2; omega⟩
    obtain ⟨⟨htop, hbottom⟩, hvertical⟩ := hy.mpr ⟨hcovers.y.1, by have := hcovers.y.2; omega⟩
    refine ⟨hleft, htop, hright, hbottom, hhorizontal, hvertical, ?_⟩
    rw [ScreenCapture.box]
    simp only [hsub]
    exact hcovers.fits

/-! ## all frames -/

/-- `Capture` gets as far as the copy. -/
def CopiesFrame (cap : ScreenCapture) (env : CaptureEnv) : Prop :=
  (cap.running = true ∧ cap.dup = true) ∧ (cap.copy ≠ none ∨ env.createTexture = true)

/-- The texture of the copy. -/
def ScreenCapture.texture (cap : ScreenCapture) : UInt32 × UInt32 :=
  cap.copy.getD (cap.width, cap.height)

/-- What `Capture` does with a frame. -/
theorem mem_capture_frame {cap : ScreenCapture} {env : CaptureEnv} {w h : UInt32}
    (hframe : env.acquire = .frame w h) {box : Box} {texture : UInt32 × UInt32} :
    .frame box texture ∈ (cap.capture env).2 ↔
      CopiesFrame cap env ∧ box = cap.box ∧ texture = cap.texture := by
  rw [ScreenCapture.capture, CopiesFrame, ScreenCapture.texture]
  by_cases hoff : cap.running = false ∨ cap.dup = false
  · rw [if_pos hoff]
    grind
  · rw [if_neg hoff, hframe]
    cases hcopy : cap.copy with
    | some kept => simp at hoff; simp [hoff]
    | none =>
        cases henv : env.createTexture with
        | false => simp
        | true => simp at hoff; simp [hoff]

/-- Every frame's box lies on the surface it is copied from. -/
def CopiesRight (cap : ScreenCapture) : CaptureCall → Prop
  | .capture env => ∀ w h, env.acquire = .frame w h → ∀ box texture,
      .frame box texture ∈ (cap.capture env).2 → InSurface cap w h box texture
  | _ => True

/-- Every surface that is copied from covers the monitor's place, and every texture that is
kept its size. -/
def Covered (cap : ScreenCapture) : CaptureCall → Prop
  | .capture env => ∀ w h, env.acquire = .frame w h → CopiesFrame cap env →
      Covers cap w h cap.texture
  | _ => True

/-- An output that is found has pixels. -/
def FindsPixels : CaptureCall → Prop
  | .start env => ∀ r, env.found = some r → r.NonEmpty
  | _ => True

/-- A running capture keeps the geometry of a monitor. -/
structure ScreenCapture.Geometry (cap : ScreenCapture) : Prop where
  output : ∀ r, cap.output = some r → r.NonEmpty
  keeps : cap.running = true → ∃ r : Rect, r.NonEmpty ∧ cap.Keeps r

/-- What `Start` does to the geometry: it is kept, or it is that of the output. -/
theorem start_cases (cap : ScreenCapture) (env : StartEnv) :
    ((cap.start env).2.output = cap.output ∨
        (cap.start env).2.output = env.found.or cap.output) ∧
      ((cap.start env).2.running = cap.running ∧
          (∀ r, cap.Keeps r → (cap.start env).2.Keeps r) ∨
        ∃ od, env.found.or cap.output = some od ∧ (cap.start env).2.Keeps od) := by
  have hkept (r : Rect) (h : cap.Keeps r) (c : ScreenCapture) (hw : c.width = cap.width)
      (hh : c.height = cap.height) (hx : c.offsetX = cap.offsetX)
      (hy : c.offsetY = cap.offsetY) : c.Keeps r :=
    ⟨hw.trans h.width, hh.trans h.height, hx.trans h.offsetX, hy.trans h.offsetY⟩
  unfold ScreenCapture.start
  split
  · exact ⟨.inl rfl, .inl ⟨rfl, fun _ h => h⟩⟩
  · cases hout : env.found.or cap.output with
    | none => exact ⟨.inr rfl, .inl ⟨rfl, fun r h => hkept r h _ rfl rfl rfl rfl⟩⟩
    | some od =>
        dsimp only
        split
        · exact ⟨.inr rfl, .inl ⟨rfl, fun r h => hkept r h _ rfl rfl rfl rfl⟩⟩
        · split
          · exact ⟨.inr rfl, .inl ⟨rfl, fun r h => hkept r h _ rfl rfl rfl rfl⟩⟩
          · exact ⟨.inr rfl, .inr ⟨od, rfl, rfl, rfl, rfl, rfl⟩⟩

/-- `Capture` changes nothing of the geometry. -/
theorem capture_keeps (cap : ScreenCapture) (env : CaptureEnv) {r : Rect} (h : cap.Keeps r) :
    (cap.capture env).1.Keeps r := by
  obtain ⟨hw, hh, hx, hy⟩ := h
  unfold ScreenCapture.capture
  split
  · exact ⟨hw, hh, hx, hy⟩
  · cases env.acquire with
    | timeout | failed => exact ⟨hw, hh, hx, hy⟩
    | accessLost =>
        dsimp only
        split
        · exact ⟨hw, hh, hx, hy⟩
        · split <;> exact ⟨hw, hh, hx, hy⟩
    | frame w h =>
        cases cap.copy with
        | some texture => exact ⟨hw, hh, hx, hy⟩
        | none =>
            dsimp only
            split <;> exact ⟨hw, hh, hx, hy⟩

/-- **Every call keeps the geometry of a monitor.** -/
theorem geometry_step {cap cap' : ScreenCapture} {call : CaptureCall} {o : List CaptureEvent}
    (hcap : cap.Geometry) (hcall : FindsPixels call)
    (hstep : captureMachine.step cap call = some (cap', o)) : cap'.Geometry := by
  cases call with
  | start env =>
      have hfound : ∀ r, env.found.or cap.output = some r → r.NonEmpty := by
        intro r hr
        rcases Option.or_eq_some_iff.mp hr with hr | ⟨-, hr⟩
        · exact hcall r hr
        · exact hcap.output r hr
      obtain ⟨hout, hgeo⟩ := start_cases cap env
      cases hstep
      constructor
      · intro r hr
        rcases hout with hout | hout
        · exact hcap.output r (hout ▸ hr)
        · exact hfound r (hout ▸ hr)
      · intro hrun
        rcases hgeo with ⟨hrunning, hkeeps⟩ | ⟨od, hod, hkeeps⟩
        · obtain ⟨r, hr, hcapr⟩ := hcap.keeps (hrunning ▸ hrun)
          exact ⟨r, hr, hkeeps r hcapr⟩
        · exact ⟨od, hfound od hod, hkeeps⟩
  | stop =>
      cases hstep
      exact ⟨nofun, nofun⟩
  | capture env =>
      obtain ⟨hrunning, houtput⟩ := capture_frame cap env
      have hcap' : (cap.capture env).1 = cap' := congrArg Prod.fst (Option.some.inj hstep)
      rw [← hcap']
      constructor
      · intro r hr
        exact hcap.output r (houtput ▸ hr)
      · intro hrun
        obtain ⟨r, hr, hcapr⟩ := hcap.keeps (hrunning ▸ hrun)
        exact ⟨r, hr, capture_keeps cap env hcapr⟩

/-- One call, in a state with the geometry of a monitor. -/
theorem copiesRight_iff {cap : ScreenCapture} (hcap : cap.Geometry) (call : CaptureCall) :
    CopiesRight cap call ↔ Covered cap call := by
  cases call with
  | start env | stop => exact Iff.rfl
  | capture env =>
      simp only [CopiesRight, Covered]
      refine forall_congr' fun w => forall_congr' fun h => forall_congr' fun hframe => ?_
      simp only [mem_capture_frame hframe]
      constructor
      · intro hright hcopies
        obtain ⟨r, hr, hkeeps⟩ := hcap.keeps hcopies.1.1
        exact (inSurface_iff hr hkeeps w h _).mp (hright _ _ ⟨hcopies, rfl, rfl⟩)
      · rintro hcovered box texture ⟨hcopies, rfl, rfl⟩
        obtain ⟨r, hr, hkeeps⟩ := hcap.keeps hcopies.1.1
        exact (inSurface_iff hr hkeeps w h _).mpr (hcovered hcopies)

/-- **In which runs every box lies on its surface**: those whose surfaces all cover the place
the monitor had at `Start`, which does not lie left of or above the origin. -/
theorem copies_iff_covered (calls : List CaptureCall) (h : ∀ call ∈ calls, FindsPixels call) :
    captureMachine.Along CopiesRight {} calls ↔ captureMachine.Along Covered {} calls := by
  have hinit : ({} : ScreenCapture).Geometry := ⟨nofun, nofun⟩
  exact captureMachine.along_iff_along (fun cap call hcap _ => copiesRight_iff hcap call)
    (fun cap call cap' o hcap hcall _ hstep => geometry_step hcap hcall hstep) hinit
    (captureMachine.along_of_forall h {})

/-- A monitor of 1920x1080 is captured, and then one frame. -/
def monitorStart : CaptureCall := .start ⟨true, some ⟨0, 0, 1920, 1080⟩, true, true⟩

def sameMode : List CaptureCall := [monitorStart, .capture ⟨.frame 1920 1080, 0, true, true⟩]

theorem monitorStart_findsPixels : FindsPixels monitorStart := by
  intro r hr
  cases hr
  constructor <;> decide

theorem copies_iff_covered_sameMode :
    captureMachine.Along CopiesRight {} sameMode ↔ captureMachine.Along Covered {} sameMode := by
  apply copies_iff_covered
  simp only [sameMode, List.forall_mem_cons]
  exact ⟨monitorStart_findsPixels, trivial, nofun⟩

/-- The mode changes to 1280x720, and the duplication is acquired again. -/
def modeChange : List CaptureCall :=
  [monitorStart, .capture ⟨.accessLost, 5000, true, true⟩,
    .capture ⟨.frame 1280 720, 6000, true, true⟩]

/-- The box is still that of 1920x1080. -/
theorem modeChange_copies_beyond :
    (∀ call ∈ modeChange, FindsPixels call) ∧ ¬ captureMachine.Along CopiesRight {} modeChange := by
  constructor
  · simp only [modeChange, List.forall_mem_cons]
    exact ⟨monitorStart_findsPixels, trivial, trivial, nofun⟩
  · intro h
    have hframe := ((h.2 _ _ rfl).2 _ _ rfl).1
    have hin := hframe 1280 720 rfl ⟨0, 0, 1920, 1080⟩ (1920, 1080) (by decide)
    exact absurd hin.horizontal.2 (by decide)

end TwinScreen.Host
