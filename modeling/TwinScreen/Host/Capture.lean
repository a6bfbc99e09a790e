import TwinScreen.Lib.Machine

/-!
# TwinScreen.Host.Capture

`host/src/capture/capture.cpp`: screen capture over desktop duplication, as a
machine whose inputs carry what DXGI, D3D and the tick counter answer.  A COM
pointer is represented by whether it is set, or by the size of its texture.

* `dup_capture_iff` — what a `Capture` call does to the duplication interface.
* `capture_stays_deaf` — once the interface is lost no later `Capture` call asks
  for it again, at whatever tick.
-/

namespace TwinScreen.Host

open Lib

/-- A rectangle of the desktop. -/
structure Rect where
  left : Int32
  top : Int32
  right : Int32
  bottom : Int32
  deriving DecidableEq

/-- The fields of `ScreenCapture`. -/
structure ScreenCapture where
  running : Bool := false
  device : Bool := false
  /-- `dup_` is set. -/
  dup : Bool := false
  /-- `output_`, with the rectangle its description reports. -/
  output : Option Rect := none
  /-- `copy_`, by its size. -/
  copy : Option (UInt32 × UInt32) := none
  /-- `next_reacquire_`. -/
  nextReacquire : UInt32 := 0
  width : UInt32 := 0
  height : UInt32 := 0
  offsetX : Int32 := 0
  offsetY : Int32 := 0
  deriving DecidableEq

/-! ## `Start` and `Stop` -/

/-- What the calls of `Start` return. -/
structure StartEnv where
  factory : Bool
  /-- The output that shows the monitor, if one is found. -/
  found : Option Rect
  createDevice : Bool
  duplicate : Bool
  deriving DecidableEq

namespace ScreenCapture

/-- `Start`; an output kept from an earlier call stands in for one not found. -/
def start (cap : ScreenCapture) (env : StartEnv) : Bool × ScreenCapture :=
  if env.factory = false then
    (false, cap)
  else
    let cap := { cap with output := env.found.or cap.output }
    match cap.output with
    | none => (false, cap)
    | some od =>
        if env.createDevice = false then
          (false, { cap with device := false })
        else
          let cap := { cap with device := true, dup := env.duplicate }
          if env.duplicate = false then
            (false, cap)
          else
            (true, { cap with
              width := (od.right - od.left).toUInt32
              height := (od.bottom - od.top).toUInt32
              offsetX := od.left
              offsetY := od.top
              running := true })

/-- `Stop`. -/
def stop (cap : ScreenCapture) : ScreenCapture :=
  { cap with running := false, dup := false, copy := none, output := none, device := false }

end ScreenCapture

/-! ## `Capture` -/

/-- The outcome of `AcquireNextFrame`; a frame comes with the surface's size. -/
inductive Acquire
  | timeout
  | accessLost
  | failed
  | frame (w h : UInt32)
  deriving DecidableEq

/-- What the calls of `Capture` return. -/
structure CaptureEnv where
  acquire : Acquire
  /-- `GetTickCount`. -/
  now : UInt32
  duplicate : Bool
  createTexture : Bool
  deriving DecidableEq

/-- A `D3D11_BOX`, less its depth. -/
structure Box where
  left : UInt32
  top : UInt32
  right : UInt32
  bottom : UInt32
  deriving DecidableEq

/-- What a `Capture` call does that is seen outside. -/
inductive CaptureEvent
  /-- A call of `DuplicateOutput`. -/
  | duplicateOutput
  /-- A frame: the box copied from the surface and the size of the texture. -/
  | frame (box : Box) (texture : UInt32 × UInt32)
  deriving DecidableEq

namespace ScreenCapture

/-- The region of the monitor on the surface. -/
def box (cap : ScreenCapture) : Box where
  left := cap.offsetX.toUInt32
  top := cap.offsetY.toUInt32
  right := cap.offsetX.toUInt32 + cap.width
  bottom := cap.offsetY.toUInt32 + cap.height

/-- `Capture`; it returns true when it puts out a frame. -/
def capture (cap : ScreenCapture) (env : CaptureEnv) : ScreenCapture × List CaptureEvent :=
  if cap.running = false ∨ cap.dup = false then
    (cap, [])
  else
    match env.acquire with
    | .timeout => (cap, [])
    | .failed => (cap, [])
    | .accessLost =>
        if cap.output = none then
          (cap, [])
        else
          let cap := { cap with dup := false }
          if cap.nextReacquire ≤ env.now then
            -- at most once per second
            ({ cap with dup := env.duplicate, nextReacquire := env.now + 1000 }, [.duplicateOutput])
          else
            (cap, [])
    | .frame _ _ =>
        match cap.copy with
        | some texture => (cap, [.frame cap.box texture])
        | none =>
            if env.createTexture = false then
              (cap, [])
            else
              let texture := (cap.width, cap.height)
              ({ cap with copy := some texture }, [.frame cap.box texture])

end ScreenCapture

/-- A call on a `ScreenCapture`. -/
inductive CaptureCall
  | start (env : StartEnv)
  | stop
  | capture (env : CaptureEnv)
  deriving DecidableEq

/-- The machine of all calls. -/
def captureMachine : Machine ScreenCapture CaptureCall CaptureEvent where
  step cap
    | .start env => some ((cap.start env).2, [])
    | .stop => some (cap.stop, [])
    | .capture env => some (cap.capture env)

/-! ## losing the duplication -/

/-- `Capture` changes neither whether the capture runs nor its output. -/
theorem capture_frame (cap : ScreenCapture) (env : CaptureEnv) :
    (cap.capture env).1.running = cap.running ∧ (cap.capture env).1.output = cap.output := by
  unfold ScreenCapture.capture
  split
  · exact ⟨rfl, rfl⟩
  · cases env.acquire with
    | timeout | failed => exact ⟨rfl, rfl⟩
    | accessLost =>
        dsimp only
        split
        · exact ⟨rfl, rfl⟩
        · split <;> exact ⟨rfl, rfl⟩
    | frame w h =>
        cases cap.copy with
        | some texture => exact ⟨rfl, rfl⟩
        | none =>
            dsimp only
            split <;> exact ⟨rfl, rfl⟩

/-- `Start` leaves an output wherever it leaves the capture running. -/
theorem start_output {cap : ScreenCapture} (h : cap.running = true → cap.output ≠ none)
    (env : StartEnv) (hrun : (cap.start env).2.running = true) : (cap.start env).2.output ≠ none := by
  unfold ScreenCapture.start at hrun ⊢
  split
  · rw [if_pos ‹_›] at hrun
    exact h hrun
  · rw [if_neg ‹_›] at hrun
    cases hout : env.found.or cap.output with
    | none =>
        have hnone : cap.output = none := (Option.or_eq_none_iff.mp hout).2
        simp only [hout] at hrun
        exact absurd hnone (h hrun)
    | some od =>
        dsimp only
        split
        · simp
        · split <;> simp

/-- A running capture has its output. -/
theorem output_of_running {is : List CaptureCall} {cap : ScreenCapture} {tr : List CaptureEvent}
    (hreach : captureMachine.run {} is = some (cap, tr)) (hrun : cap.running = true) :
    cap.output ≠ none := by
  have hinit : ({} : ScreenCapture).running = true → ({} : ScreenCapture).output ≠ none := by
    simp
  have hstep : ∀ c i c' o, (c.running = true → c.output ≠ none) →
      captureMachine.step c i = some (c', o) → c'.running = true → c'.output ≠ none := by
    intro c i c' o hc hstep
    cases i with
    | start env => cases hstep; exact start_output hc env
    | stop => cases hstep; exact fun hrun => nomatch hrun
    | capture env =>
        obtain ⟨hrunning, houtput⟩ := capture_frame c env
        have hc' : (c.capture env).1 = c' := congrArg Prod.fst (Option.some.inj hstep)
        rw [← hc', hrunning, houtput]
        exact hc
  exact captureMachine.state_invariant hstep hinit hreach hrun

/-- **What a call does to the duplication**: while capturing, it is lost exactly on
an access loss that comes too early to re-acquire, or whose attempt fails. -/
theorem dup_capture_iff {is : List CaptureCall} {cap : ScreenCapture} {tr : List CaptureEvent}
    (hreach : captureMachine.run {} is = some (cap, tr)) (hrun : cap.running = true)
    (hdup : cap.dup = true) (env : CaptureEnv) :
    (cap.capture env).1.dup = false ↔
      env.acquire = .accessLost ∧ (env.now < cap.nextReacquire ∨ env.duplicate = false) := by
  have hout := output_of_running hreach hrun
  unfold ScreenCapture.capture
  simp only [hrun, hdup, Bool.true_eq_false, or_self, if_false]
  cases env.acquire with
  | timeout | failed => simp [hdup]
  | accessLost =>
      simp only [hout, if_false, true_and]
      by_cases hnow : cap.nextReacquire ≤ env.now
      · simp [hnow, UInt32.not_lt.mpr hnow]
      · simp [hnow, UInt32.not_le.mp hnow]
  | frame w h =>
      cases cap.copy with
      | some texture => simp [hdup]
      | none =>
          dsimp only
          split <;> simp [hdup]

/-- Without the duplication a call does nothing. -/
theorem capture_of_dup_false {cap : ScreenCapture} (h : cap.dup = false) (env : CaptureEnv) :
    cap.capture env = (cap, []) := by
  rw [ScreenCapture.capture, if_pos (.inr h)]

/-- **Deaf for good.**  Wherever the duplication is lost, running or not, no `Capture` call
asks for it again, at any tick; and no sequence of them does, nor returns a frame. -/
theorem capture_stays_deaf {cap : ScreenCapture} (hlost : cap.dup = false) :
    (∀ env, .duplicateOutput ∉ (cap.capture env).2) ∧
      ∀ envs : List CaptureEnv, captureMachine.run cap (envs.map .capture) = some (cap, []) := by
  constructor
  · intro env
    rw [capture_of_dup_false hlost env]
    exact List.not_mem_nil
  · intro envs
    induction envs with
    | nil => rfl
    | cons env envs ih =>
        have hstep : captureMachine.step cap (.capture env) = some (cap, []) :=
          congrArg some (capture_of_dup_false hlost env)
        simp [Machine.run, hstep, ih]

/-- A start, and an access loss at tick 0 whose re-acquire fails (a locked desktop). -/
def lockedDesktop : List CaptureCall :=
  [.start ⟨true, some ⟨0, 0, 1920, 1080⟩, true, true⟩, .capture ⟨.accessLost, 0, false, true⟩]

/-- The capture it leaves. -/
def deafCapture : ScreenCapture :=
  { running := true, device := true, output := some ⟨0, 0, 1920, 1080⟩, nextReacquire := 1000,
    width := 1920, height := 1080 }

theorem deafCapture_stays_deaf :
    (∀ env, .duplicateOutput ∉ (deafCapture.capture env).2) ∧
      ∀ envs : List CaptureEnv,
        captureMachine.run deafCapture (envs.map .capture) = some (deafCapture, []) :=
  capture_stays_deaf rfl

/-- Five seconds after the attempt the next call does not make another. -/
theorem deafCapture_not_due :
    captureMachine.run {} lockedDesktop = some (deafCapture, [.duplicateOutput]) ∧
      deafCapture.running = true ∧ deafCapture.dup = false ∧
      ¬ ∀ env : CaptureEnv, 1000 ≤ env.now - (deafCapture.nextReacquire - 1000) →
        .duplicateOutput ∈ (deafCapture.capture env).2 := by
  refine ⟨by decide, rfl, rfl, fun h => ?_⟩
  exact absurd (h ⟨.timeout, 5000, true, true⟩ (by decide)) (by decide)

end TwinScreen.Host
