import TwinScreen.Host.Scaler
import TwinScreen.Lib.Attempt

/-!
# TwinScreen.Host.Encoder

`host/src/encode/encoder.h` and `host/src/util/aligned.h`: what the hardware encoders
have in common.
-/

namespace TwinScreen.Host

open Lib Lib.Attempt

/-- Pointers and handles; a null one is `none` of an `Option Handle`. -/
abbrev Handle := Nat

/-- A texture handed to `Encode`, and the D3D device it belongs to. -/
structure Frame where
  texture : Texture
  device : Handle
  deriving DecidableEq

/-- The frame rate `Start` records. -/
def fpsOr30 (fps : UInt32) : UInt32 := if fps = 0 then 30 else fps

/-- `AlignedBytes::Allocate`: the size of the buffer afterwards, 0 when it has none. -/
def allocated (bytes : Nat) (ok : Bool) : Nat := if ok then bytes else 0

/-- What a caller of an `Encoder` relies on: the parameters it has recorded, and
whether the next `Encode`, should none of its calls fail, yields a frame from an
encoder configured by these parameters. -/
structure EncoderView (σ : Type) where
  size : σ → Size
  fps : σ → UInt32
  bitrate : σ → UInt32
  encodes : σ → Prop

/-- `s'` encodes as `s` was set up to. -/
def EncoderView.Kept {σ : Type} (v : EncoderView σ) (s s' : σ) : Prop :=
  v.size s' = v.size s ∧ v.fps s' = v.fps s ∧ v.bitrate s' = v.bitrate s ∧ v.encodes s'

/-! ## `CopyFrameToNv12` -/

/-- The outcomes of `CopyFrameToNv12`'s calls; `map` gives the row pitch. -/
structure CopyEnv where
  createStaging : Bool
  map : Option Nat
  deriving DecidableEq

/-- The fields of an encoder that `CopyFrameToNv12` works with, and its calls. -/
structure CopyCalls (σ κ : Type) where
  /-- The frame's device and its context, for an encoder that has none. -/
  getDevice : Handle → σ → σ
  staging : σ → Option Size
  setStaging : Size → σ → σ
  createStaging : Size → Bool → κ
  copyResource : Option Size → Texture → κ
  map : Option Size → Option Nat → κ
  /-- The call by the row pitch of the mapped texture. -/
  bgraToNv12 : Nat → σ → κ
  staging_getDevice : ∀ device s, staging (getDevice device s) = staging s
  staging_setStaging : ∀ size s, staging (setStaging size s) = some size

namespace CopyCalls

variable {σ κ : Type} (c : CopyCalls σ κ)

/-- `CopyFrameToNv12`, as far as it is the same in all encoders. -/
def copyFrameToNv12 (frame : Frame) (env : CopyEnv) : Attempt σ κ Unit := do
  update (c.getDevice frame.device)
  let s ← state
  whenever (c.staging s).isNone do
    issue (c.createStaging frame.texture.size env.createStaging)
    check env.createStaging
    update (c.setStaging frame.texture.size)
  let s ← state
  issue (c.copyResource (c.staging s) frame.texture)
  issue (c.map (c.staging s) env.map)
  let rowPitch ← outcome env.map
  let s ← state
  issue (c.bgraToNv12 rowPitch s)

/-- A staging texture is there or can be made, and maps. -/
def Maps (s : σ) (env : CopyEnv) : Prop :=
  (c.staging s = none → env.createStaging = true) ∧ env.map.isSome

/-- The calls meet a law. -/
structure Meet (law : κ → Prop) : Prop where
  createStaging : ∀ size ok, law (c.createStaging size ok)
  copyResource : ∀ dst src, law (c.copyResource dst src)
  map : ∀ staging rowPitch, law (c.map staging rowPitch)
  bgraToNv12 : ∀ rowPitch s, law (c.bgraToNv12 rowPitch s)

/-- `v` shows neither the device nor the staging texture. -/
structure Keep {δ : Type} (v : σ → δ) : Prop where
  getDevice : ∀ device s, v (c.getDevice device s) = v s
  setStaging : ∀ size s, v (c.setStaging size s) = v s

variable {c}

/-- The copy changes the device and the staging texture alone, and gives up where nothing is
mapped. -/
theorem wp_copyFrameToNv12 {law : κ → Prop} (h : c.Meet law) {δ : Type} {v : σ → δ}
    (hv : c.Keep v) (s : σ) (frame : Frame) (env : CopyEnv) :
    Wp law (c.copyFrameToNv12 frame env) (fun _ s' => c.Maps s env ∧ v s' = v s)
      (fun s' => ¬ c.Maps s env ∧ v s' = v s) s := by
  have hmapped {s' : σ} (hthere : c.staging s = none → env.createStaging = true)
      (hsame : v s' = v s) :
      Wp law (do
          let s ← state
          issue (c.copyResource (c.staging s) frame.texture)
          issue (c.map (c.staging s) env.map)
          let rowPitch ← outcome env.map
          let s ← state
          issue (c.bgraToNv12 rowPitch s))
        (fun _ s' => c.Maps s env ∧ v s' = v s) (fun s' => ¬ c.Maps s env ∧ v s' = v s) s' := by
    simp only [wp_bind, wp_state, wp_issue, wp_outcome]
    refine ⟨h.copyResource _ _, h.map _ _, ?_⟩
    cases hmap : env.map with
    | none => exact ⟨fun hmaps => by simpa [hmap] using hmaps.2, hsame⟩
    | some rowPitch => exact ⟨h.bgraToNv12 _ _, ⟨hthere, by simp [hmap]⟩, hsame⟩
  rw [copyFrameToNv12, wp_bind, wp_update, wp_bind, wp_state, wp_bind, wp_whenever,
    c.staging_getDevice]
  cases hnone : c.staging s with
  | some size => exact hmapped (by simp [hnone]) (hv.getDevice _ _)
  | none =>
      rw [if_pos Option.isNone_none, wp_bind, wp_issue, wp_bind, wp_check]
      refine ⟨h.createStaging _ _, ?_⟩
      cases hcreate : env.createStaging with
      | false => exact ⟨fun hmaps => by simpa [hcreate] using hmaps.1 hnone, hv.getDevice _ _⟩
      | true =>
          rw [if_pos rfl, wp_update]
          exact hmapped (fun _ => hcreate) ((hv.setStaging _ _).trans (hv.getDevice _ _))

/-- An observer that takes no notice of a copy. -/
theorem seen_copyFrameToNv12 {γ : Type} {obs : γ → κ → γ} (h : c.Meet fun k => ∀ g, obs g k = g)
    {δ : Type} {v : σ → δ} (hv : c.Keep v) (s : σ) (frame : Frame) (env : CopyEnv) (g : γ) :
    Seen obs (c.copyFrameToNv12 frame env)
      (fun _ s' g' => (c.Maps s env ∧ v s' = v s) ∧ g' = g)
      (fun s' g' => (¬ c.Maps s env ∧ v s' = v s) ∧ g' = g) s g :=
  (wp_copyFrameToNv12 h hv s frame env).seen (fun _ h => h) g

end CopyCalls

end TwinScreen.Host
