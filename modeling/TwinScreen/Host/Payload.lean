import TwinScreen.Host.MainLoop
import TwinScreen.Protocol

/-!
# TwinScreen.Host.Payload

The payloads `main` makes for the tablet: `BuildVideoPayload` behind an
`sp_video_frame`.

* `appendU32_ofNat` — `append_u32` writes a size in the protocol's byte order.
-/

namespace TwinScreen.Host

open Lib

/-- The lambda `append_u32`, byte by byte. -/
def appendU32 (v : UInt32) : List UInt8 :=
  [v.toUInt8, (v >>> 8).toUInt8, (v >>> 16).toUInt8, (v >>> 24).toUInt8]

/-- One NAL of the payload, its length in front of it. -/
def appendNal (nal : List UInt8) : List UInt8 := appendU32 (UInt32.ofNat nal.length) ++ nal

/-- `BuildVideoPayload`. -/
def buildVideoPayload (f : EncodedFrame) : List UInt8 :=
  appendU32 (UInt32.ofNat f.nals.length) ++ f.nals.flatMap appendNal

/-- The payload of a video message, an `sp_video_frame` with the current size and
the NALs. -/
def videoPayload (cur : Size) (f : EncodedFrame) : List UInt8 :=
  let vf : SpVideoFrame :=
    { keyframe := if f.keyframe then 1 else 0
      codec := f.codec
      reserved := 0
      displayW := cur.1
      displayH := cur.2 }
  vf.bytes ++ buildVideoPayload f

/-! ## the byte order -/

/-- `append_u32` writes little-endian. -/
theorem appendU32_eq (v : UInt32) : appendU32 v = leBytes 4 v.toNat := by
  have hbyte : ∀ w : UInt32, w.toUInt8 = UInt8.ofNat w.toNat := fun w => rfl
  simp only [appendU32, leBytes, hbyte, UInt32.toNat_shiftRight, Nat.shiftRight_eq_div_pow,
    Nat.div_div_eq_div_mul]
  rfl

/-- A size that fits 32 bits is written as it is. -/
theorem appendU32_ofNat {n : Nat} (h : n < 2 ^ 32) : appendU32 (UInt32.ofNat n) = leBytes 4 n := by
  rw [appendU32_eq, UInt32.toNat_ofNat', Nat.mod_eq_of_lt h]

end TwinScreen.Host
