import TwinScreen.Lib.ByteBuffer
import TwinScreen.Protocol

/-!
# TwinScreen.Tablet.Protocol

`Protocol.kt`, the tablet's side of the wire contract: the message records and
the parsers of the two streamed payloads.  Kotlin's `Int` is signed, so the
counts and lengths in a payload are read as two's complement numbers.

`parseVideoFrame_returns_iff` and `parseAudioFrame_returns_iff` say for which
payloads the parsers return and do not throw.
-/

namespace TwinScreen.Tablet

open Lib

/-- `Protocol.Ack`. -/
structure Ack where
  protoVersion : Int
  caps : Int
  modeW : Int
  modeH : Int
  modeRefresh : Int
  codec : Int
  profile : Int
  bitrate : Int
  fps : Int
  deriving DecidableEq, Repr

/-- `Protocol.VideoFrame`. -/
structure VideoFrame where
  keyframe : Bool
  codec : Int
  displayW : Int
  displayH : Int
  nals : List (List UInt8)
  deriving DecidableEq, Repr

/-- `Protocol.AudioFrame`. -/
structure AudioFrame where
  sampleRate : Int
  codec : Int
  channels : Int
  data : List UInt8
  deriving DecidableEq, Repr

/-! ## the parsers -/

/-- The NAL loop of `parseVideoFrame`, `for (i in 0 until count)`. -/
def getNals : Nat → Get (List (List UInt8))
  | 0 => pure []
  | n + 1 => do
      let len ← Get.int
      let nal ← Get.array len
      let nals ← getNals n
      return nal :: nals

/-- The body of `parseVideoFrame` on the wrapped payload. -/
def getVideoFrame : Get VideoFrame := do
  let keyframe ← Get.byte
  let codec ← Get.byte
  let _reserved ← Get.short
  let dw ← Get.int
  let dh ← Get.int
  let count ← Get.int
  let nals ← getNals count.toNat
  return ⟨decide (keyframe ≠ 0), codec, dw, dh, nals⟩

/-- `Protocol.parseVideoFrame`. -/
def parseVideoFrame (payload : List UInt8) : Except Throwable VideoFrame :=
  (getVideoFrame.run payload).map Prod.fst

/-- The body of `parseAudioFrame` on the wrapped payload. -/
def getAudioFrame : Get AudioFrame := do
  let rate ← Get.int
  let codec ← Get.byte
  let channels ← Get.byte
  let _bytesPerSample ← Get.short
  let data ← Get.remaining
  return ⟨rate, codec, channels, data⟩

/-- `Protocol.parseAudioFrame`. -/
def parseAudioFrame (payload : List UInt8) : Except Throwable AudioFrame :=
  (getAudioFrame.run payload).map Prod.fst

/-- The body of `readAck` on the wrapped payload. -/
def getAck : Get Ack := do
  let protoVersion ← Get.short
  let caps ← Get.int
  let modeW ← Get.short
  let modeH ← Get.short
  let modeRefresh ← Get.short
  let codec ← Get.byte
  let profile ← Get.byte
  let bitrate ← Get.int
  let fps ← Get.short
  return ⟨maskBytes 2 protoVersion, maskBytes 4 caps, maskBytes 2 modeW, maskBytes 2 modeH,
    maskBytes 2 modeRefresh, codec, profile, maskBytes 4 bitrate, maskBytes 2 fps⟩

/-- `Protocol.readAck`. -/
def readAck (data : List UInt8) : Except Throwable Ack := (getAck.run data).map Prod.fst

/-! ## the payloads they accept -/

/-- `n` length-prefixed NALs at the front of the bytes: every length is
non-negative as a signed number and stays within the bytes. -/
def NalsFit : Nat → List UInt8 → Prop
  | 0, _ => True
  | n + 1, bs =>
      4 ≤ bs.length ∧ 0 ≤ leInt (bs.take 4) ∧ 4 + (leInt (bs.take 4)).toNat ≤ bs.length ∧
        NalsFit n (bs.drop (4 + (leInt (bs.take 4)).toNat))

/-- A video payload holds its fixed fields and as many NALs as it declares; a
count that is negative as a signed number declares none. -/
def VideoFits (payload : List UInt8) : Prop :=
  16 ≤ payload.length ∧ NalsFit (leInt ((payload.drop 12).take 4)).toNat (payload.drop 16)

/-- An audio payload holds its fixed fields. -/
def AudioFits (payload : List UInt8) : Prop := 8 ≤ payload.length

instance : (n : Nat) → (bs : List UInt8) → Decidable (NalsFit n bs)
  | 0, _ => .isTrue trivial
  | n + 1, bs =>
      have := instDecidableNalsFit n (bs.drop (4 + (leInt (bs.take 4)).toNat))
      inferInstanceAs (Decidable (_ ∧ _))

instance (payload : List UInt8) : Decidable (VideoFits payload) :=
  inferInstanceAs (Decidable (_ ∧ _))

instance (payload : List UInt8) : Decidable (AudioFits payload) :=
  inferInstanceAs (Decidable (_ ≤ _))

/-- A projection of a reader's result is there when the reader returns. -/
theorem exists_map_run_iff (x : Get α) (bs : List UInt8) :
    (∃ a, (x.run bs).map Prod.fst = .ok a) ↔ x.Returns bs := by
  unfold Get.Returns
  cases x.run bs with
  | error e => simp [Except.map]
  | ok r => simp [Except.map]

/-- The NAL loop returns on the bytes that hold its NALs. -/
theorem returns_getNals (n : Nat) (bs : List UInt8) : (getNals n).Returns bs ↔ NalsFit n bs := by
  induction n generalizing bs with
  | zero => simp [getNals, NalsFit]
  | succ n ih =>
      rw [getNals, Get.int, Get.returns_num_bind, NalsFit]
      apply and_congr_right
      intro hlen
      generalize leInt (bs.take 4) = len
      by_cases hneg : len < 0
      · have hthrow : ¬ (Get.array len >>= fun nal => do
            let nals ← getNals n
            return nal :: nals).Returns (bs.drop 4) := by
          rw [Get.returns_bind]
          intro h
          obtain ⟨a, rest, hrun, -⟩ := h
          simp [Get.array, hneg] at hrun
        simp [hthrow, Int.not_le.mpr hneg]
      · have harray : Get.array len = Get.bytes len.toNat := by simp [Get.array, hneg]
        have hdrop : (bs.drop 4).drop len.toNat = bs.drop (4 + len.toNat) := by
          rw [List.drop_drop]
        have hfit : len.toNat ≤ (bs.drop 4).length ↔ 4 + len.toNat ≤ bs.length := by
          rw [List.length_drop]
          omega
        rw [harray, Get.returns_bytes_bind, Get.returns_map, ih, hdrop, hfit]
        simp [Int.not_lt.mp hneg]

/-- **`parseVideoFrame` returns** exactly on payloads that hold what they declare. -/
theorem parseVideoFrame_returns_iff (payload : List UInt8) :
    (∃ f, parseVideoFrame payload = .ok f) ↔ VideoFits payload := by
  rw [parseVideoFrame, exists_map_run_iff]
  simp only [getVideoFrame, Get.byte, Get.short, Get.int, Get.returns_num_bind, Get.returns_map,
    returns_getNals, VideoFits, List.length_drop, List.drop_drop, Nat.reduceAdd, ← and_assoc]
  apply and_congr_left
  intro _
  omega

/-- **`parseAudioFrame` returns** exactly on payloads that hold the fixed fields. -/
theorem parseAudioFrame_returns_iff (payload : List UInt8) :
    (∃ f, parseAudioFrame payload = .ok f) ↔ AudioFits payload := by
  rw [parseAudioFrame, exists_map_run_iff]
  simp only [getAudioFrame, Get.byte, Get.short, Get.int, Get.returns_num_bind, Get.returns_map,
    Get.returns_remaining, AudioFits, List.length_drop, and_true]
  omega

end TwinScreen.Tablet
