import TwinScreen.Lib.LittleEndian
import TwinScreen.Lib.Framing

/-!
# TwinScreen.Protocol

The wire contract of `proto/protocol.h`: message and event codes, the packed
structs, and the framing of `proto/protocol.md`.

A packed struct is a record of fixed-width fields; `bytes` is its image in
memory on a little-endian machine, `ofBytes` the struct cast at an address.
`wireFraming` is the reference framing of the document: the host's and the
tablet's readers are compared with it.
-/

namespace TwinScreen

open Lib

/-! ## codes -/

def spMagic : UInt32 := 0x21325053
def spVersion : UInt16 := 1

def spCodecH264 : UInt8 := 0
def spCodecHevc : UInt8 := 1

def spMsgHandshake : UInt16 := 1
def spMsgHandshakeAck : UInt16 := 2
def spMsgVideoFrame : UInt16 := 3
def spMsgKeyframeReq : UInt16 := 4
def spMsgInputBatch : UInt16 := 5
def spMsgControl : UInt16 := 6
def spMsgAudioFrame : UInt16 := 7

def spInputMove : UInt8 := 0
def spInputDown : UInt8 := 1
def spInputUp : UInt8 := 2
def spInputStylusDown : UInt8 := 3
def spInputStylusMove : UInt8 := 4
def spInputStylusUp : UInt8 := 5
def spInputCancel : UInt8 := 6

def spBtnLeft : UInt8 := 0x01
def spBtnRight : UInt8 := 0x02
def spBtnMiddle : UInt8 := 0x04

def spCtlSetBitrate : UInt8 := 1

/-! ## fields at an offset -/

def u8At (bs : List UInt8) (i : Nat) : UInt8 := UInt8.ofNat (fieldAt bs i 1)
def u16At (bs : List UInt8) (i : Nat) : UInt16 := UInt16.ofNat (fieldAt bs i 2)
def u32At (bs : List UInt8) (i : Nat) : UInt32 := UInt32.ofNat (fieldAt bs i 4)
def u64At (bs : List UInt8) (i : Nat) : UInt64 := UInt64.ofNat (fieldAt bs i 8)

theorem toNat_u32At (bs : List UInt8) (i : Nat) : (u32At bs i).toNat = fieldAt bs i 4 := by
  have h := fieldAt_lt bs i 4
  rw [u32At, UInt32.toNat_ofNat', Nat.mod_eq_of_lt (by simpa using h)]

/-! ## `sp_header` -/

/-- The 24-byte message header. -/
structure SpHeader where
  magic : UInt32
  version : UInt16
  type : UInt16
  seq : UInt32
  tsUs : UInt64
  payloadLen : UInt32
  deriving DecidableEq, Repr

namespace SpHeader

/-- The header's size, `sizeof(sp_header)`. -/
def size : Nat := 24

theorem size_pos : 0 < size := by decide

/-- The header's fields, in memory order. -/
def fields (h : SpHeader) : List (Nat × Nat) :=
  [(4, h.magic.toNat), (2, h.version.toNat), (2, h.type.toNat), (4, h.seq.toNat),
    (8, h.tsUs.toNat), (4, h.payloadLen.toNat)]

/-- The header in memory. -/
def bytes (h : SpHeader) : List UInt8 := packed h.fields

/-- The struct cast of 24 received bytes. -/
def ofBytes (bs : List UInt8) : SpHeader where
  magic := u32At bs 0
  version := u16At bs 4
  type := u16At bs 6
  seq := u32At bs 8
  tsUs := u64At bs 12
  payloadLen := u32At bs 20

@[simp] theorem length_bytes (h : SpHeader) : h.bytes.length = size := by
  simp [bytes, fields, width, size]

/-- Each field of a header in memory is where `ofBytes` looks for it. -/
theorem ofBytes_bytes_append (h : SpHeader) (rest : List UInt8) : ofBytes (h.bytes ++ rest) = h := by
  have hmagic : fieldAt (h.bytes ++ rest) 0 4 = _ := fieldAt_packed [] 4 _ (h.fields.drop 1) rest
  have hversion : fieldAt (h.bytes ++ rest) 4 2 = _ :=
    fieldAt_packed (h.fields.take 1) 2 _ (h.fields.drop 2) rest
  have htype : fieldAt (h.bytes ++ rest) 6 2 = _ :=
    fieldAt_packed (h.fields.take 2) 2 _ (h.fields.drop 3) rest
  have hseq : fieldAt (h.bytes ++ rest) 8 4 = _ :=
    fieldAt_packed (h.fields.take 3) 4 _ (h.fields.drop 4) rest
  have hts : fieldAt (h.bytes ++ rest) 12 8 = _ :=
    fieldAt_packed (h.fields.take 4) 8 _ (h.fields.drop 5) rest
  have hlen : fieldAt (h.bytes ++ rest) 20 4 = _ := fieldAt_packed (h.fields.take 5) 4 _ [] rest
  simp [ofBytes, u32At, u16At, u64At, hmagic, hversion, htype, hseq, hts, hlen]

/-- A header in memory casts back to itself. -/
theorem ofBytes_bytes (h : SpHeader) : ofBytes h.bytes = h := by
  simpa using ofBytes_bytes_append h []

/-- The cast looks at the header's own bytes only. -/
theorem ofBytes_take (bs : List UInt8) : ofBytes (bs.take size) = ofBytes bs := by
  simp [ofBytes, u16At, u32At, u64At, size, fieldAt_take]

end SpHeader

/-! ## payloads of the host -/

/-- `sp_handshake_ack`. -/
structure SpHandshakeAck where
  protoVersion : UInt16
  caps : UInt32
  modeW : UInt16
  modeH : UInt16
  modeRefresh : UInt16
  codec : UInt8
  profile : UInt8
  bitrate : UInt32
  fps : UInt16
  deriving DecidableEq

/-- The ack's fields, in memory order. -/
def SpHandshakeAck.fields (a : SpHandshakeAck) : List (Nat × Nat) :=
  [(2, a.protoVersion.toNat), (4, a.caps.toNat), (2, a.modeW.toNat), (2, a.modeH.toNat),
    (2, a.modeRefresh.toNat), (1, a.codec.toNat), (1, a.profile.toNat), (4, a.bitrate.toNat),
    (2, a.fps.toNat)]

/-- The ack in memory. -/
def SpHandshakeAck.bytes (a : SpHandshakeAck) : List UInt8 := packed a.fields

@[simp] theorem SpHandshakeAck.length_bytes (a : SpHandshakeAck) : a.bytes.length = 20 := by
  simp [bytes, fields, width]

/-- `sp_video_frame`; the NALs follow it. -/
structure SpVideoFrame where
  keyframe : UInt8
  codec : UInt8
  reserved : UInt16
  displayW : UInt32
  displayH : UInt32
  deriving DecidableEq

/-- The fields of a video frame, in memory order. -/
def SpVideoFrame.fields (v : SpVideoFrame) : List (Nat × Nat) :=
  [(1, v.keyframe.toNat), (1, v.codec.toNat), (2, v.reserved.toNat), (4, v.displayW.toNat),
    (4, v.displayH.toNat)]

/-- A video frame in memory. -/
def SpVideoFrame.bytes (v : SpVideoFrame) : List UInt8 := packed v.fields

@[simp] theorem SpVideoFrame.length_bytes (v : SpVideoFrame) : v.bytes.length = 12 := by
  simp [bytes, fields, width]

/-- `sp_audio_frame`; the samples follow it. -/
structure SpAudioFrame where
  sampleRate : UInt32
  codec : UInt8
  channels : UInt8
  bytesPerSample : UInt16
  deriving DecidableEq

/-- The fields of an audio frame, in memory order. -/
def SpAudioFrame.fields (a : SpAudioFrame) : List (Nat × Nat) :=
  [(4, a.sampleRate.toNat), (1, a.codec.toNat), (1, a.channels.toNat), (2, a.bytesPerSample.toNat)]

/-- An audio frame in memory. -/
def SpAudioFrame.bytes (a : SpAudioFrame) : List UInt8 := packed a.fields

@[simp] theorem SpAudioFrame.length_bytes (a : SpAudioFrame) : a.bytes.length = 8 := by
  simp [bytes, fields, width]

/-! ## input events -/

/-- One input event, `sp_input_event`. -/
structure SpInputEvent where
  x : UInt16
  y : UInt16
  type : UInt8
  buttons : UInt8
  pointerId : UInt8
  pressure : UInt8
  tiltX : Int16
  tiltY : Int16
  deriving DecidableEq

namespace SpInputEvent

/-- `sizeof(sp_input_event)`. -/
def size : Nat := 12

/-- The event's fields, in memory order. -/
def fields (e : SpInputEvent) : List (Nat × Nat) :=
  [(2, e.x.toNat), (2, e.y.toNat), (1, e.type.toNat), (1, e.buttons.toNat),
    (1, e.pointerId.toNat), (1, e.pressure.toNat), (2, e.tiltX.toUInt16.toNat),
    (2, e.tiltY.toUInt16.toNat)]

/-- The event in memory. -/
def bytes (e : SpInputEvent) : List UInt8 := packed e.fields

/-- The struct cast of 12 received bytes. -/
def ofBytes (bs : List UInt8) : SpInputEvent where
  x := u16At bs 0
  y := u16At bs 2
  type := u8At bs 4
  buttons := u8At bs 5
  pointerId := u8At bs 6
  pressure := u8At bs 7
  tiltX := (u16At bs 8).toInt16
  tiltY := (u16At bs 10).toInt16

@[simp] theorem length_bytes (e : SpInputEvent) : e.bytes.length = size := by
  simp [bytes, fields, width, size]

/-- An event in memory casts back to itself. -/
theorem ofBytes_bytes (e : SpInputEvent) : ofBytes e.bytes = e := by
  have hx : fieldAt (e.bytes ++ []) 0 2 = _ := fieldAt_packed [] 2 _ (e.fields.drop 1) []
  have hy : fieldAt (e.bytes ++ []) 2 2 = _ :=
    fieldAt_packed (e.fields.take 1) 2 _ (e.fields.drop 2) []
  have htype : fieldAt (e.bytes ++ []) 4 1 = _ :=
    fieldAt_packed (e.fields.take 2) 1 _ (e.fields.drop 3) []
  have hbuttons : fieldAt (e.bytes ++ []) 5 1 = _ :=
    fieldAt_packed (e.fields.take 3) 1 _ (e.fields.drop 4) []
  have hid : fieldAt (e.bytes ++ []) 6 1 = _ :=
    fieldAt_packed (e.fields.take 4) 1 _ (e.fields.drop 5) []
  have hpressure : fieldAt (e.bytes ++ []) 7 1 = _ :=
    fieldAt_packed (e.fields.take 5) 1 _ (e.fields.drop 6) []
  have htx : fieldAt (e.bytes ++ []) 8 2 = _ :=
    fieldAt_packed (e.fields.take 6) 2 _ (e.fields.drop 7) []
  have hty : fieldAt (e.bytes ++ []) 10 2 = _ := fieldAt_packed (e.fields.take 7) 2 _ [] []
  rw [List.append_nil] at hx hy htype hbuttons hid hpressure htx hty
  simp [ofBytes, u8At, u16At, hx, hy, htype, hbuttons, hid, hpressure, htx, hty]

end SpInputEvent

/-- `sizeof(sp_input_batch)`: the count in front of the events. -/
def spInputBatchSize : Nat := 4

/-- An input batch on the wire. -/
def inputBatchBytes (evs : List SpInputEvent) : List UInt8 :=
  leBytes 4 evs.length ++ evs.flatMap SpInputEvent.bytes

theorem length_flatMap_bytes (evs : List SpInputEvent) :
    (evs.flatMap SpInputEvent.bytes).length = SpInputEvent.size * evs.length := by
  induction evs with
  | nil => rfl
  | cons e evs ih =>
      rw [List.flatMap_cons, List.length_append, ih, SpInputEvent.length_bytes, List.length_cons,
        Nat.mul_succ, Nat.add_comm]

theorem length_inputBatchBytes (evs : List SpInputEvent) :
    (inputBatchBytes evs).length = spInputBatchSize + SpInputEvent.size * evs.length := by
  rw [inputBatchBytes, List.length_append, length_leBytes, length_flatMap_bytes]
  rfl

/-- `sizeof(sp_control)`. -/
def spControlSize : Nat := 8

/-! ## framing -/

/-- The reference framing of `protocol.md`: a 24-byte header with the protocol's
magic and version, then `payload_len` bytes. -/
def wireFraming : Framing UInt8 UInt16 where
  headerLen := SpHeader.size
  headerLen_pos := SpHeader.size_pos
  decode bs :=
    let h := SpHeader.ofBytes bs
    if h.magic = spMagic ∧ h.version = spVersion then
      some (h.type, h.payloadLen.toNat)
    else
      none

/-- The reference framing accepts a header by its magic and version. -/
theorem wireFraming_header_eq_some_iff {bs : List UInt8} {t : UInt16} {n : Nat} :
    wireFraming.header bs = some (t, n) ↔
      SpHeader.size ≤ bs.length ∧ (SpHeader.ofBytes bs).magic = spMagic ∧
        (SpHeader.ofBytes bs).version = spVersion ∧ t = (SpHeader.ofBytes bs).type ∧
        n = (SpHeader.ofBytes bs).payloadLen.toNat := by
  simp only [Framing.header, wireFraming, SpHeader.ofBytes_take]
  by_cases hlen : bs.length < SpHeader.size
  · simp [hlen, Nat.not_le.mpr hlen]
  · by_cases hok : (SpHeader.ofBytes bs).magic = spMagic ∧ (SpHeader.ofBytes bs).version = spVersion
    · simp [hlen, hok, Nat.not_lt.mp hlen, eq_comm]
    · simp only [hlen, if_false, hok]
      constructor
      · intro h; contradiction
      · intro h; exact absurd ⟨h.2.1, h.2.2.1⟩ hok

/-- A message: its type and payload. -/
abbrev Message := UInt16 × List UInt8

end TwinScreen
