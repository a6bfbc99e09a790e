import TwinScreen.Lib.Framing
import TwinScreen.Lib.Store

/-!
# TwinScreen.Host.Adts

`AacEncoder::Encode` of `host/src/audio/aac.cpp`.  The Media Foundation transform is
met through what its calls return; the packets it gives out for one input and what
ended the loop are taken together.

* `encode_appends` — what is appended is the packets, for any reader of ADTS headers.
-/

namespace TwinScreen.Host

open Lib

/-! ## the encoder -/

/-- `SamplingFrequencyIndex`. -/
def samplingFrequencyIndex (rate : UInt32) : UInt8 :=
  match rate with
  | 96000 => 0
  | 88200 => 1
  | 64000 => 2
  | 48000 => 3
  | 44100 => 4
  | 32000 => 5
  | 24000 => 6
  | 22050 => 7
  | 16000 => 8
  | _ => 3

/-- `WriteAdts`: the seven bytes of `hdr`. -/
def writeAdts (frameLen rate : UInt32) (channels : UInt16) : List UInt8 :=
  let profile : UInt8 := 1
  let sf := samplingFrequencyIndex rate
  let cc := channels.toUInt8
  [0xFF, 0xF1,
    profile <<< 6 ||| sf <<< 2 ||| cc >>> 2,
    (cc &&& 0x03) <<< 6 ||| (frameLen >>> 11 &&& 0x03).toUInt8,
    (frameLen >>> 3 &&& 0xFF).toUInt8,
    ((frameLen &&& 0x07) <<< 5 ||| 0x1F).toUInt8,
    0xFC]

/-- `AacEncoder::Impl`. -/
structure AacImpl where
  mft : Bool := false
  rate : UInt32 := 48000
  channels : UInt16 := 2
  blockAlign : UInt32 := 4
  sampleTime : Nat := 0
  deriving DecidableEq

/-- What ends the loop over the outputs. -/
inductive DrainEnd where
  | needMoreInput
  | createMemoryBufferFailed
  | createSampleFailed
  | processOutputFailed
  | lockFailed
  deriving DecidableEq

/-- What the calls of one `Encode` return: whether each step of the input succeeds, the
packets given out, and what ends them. -/
structure AacCalls where
  createSample : Bool
  createMemoryBuffer : Bool
  lock : Bool
  processInput : Bool
  packets : List (List UInt8)
  ends : DrainEnd
  deriving DecidableEq

/-- The input is taken. -/
def AacCalls.accepted (calls : AacCalls) : Bool :=
  calls.createSample && calls.createMemoryBuffer && calls.lock && calls.processInput

/-- `memcpy` into a vector. -/
def copyTo (buf : List UInt8) (offset : Nat) (bytes : List UInt8) : List UInt8 :=
  buf.take offset ++ bytes ++ buf.drop (offset + bytes.length)

/-- A packet goes behind `out`, which grows by it and its header. -/
def AacImpl.appendFrame (s : AacImpl) (out packet : List UInt8) : List UInt8 :=
  let length := UInt32.ofNat packet.length
  let frameLen := length + 7
  let out := out ++ List.replicate frameLen.toNat 0
  let out := copyTo out (out.length - frameLen.toNat) (writeAdts frameLen s.rate s.channels)
  copyTo out (out.length - length.toNat) packet

structure AacResult where
  ok : Bool
  impl : Option AacImpl
  out : List UInt8
  deriving DecidableEq

/-- `Encode(pcm, samples, out)`; `pcm` tells whether the pointer is one. -/
def encodeAac (impl : Option AacImpl) (pcm : Bool) (samples : Nat) (calls : AacCalls)
    (out : List UInt8) : AacResult :=
  match impl with
  | none => ⟨false, none, out⟩
  | some s =>
      if !s.mft || !pcm then ⟨false, some s, out⟩
      else if !calls.accepted then ⟨false, some s, out⟩
      else
        let duration := samples * 10000000 / s.rate.toNat
        let s' := { s with sampleTime := s.sampleTime + duration }
        let out' := calls.packets.foldl s.appendFrame out
        match calls.ends with
        | .needMoreInput => ⟨out'.length > out.length, some s', out'⟩
        | _ => ⟨false, some s', out'⟩

/-! ## reading headers -/

/-- A reader of ADTS headers without CRC: the sampling frequency index and the channel
configuration, and the frame length in 13 bits, which counts the header. -/
def decodeAdts (hdr : List UInt8) : Option ((Nat × Nat) × Nat) :=
  match hdr.map UInt8.toNat with
  | [b0, b1, b2, b3, b4, b5, _] =>
      let frameLen := b3 % 4 * 2048 + b4 * 8 + b5 / 32
      if b0 = 0xFF ∧ b1 / 16 = 0xF ∧ b1 % 2 = 1 ∧ 7 ≤ frameLen then
        some ((b2 / 4 % 16, b2 % 2 * 4 + b3 / 64), frameLen - 7)
      else none
  | _ => none

def adtsFraming : Framing UInt8 (Nat × Nat) where
  headerLen := 7
  headerLen_pos := by decide
  decode := decodeAdts

/-! ## the header -/

theorem samplingFrequencyIndex_le (rate : UInt32) : (samplingFrequencyIndex rate).toNat ≤ 8 := by
  unfold samplingFrequencyIndex
  split <;> decide

theorem length_writeAdts (frameLen rate : UInt32) (channels : UInt16) :
    (writeAdts frameLen rate channels).length = 7 := rfl

section

variable {sf cc : UInt8} {frameLen : UInt32}

theorem toNat_rateByte (hsf : sf.toNat < 16) (hcc : cc.toNat < 8) :
    ((1 : UInt8) <<< 6 ||| sf <<< 2 ||| cc >>> 2).toNat = 64 + 4 * sf.toNat + cc.toNat / 4 := by
  have hsf2 : (sf <<< 2).toNat = sf.toNat <<< 2 := by
    rw [UInt8.toNat_shiftLeft]
    show sf.toNat <<< 2 % 2 ^ 8 = _
    rw [Nat.shiftLeft_eq]
    omega
  have hcc2 : (cc >>> 2).toNat = cc.toNat / 4 := by
    rw [UInt8.toNat_shiftRight]
    exact Nat.shiftRight_eq_div_pow cc.toNat 2
  have hhigh : (1 : Nat) <<< 6 ||| sf.toNat <<< 2 = (16 + sf.toNat) <<< 2 := by
    rw [Nat.or_comm, or_shiftLeft (k := 6) (by rw [Nat.shiftLeft_eq]; omega), Nat.shiftLeft_eq,
      Nat.shiftLeft_eq]
    omega
  rw [UInt8.toNat_or, UInt8.toNat_or, hsf2, hcc2]
  show 1 <<< 6 ||| sf.toNat <<< 2 ||| cc.toNat / 4 = _
  rw [hhigh, Nat.or_comm, or_shiftLeft (k := 2) (by omega)]
  omega

theorem toNat_channelByte :
    ((cc &&& 0x03) <<< 6 ||| (frameLen >>> 11 &&& 0x03).toUInt8).toNat =
      cc.toNat % 4 * 64 + frameLen.toNat / 2048 % 4 := by
  have hcc : (cc &&& 0x03).toNat = cc.toNat % 4 := by
    rw [UInt8.toNat_and]
    exact Nat.and_two_pow_sub_one_eq_mod cc.toNat 2
  have hlow : (frameLen >>> 11 &&& 0x03).toUInt8.toNat = frameLen.toNat / 2048 % 4 := by
    rw [UInt32.toNat_toUInt8, UInt32.toNat_and, UInt32.toNat_shiftRight]
    show (frameLen.toNat >>> 11 &&& 2 ^ 2 - 1) % 2 ^ 8 = _
    rw [Nat.and_two_pow_sub_one_eq_mod, Nat.shiftRight_eq_div_pow]
    omega
  have hshift : ((cc &&& 0x03) <<< 6).toNat = (cc.toNat % 4) <<< 6 := by
    rw [UInt8.toNat_shiftLeft, hcc]
    show (cc.toNat % 4) <<< 6 % 2 ^ 8 = _
    rw [Nat.shiftLeft_eq]
    omega
  rw [UInt8.toNat_or, hlow, hshift, Nat.or_comm, or_shiftLeft (by omega)]
  omega

theorem toNat_lengthByte :
    (frameLen >>> 3 &&& 0xFF).toUInt8.toNat = frameLen.toNat / 8 % 256 := by
  rw [UInt32.toNat_toUInt8, UInt32.toNat_and, UInt32.toNat_shiftRight]
  show (frameLen.toNat >>> 3 &&& 2 ^ 8 - 1) % 2 ^ 8 = _
  rw [Nat.and_two_pow_sub_one_eq_mod, Nat.shiftRight_eq_div_pow]
  omega

theorem toNat_fullnessByte :
    ((frameLen &&& 0x07) <<< 5 ||| 0x1F).toUInt8.toNat = frameLen.toNat % 8 * 32 + 31 := by
  have hlow : (frameLen &&& 0x07).toNat = frameLen.toNat % 8 := by
    rw [UInt32.toNat_and]
    exact Nat.and_two_pow_sub_one_eq_mod frameLen.toNat 3
  have hshift : ((frameLen &&& 0x07) <<< 5).toNat = (frameLen.toNat % 8) <<< 5 := by
    rw [UInt32.toNat_shiftLeft, hlow]
    show (frameLen.toNat % 8) <<< 5 % 2 ^ 32 = _
    rw [Nat.shiftLeft_eq]
    omega
  rw [UInt32.toNat_toUInt8, UInt32.toNat_or, hshift, Nat.or_comm]
  show (31 ||| (frameLen.toNat % 8) <<< 5) % 2 ^ 8 = _
  rw [or_shiftLeft (by decide)]
  omega

end

/-- **The header is read back**: the rate index, the channels and the payload length, as
long as they fit their bits. -/
theorem decodeAdts_writeAdts {frameLen : UInt32} {channels : UInt16} (rate : UInt32)
    (hlow : 7 ≤ frameLen.toNat) (hhigh : frameLen.toNat < 2 ^ 13) (hchannels : channels.toNat < 8) :
    decodeAdts (writeAdts frameLen rate channels) =
      some (((samplingFrequencyIndex rate).toNat, channels.toNat), frameLen.toNat - 7) := by
  have hsf := samplingFrequencyIndex_le rate
  have hcc : channels.toUInt8.toNat = channels.toNat := by
    rw [UInt16.toNat_toUInt8]
    omega
  have hrate := @toNat_rateByte (samplingFrequencyIndex rate) channels.toUInt8 (by omega) (by omega)
  simp only [decodeAdts, writeAdts, List.map_cons, List.map_nil, toNat_channelByte,
    toNat_lengthByte, toNat_fullnessByte, hrate, hcc]
  rw [if_pos]
  · simp only [Option.some.injEq, Prod.mk.injEq]
    omega
  · refine ⟨by decide, by decide, by decide, by omega⟩

/-! ## what is appended -/

theorem copyTo_of_length_eq {pre mid post bytes : List UInt8} (h : mid.length = bytes.length) :
    copyTo (pre ++ (mid ++ post)) pre.length bytes = pre ++ (bytes ++ post) := by
  rw [copyTo, List.take_left, ← h, ← List.drop_drop, List.drop_left, List.drop_left,
    List.append_assoc]

/-- The end-relative offsets are those of the header and of the packet. -/
theorem appendFrame_eq (s : AacImpl) (out : List UInt8) {packet : List UInt8}
    (h : packet.length + 7 < 2 ^ 32) :
    s.appendFrame out packet =
      out ++ (writeAdts (UInt32.ofNat packet.length + 7) s.rate s.channels ++ packet) := by
  have hlength : (UInt32.ofNat packet.length).toNat = packet.length := by
    rw [UInt32.toNat_ofNat']
    omega
  have hframe : (UInt32.ofNat packet.length + 7).toNat = packet.length + 7 := by
    rw [UInt32.toNat_add, hlength]
    show (packet.length + 7) % 2 ^ 32 = _
    omega
  rw [AacImpl.appendFrame, hlength, hframe]
  generalize hhdr : writeAdts (UInt32.ofNat packet.length + 7) s.rate s.channels = hdr
  have hseven : hdr.length = 7 := by rw [← hhdr, length_writeAdts]
  have hgrown : List.replicate (packet.length + 7) (0 : UInt8) =
      List.replicate 7 0 ++ List.replicate packet.length 0 := by
    rw [List.replicate_append_replicate, Nat.add_comm]
  have hstart : (out ++ List.replicate (packet.length + 7) (0 : UInt8)).length -
      (packet.length + 7) = out.length := by
    simp
  have hheader : copyTo (out ++ List.replicate (packet.length + 7) 0) out.length hdr =
      out ++ hdr ++ (List.replicate packet.length 0 ++ []) := by
    rw [hgrown, copyTo_of_length_eq (by simp [hseven]), List.append_nil, List.append_assoc]
  have hend : (out ++ hdr ++ (List.replicate packet.length (0 : UInt8) ++ [])).length -
      packet.length = (out ++ hdr).length := by
    rw [List.length_append, List.append_nil, List.length_replicate, Nat.add_sub_cancel]
  simp only [hstart, hheader, hend]
  rw [copyTo_of_length_eq (by simp), List.append_nil, List.append_assoc]

section

variable (s : AacImpl) {packets : List (List UInt8)}

/-- A packet with its header. -/
def AacImpl.frame (packet : List UInt8) : List UInt8 :=
  writeAdts (UInt32.ofNat packet.length + 7) s.rate s.channels ++ packet

theorem foldl_appendFrame (h : ∀ packet ∈ packets, packet.length ≤ 8184) (out : List UInt8) :
    packets.foldl s.appendFrame out = out ++ packets.flatMap s.frame := by
  induction packets generalizing out with
  | nil => simp
  | cons packet packets ih =>
      rw [List.forall_mem_cons] at h
      rw [List.foldl_cons, ih h.2, appendFrame_eq s out (by omega), List.flatMap_cons,
        List.append_assoc, AacImpl.frame]

/-- A frame is read back in front of anything. -/
theorem next_frame {packet : List UInt8} (h : packet.length ≤ 8184)
    (hchannels : s.channels.toNat < 8) (rest : List UInt8) :
    adtsFraming.next (s.frame packet ++ rest) =
      some ((((samplingFrequencyIndex s.rate).toNat, s.channels.toNat), packet), rest) := by
  have hframe : (UInt32.ofNat packet.length + 7).toNat = packet.length + 7 := by
    rw [UInt32.toNat_add, UInt32.toNat_ofNat']
    show (packet.length % 2 ^ 32 + 7) % 2 ^ 32 = _
    omega
  have hread := @decodeAdts_writeAdts (UInt32.ofNat packet.length + 7) s.channels s.rate
    (by omega) (by omega) hchannels
  rw [hframe, Nat.add_sub_cancel] at hread
  exact adtsFraming.next_encode (length_writeAdts _ _ _) hread rest

/-- The packets that a call of `Encode` takes over. -/
def AacImpl.takenOver (pcm : Bool) (calls : AacCalls) : List (List UInt8) :=
  if s.mft && pcm && calls.accepted then calls.packets else []

theorem encodeAac_out (pcm : Bool) (samples : Nat) (calls : AacCalls) (out : List UInt8) :
    (encodeAac (some s) pcm samples calls out).out =
      (s.takenOver pcm calls).foldl s.appendFrame out := by
  cases hmft : s.mft with
  | false => simp [encodeAac, AacImpl.takenOver, hmft]
  | true =>
      cases pcm with
      | false => simp [encodeAac, AacImpl.takenOver]
      | true =>
          cases haccepted : calls.accepted with
          | false => simp [encodeAac, AacImpl.takenOver, haccepted]
          | true =>
              simp only [encodeAac, AacImpl.takenOver, hmft, haccepted]
              cases calls.ends <;> rfl

/-- **Encoding appends**: whatever the calls return, the bytes already there stay, and a
reader of ADTS headers finds exactly the packets behind them, each with the rate's index
and the channels. -/
theorem encode_appends (hchannels : 1 ≤ s.channels.toNat ∧ s.channels.toNat ≤ 7)
    (pcm : Bool) (samples : Nat) {calls : AacCalls} (out : List UInt8)
    (hpackets : ∀ packet ∈ calls.packets, packet.length ≤ 8184) :
    ∃ appended, (encodeAac (some s) pcm samples calls out).out = out ++ appended ∧
      adtsFraming.split appended = (s.takenOver pcm calls).map (fun packet =>
        (((samplingFrequencyIndex s.rate).toNat, s.channels.toNat), packet)) ∧
      adtsFraming.rest appended = [] := by
  have htaken : ∀ packet ∈ s.takenOver pcm calls, packet.length ≤ 8184 := by
    unfold AacImpl.takenOver
    split
    · exact hpackets
    · simp
  have hnext : ∀ packet ∈ s.takenOver pcm calls, ∀ rest,
      adtsFraming.next (s.frame packet ++ rest) =
        some ((((samplingFrequencyIndex s.rate).toNat, s.channels.toNat), packet), rest) :=
    fun packet hmem => next_frame s (htaken packet hmem) (by omega)
  refine ⟨(s.takenOver pcm calls).flatMap s.frame, ?_, ?_, ?_⟩
  · rw [encodeAac_out, foldl_appendFrame s htaken]
  · exact (adtsFraming.split_flatMap hnext).1
  · exact adtsFraming.rest_flatMap hnext

end

theorem encode_appends_two :
    ((1 ≤ (2 : UInt16).toNat ∧ (2 : UInt16).toNat ≤ 7) ∧
        ∀ packet ∈ [[0x21, 0x10], []], packet.length ≤ 8184) ∧
      ∃ appended,
        (encodeAac (some { mft := true, rate := 44100 }) true 1024
          ⟨true, true, true, true, [[0x21, 0x10], []], .needMoreInput⟩ [7]).out = [7] ++ appended ∧
        adtsFraming.split appended = [((4, 2), [0x21, 0x10]), ((4, 2), [])] ∧
        adtsFraming.rest appended = [] :=
  ⟨by decide, encode_appends { mft := true, rate := 44100 } (by decide) true 1024 [7] (by decide)⟩

end TwinScreen.Host
