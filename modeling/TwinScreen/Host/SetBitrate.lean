import TwinScreen.Host.Inbound
import TwinScreen.Host.Resize

/-!
# TwinScreen.Host.SetBitrate

A bitrate that the tablet asks for, from the message to the fields that the hardware
encoders hand to their drivers: `ClampBitrate` keeps it where no field of 16 bits and no
product of 32 bits cuts it off.

* `bitrate_reaches_encoders` — every field is exact, and follows the value asked for.
-/

namespace TwinScreen.Host

open Lib Lib.Attempt

/-! ## the message -/

/-- The payload of an SP_CTL_SET_BITRATE message. -/
structure SetsBitrate (payload : List UInt8) : Prop where
  size : spControlSize ≤ payload.length
  type : u8At payload 0 = spCtlSetBitrate

/-- The value it asks for. -/
def asked (payload : List UInt8) : UInt32 := u32At payload 4

theorem dispatch_setBitrate {payload : List UInt8} (h : SetsBitrate payload) :
    dispatch spMsgControl payload = .setBitrate (clampBitrate (asked payload)) := by
  have hother : ¬ (spMsgControl = spMsgInputBatch ∧ spInputBatchSize ≤ payload.length) :=
    fun hbatch => absurd hbatch.1 (by decide)
  rw [dispatch, if_neg hother, if_neg (by decide), if_pos rfl, if_pos h.size, if_pos h.type]
  rfl

theorem toNat_clampBitrate (b : UInt32) :
    (clampBitrate b).toNat = max 250000 (min b.toNat 40000000) := by
  have hmin : (250000 : UInt32).toNat = 250000 := rfl
  have hmax : (40000000 : UInt32).toNat = 40000000 := rfl
  unfold clampBitrate
  dsimp only
  split
  · next hlow =>
      rw [UInt32.lt_iff_toNat_lt] at hlow
      omega
  · next hlow =>
      rw [UInt32.lt_iff_toNat_lt] at hlow
      split
      · next hhigh =>
          rw [UInt32.lt_iff_toNat_lt] at hhigh
          omega
      · next hhigh =>
          rw [UInt32.lt_iff_toNat_lt] at hhigh
          omega

/-- A bitrate within the limits of `ClampBitrate`. -/
def InLimits (b : UInt32) : Prop := 250000 ≤ b.toNat ∧ b.toNat ≤ 40000000

theorem inLimits_clampBitrate (b : UInt32) : InLimits (clampBitrate b) := by
  rw [InLimits, toNat_clampBitrate]
  omega

theorem toNat_clampBitrate_mono {b b' : UInt32} (h : b ≤ b') :
    (clampBitrate b).toNat ≤ (clampBitrate b').toNat := by
  rw [UInt32.le_iff_toNat_le] at h
  rw [toNat_clampBitrate, toNat_clampBitrate]
  omega

/-! ## what the encoders make of it -/

/-- The peak rate does not wrap around in 32 bits. -/
theorem toNat_peak {b : UInt32} (h : InLimits b) : (b * 12 / 10).toNat = 12 * b.toNat / 10 := by
  have hhigh := h.2
  rw [UInt32.toNat_div, UInt32.toNat_mul]
  show b.toNat * 12 % 2 ^ 32 / 10 = _
  omega

/-- The rate control fields of Quick Sync are those of a bitrate. -/
structure Qsv.RatesOf (b : Nat) (p : Qsv.MfxParam) : Prop where
  target : p.targetKbps.toNat = b / 1000
  max : p.maxKbps.toNat = 12 * b / 10 / 1000
  buffer : p.bufferSizeInKB.toNat = b / 30 / 1000
  ordered : p.targetKbps ≤ p.maxKbps
  positive : 1 ≤ p.targetKbps ∧ 1 ≤ p.bufferSizeInKB

/-- The rate control fields of NVENC are those of a bitrate. -/
structure Nvenc.RatesOf (b : Nat) (c : Nvenc.NvConfig) : Prop where
  average : c.averageBitRate.toNat = b
  max : c.maxBitRate.toNat = 12 * b / 10
  buffer : c.vbvBufferSize.toNat = b / 30
  delay : c.vbvInitialDelay = c.vbvBufferSize
  positive : 0 < c.vbvBufferSize

theorem Qsv.ratesOf_withBitrate {b : UInt32} (h : InLimits b) (p : Qsv.MfxParam) :
    Qsv.RatesOf b.toNat (p.withBitrate b 30) := by
  obtain ⟨hlow, hhigh⟩ := h
  have hthousand : (1000 : UInt32).toNat = 1000 := rfl
  have hthirty : (30 : UInt32).toNat = 30 := rfl
  have htarget : (b / 1000).toUInt16.toNat = b.toNat / 1000 := by
    rw [UInt32.toNat_toUInt16, UInt32.toNat_div, hthousand]
    omega
  have hmax : (b * 12 / 10 / 1000).toUInt16.toNat = 12 * b.toNat / 10 / 1000 := by
    rw [UInt32.toNat_toUInt16, UInt32.toNat_div, toNat_peak ⟨hlow, hhigh⟩,
      hthousand]
    omega
  have hquot : (b / 30 / 1000).toNat = b.toNat / 30 / 1000 := by
    rw [UInt32.toNat_div, UInt32.toNat_div, hthirty, hthousand]
  have hbuffer : (max 1 (b / 30 / 1000)).toUInt16.toNat = b.toNat / 30 / 1000 := by
    have hpos : 1 ≤ b / 30 / 1000 := by
      rw [UInt32.le_iff_toNat_le, hquot]
      show 1 ≤ _
      omega
    show (if 1 ≤ b / 30 / 1000 then b / 30 / 1000 else 1).toUInt16.toNat = _
    rw [if_pos hpos, UInt32.toNat_toUInt16, hquot]
    omega
  refine ⟨htarget, hmax, hbuffer, ?_, ?_, ?_⟩
  · rw [UInt16.le_iff_toNat_le]
    show (b / 1000).toUInt16.toNat ≤ (b * 12 / 10 / 1000).toUInt16.toNat
    omega
  · rw [UInt16.le_iff_toNat_le]
    show 1 ≤ (b / 1000).toUInt16.toNat
    omega
  · rw [UInt16.le_iff_toNat_le]
    show 1 ≤ (max 1 (b / 30 / 1000)).toUInt16.toNat
    omega

theorem Nvenc.ratesOf_withBitrate {b : UInt32} (h : InLimits b) (c : Nvenc.NvConfig) :
    Nvenc.RatesOf b.toNat (c.withBitrate b 30) := by
  have hbuffer : (b / 30).toNat = b.toNat / 30 := UInt32.toNat_div b 30
  refine ⟨rfl, toNat_peak h, hbuffer, rfl, ?_⟩
  rw [UInt32.lt_iff_toNat_lt]
  show 0 < (b / 30).toNat
  have hlow := h.1
  omega

/-! ## the fields follow the value -/

/-- No rate of one set of fields is above that of another. -/
structure Qsv.MfxParam.RatesLe (p p' : Qsv.MfxParam) : Prop where
  target : p.targetKbps ≤ p'.targetKbps
  max : p.maxKbps ≤ p'.maxKbps
  buffer : p.bufferSizeInKB ≤ p'.bufferSizeInKB

structure Nvenc.NvConfig.RatesLe (c c' : Nvenc.NvConfig) : Prop where
  average : c.averageBitRate ≤ c'.averageBitRate
  max : c.maxBitRate ≤ c'.maxBitRate
  buffer : c.vbvBufferSize ≤ c'.vbvBufferSize

theorem Qsv.RatesOf.mono {b b' : Nat} {p p' : Qsv.MfxParam} (h : Qsv.RatesOf b p)
    (h' : Qsv.RatesOf b' p') (hle : b ≤ b') : p.RatesLe p' := by
  constructor
  · rw [UInt16.le_iff_toNat_le, h.target, h'.target]
    omega
  · rw [UInt16.le_iff_toNat_le, h.max, h'.max]
    omega
  · rw [UInt16.le_iff_toNat_le, h.buffer, h'.buffer]
    omega

theorem Nvenc.RatesOf.mono {b b' : Nat} {c c' : Nvenc.NvConfig} (h : Nvenc.RatesOf b c)
    (h' : Nvenc.RatesOf b' c') (hle : b ≤ b') : c.RatesLe c' := by
  constructor
  · rw [UInt32.le_iff_toNat_le, h.average, h'.average]
    exact hle
  · rw [UInt32.le_iff_toNat_le, h.max, h'.max]
    omega
  · rw [UInt32.le_iff_toNat_le, h.buffer, h'.buffer]
    omega

/-! ## from the message to the driver -/

/-- What `SetBitrate` of a running encoder hands on for a message, whether it is taken. -/
def Qsv.Sends (s : Qsv.QsvEncoder) (payload : List UInt8) (p : Qsv.MfxParam) : Prop :=
  ∃ b, dispatch spMsgControl payload = .setBitrate b ∧
    ∀ status, (Qsv.setBitrate b status s).2.2 = [.encodeReset s.session p status]

def Nvenc.Sends (s : Nvenc.NvEncoder) (payload : List UInt8) (c : Nvenc.NvConfig) : Prop :=
  ∃ b, dispatch spMsgControl payload = .setBitrate b ∧
    ∀ ok, (Nvenc.setBitrate b ok s).2.2 = [.reconfigure s.encoder s.initParams c ok]

def Amf.Sends (s : Amf.AmfEncoder) (payload : List UInt8) (target peak : Nat) : Prop :=
  ∃ b, dispatch spMsgControl payload = .setBitrate b ∧
    ∀ ok, (Amf.setBitrate b true ok s).2.2 =
      [.setProperty s.encoder (.targetBitrate target) true,
        .setProperty s.encoder (.peakBitrate peak) ok]

theorem Qsv.sends_of_running {s : Qsv.QsvEncoder} (hsession : s.session.isSome)
    (hconfigured : s.configured = true) (hreset : s.encReset = true) (hfps : s.fps = 30)
    {payload : List UInt8} (h : SetsBitrate payload) :
    ∃ p, Qsv.Sends s payload p ∧ Qsv.RatesOf (clampBitrate (asked payload)).toNat p := by
  refine ⟨_, ⟨_, dispatch_setBitrate h, fun status => ?_⟩,
    Qsv.ratesOf_withBitrate (inLimits_clampBitrate _) s.userParam⟩
  cases status <;>
    simp [Qsv.setBitrate, bind, state, check, outcome, issue, update, hsession, hconfigured,
      hreset, hfps]

theorem Nvenc.sends_of_running {s : Nvenc.NvEncoder} (hconfigured : s.configured = true)
    (hapi : s.api = true) (hfps : s.fps = 30) {payload : List UInt8} (h : SetsBitrate payload) :
    ∃ c, Nvenc.Sends s payload c ∧ Nvenc.RatesOf (clampBitrate (asked payload)).toNat c := by
  refine ⟨_, ⟨_, dispatch_setBitrate h, fun ok => ?_⟩,
    Nvenc.ratesOf_withBitrate (inLimits_clampBitrate _) s.config⟩
  cases ok <;>
    simp [Nvenc.setBitrate, bind, state, check, outcome, issue, update, hconfigured, hapi, hfps]

theorem Amf.sends_of_running {s : Amf.AmfEncoder} (hencoder : s.encoder.isSome)
    {payload : List UInt8} (h : SetsBitrate payload) :
    Amf.Sends s payload (clampBitrate (asked payload)).toNat
      ((clampBitrate (asked payload)).toNat * 12 / 10) := by
  refine ⟨_, dispatch_setBitrate h, fun ok => ?_⟩
  cases ok <;>
    simp [Amf.setBitrate, Amf.setProperty, bind, state, check, outcome, issue, update, hencoder,
      Amf.AmfEncoder.apply]

/-- **A bitrate reaches every encoder**: whatever two messages ask for, the fields that a
running encoder at 30 frames a second hands to its driver are exactly those of the clamped
bitrate, and the message that asks for no less gets no less. -/
theorem bitrate_reaches_encoders {payload payload' : List UInt8} (h : SetsBitrate payload)
    (h' : SetsBitrate payload') (hle : asked payload ≤ asked payload') :
    (∀ s : Qsv.QsvEncoder, s.session.isSome → s.configured = true → s.encReset = true →
      s.fps = 30 → ∃ p p', Qsv.Sends s payload p ∧ Qsv.Sends s payload' p' ∧
        Qsv.RatesOf (clampBitrate (asked payload)).toNat p ∧ p.RatesLe p') ∧
    (∀ s : Nvenc.NvEncoder, s.configured = true → s.api = true → s.fps = 30 →
      ∃ c c', Nvenc.Sends s payload c ∧ Nvenc.Sends s payload' c' ∧
        Nvenc.RatesOf (clampBitrate (asked payload)).toNat c ∧ c.RatesLe c') ∧
    (∀ s : Amf.AmfEncoder, s.encoder.isSome →
      Amf.Sends s payload (clampBitrate (asked payload)).toNat
        ((clampBitrate (asked payload)).toNat * 12 / 10)) ∧
    (clampBitrate (asked payload)).toNat ≤ (clampBitrate (asked payload')).toNat := by
  have hmono := toNat_clampBitrate_mono hle
  refine ⟨?_, ?_, fun s hencoder => Amf.sends_of_running hencoder h, hmono⟩
  · intro s hsession hconfigured hreset hfps
    obtain ⟨p, hp, hrates⟩ := Qsv.sends_of_running hsession hconfigured hreset hfps h
    obtain ⟨p', hp', hrates'⟩ := Qsv.sends_of_running hsession hconfigured hreset hfps h'
    exact ⟨p, p', hp, hp', hrates, hrates.mono hrates' hmono⟩
  · intro s hconfigured hapi hfps
    obtain ⟨c, hc, hrates⟩ := Nvenc.sends_of_running hconfigured hapi hfps h
    obtain ⟨c', hc', hrates'⟩ := Nvenc.sends_of_running hconfigured hapi hfps h'
    exact ⟨c, c', hc, hc', hrates, hrates.mono hrates' hmono⟩

/-- 20 Mbps, and the most that a message can ask for. -/
def twentyMbps : List UInt8 := [1, 0, 0, 0, 0x00, 0x2D, 0x31, 0x01]
def mostBitrate : List UInt8 := [1, 0, 0, 0, 0xFF, 0xFF, 0xFF, 0xFF]

theorem bitrate_reaches_encoders_mostBitrate :
    (∀ s : Qsv.QsvEncoder, s.session.isSome → s.configured = true → s.encReset = true →
      s.fps = 30 → ∃ p p', Qsv.Sends s twentyMbps p ∧ Qsv.Sends s mostBitrate p' ∧
        Qsv.RatesOf (clampBitrate (asked twentyMbps)).toNat p ∧ p.RatesLe p') ∧
    (∀ s : Nvenc.NvEncoder, s.configured = true → s.api = true → s.fps = 30 →
      ∃ c c', Nvenc.Sends s twentyMbps c ∧ Nvenc.Sends s mostBitrate c' ∧
        Nvenc.RatesOf (clampBitrate (asked twentyMbps)).toNat c ∧ c.RatesLe c') ∧
    (∀ s : Amf.AmfEncoder, s.encoder.isSome →
      Amf.Sends s twentyMbps (clampBitrate (asked twentyMbps)).toNat
        ((clampBitrate (asked twentyMbps)).toNat * 12 / 10)) ∧
    (clampBitrate (asked twentyMbps)).toNat ≤ (clampBitrate (asked mostBitrate)).toNat :=
  bitrate_reaches_encoders ⟨by decide, by decide⟩ ⟨by decide, by decide⟩ (by decide)

end TwinScreen.Host
