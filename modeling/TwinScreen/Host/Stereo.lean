import Mathlib.Data.List.Basic
import TwinScreen.Lib.LittleEndian
import TwinScreen.Lib.Store

/-!
# TwinScreen.Host.Stereo

`ConvertToStereo` of `host/src/audio/capture.cpp`, as the stores it makes in order,
each with the source bytes it is computed from.  The source is a little-endian
memory; what `FloatToS16` makes of the bits of a float is a parameter.

* `convertToStereo_samples` — the three integer depths read, narrow and widen alike.
-/

namespace TwinScreen.Host

open Lib

/-- `AudioCapture::CaptureFormat`. -/
structure CaptureFormat where
  rate : Nat := 48000
  channels : Nat := 2
  bits : Nat := 16
  isFloat : Bool := false
  deriving DecidableEq

/-- A sample and the offsets of the bytes it is computed from. -/
structure Sample where
  reads : List Nat
  value : Int16
  deriving DecidableEq

/-- A store of one sample to an element of `out`. -/
structure SampleStore where
  reads : List Nat
  index : Nat
  value : Int16
  deriving DecidableEq

def Sample.store (s : Sample) (index : Nat) : SampleStore := ⟨s.reads, index, s.value⟩

def SampleStore.write (s : SampleStore) : Nat × Int16 := (s.index, s.value)

/-- The offsets of `n` bytes. -/
def span (offset n : Nat) : List Nat := (List.range n).map (offset + ·)

section

variable (src : Nat → UInt8)

/-- The signed number in `n` bytes of memory. -/
def signedAt (offset n : Nat) : Int := leInt ((span offset n).map src)

/-- An element of `const int16_t* p`, used as it is. -/
def sample16 (j : Nat) : Sample := ⟨span (2 * j) 2, Int16.ofInt (signedAt src (2 * j) 2)⟩

/-- An element of `const int32_t* p`, shifted right by 16. -/
def sample32 (j : Nat) : Sample :=
  ⟨span (4 * j) 4, (Int32.ofInt (signedAt src (4 * j) 4) >>> 16).toInt16⟩

/-- Three bytes put together as an `int32_t`, sign extended by hand. -/
def int24 (l0 l1 l2 : UInt8) : Int32 :=
  let v : UInt32 := l0.toUInt32 ||| l1.toUInt32 <<< 8 ||| l2.toUInt32 <<< 16
  let v := if l2 &&& 0x80 ≠ 0 then v ||| 0xFF000000 else v
  v.toInt32

/-- The three bytes at `l`, shifted right by 8. -/
def sample24 (l : Nat) : Sample :=
  ⟨[l, l + 1, l + 2], (int24 (src l) (src (l + 1)) (src (l + 2)) >>> 8).toInt16⟩

variable (frames channels : Nat)

/-- A loop over the frames: the first channel's element goes to the left, the second's,
if there is one, to the right. -/
def stereoLoop (element : Nat → Sample) : List SampleStore :=
  (List.range frames).flatMap fun i =>
    let l := element (i * channels)
    let r := if channels > 1 then element (i * channels + 1) else l
    [l.store (i * 2), r.store (i * 2 + 1)]

/-- The loop over floats, four bytes each. -/
def convertFloat (floatToS16 : UInt32 → Int16) : List SampleStore :=
  stereoLoop frames channels fun j =>
    ⟨span (4 * j) 4, floatToS16 (UInt32.ofNat (leNat ((span (4 * j) 4).map src)))⟩

def convert16 : List SampleStore := stereoLoop frames channels (sample16 src)

def convert32 : List SampleStore := stereoLoop frames channels (sample32 src)

/-- The loop over three-byte samples goes by byte pointers. -/
def convert24 : List SampleStore :=
  (List.range frames).flatMap fun i =>
    let l := i * channels * 3
    let lv := sample24 src l
    let rv := if channels > 1 then sample24 src (l + 3) else lv
    [lv.store (i * 2), rv.store (i * 2 + 1)]

/-- `ConvertToStereo`: other depths are silence. -/
def convertToStereo (floatToS16 : UInt32 → Int16) (fmt : CaptureFormat) : List SampleStore :=
  if fmt.isFloat then convertFloat src frames fmt.channels floatToS16
  else if fmt.bits = 16 then convert16 src frames fmt.channels
  else if fmt.bits = 32 then convert32 src frames fmt.channels
  else if fmt.bits = 24 then convert24 src frames fmt.channels
  else (List.range (frames * 2)).map fun k => ⟨[], k, 0⟩

end

/-! ## what the output is -/

/-- What element `j` comes to with 16 bits: the signed number, floor-divided. -/
def sampleValue (src : Nat → UInt8) (bits j : Nat) : Int :=
  signedAt src (bits / 8 * j) (bits / 8) / 2 ^ (bits - 16)

/-- The source is read within its samples, and each frame's first two channels go to
`out`, the first twice where there is no other. -/
structure ConvertsChannels (src : Nat → UInt8) (frames channels bits : Nat)
    (stores : List SampleStore) : Prop where
  reads : ∀ s ∈ stores, ∀ a ∈ s.reads, a < frames * channels * bits / 8
  writes : (stores.map fun s => (s.index, s.value.toInt)) =
    (List.range frames).flatMap fun i =>
      [(i * 2, sampleValue src bits (i * channels)),
        (i * 2 + 1, sampleValue src bits (i * channels + if channels > 1 then 1 else 0))]

/-- A buffer of 16-bit samples as one of `bits`: zero bytes below those of each sample. -/
def widened (bits : Nat) (src : Nat → UInt8) (a : Nat) : UInt8 :=
  let n := bits / 8
  if a % n < n - 2 then 0 else src (2 * (a / n) + (a % n - (n - 2)))

/-! ## one sample -/

theorem length_span (offset n : Nat) : (span offset n).length = n := by
  simp [span]

theorem lt_of_mem_span {a offset n : Nat} (h : a ∈ span offset n) : a < offset + n := by
  simp only [span, List.mem_map, List.mem_range] at h
  omega

section

variable (src : Nat → UInt8)

theorem toInt_ofInt32_signedAt (offset : Nat) :
    (Int32.ofInt (signedAt src offset 4)).toInt = signedAt src offset 4 := by
  rw [Int32.toInt_ofInt, signedAt, leInt, List.length_map, length_span]
  exact Int.bmod_bmod

theorem toInt_sample16 (j : Nat) : (sample16 src j).value.toInt = signedAt src (2 * j) 2 := by
  rw [sample16, Int16.toInt_ofInt, signedAt, leInt, List.length_map, length_span]
  exact Int.bmod_bmod

/-- A right shift that leaves 16 bits is a division, and the cast keeps it. -/
theorem toInt_shift_toInt16 {x k : Int32} {n : Nat} (hk : (k.toBitVec.smod 32).toNat = n)
    (hlow : -2 ^ 15 ≤ x.toInt / 2 ^ n) (hhigh : x.toInt / 2 ^ n < 2 ^ 15) :
    (x >>> k).toInt16.toInt = x.toInt / 2 ^ n := by
  have hshift : (x >>> k).toInt = x.toInt / 2 ^ n := by
    show (x >>> k).toBitVec.toInt = _
    rw [Int32.toBitVec_shiftRight, BitVec.toInt_sshiftRight', hk, Int.shiftRight_eq_div_pow]
    norm_cast
  rw [Int32.toInt_toInt16, hshift]
  exact Int.bmod_eq_of_le (by omega) (by omega)

theorem signedAt_bounds (offset n : Nat) :
    -(256 ^ n : Nat) ≤ 2 * signedAt src offset n ∧ 2 * signedAt src offset n < (256 ^ n : Nat) := by
  rw [signedAt, leInt, List.length_map, length_span]
  have hpos : 0 < 256 ^ n := Nat.pow_pos (by decide)
  have hlow := Int.le_bmod (x := leNat ((span offset n).map src)) hpos
  have hhigh := Int.bmod_lt (x := leNat ((span offset n).map src)) hpos
  omega

theorem toInt_sample32 (j : Nat) :
    (sample32 src j).value.toInt = signedAt src (4 * j) 4 / 2 ^ 16 := by
  have hbounds := signedAt_bounds src (4 * j) 4
  have hint := toInt_ofInt32_signedAt src (4 * j)
  rw [sample32, toInt_shift_toInt16 (n := 16) (by decide) (by omega) (by omega), hint]

end

/-- The bytes of a three-byte number do not overlap. -/
theorem toNat_or_bytes (l0 l1 l2 : UInt8) :
    (l0.toUInt32 ||| l1.toUInt32 <<< 8 ||| l2.toUInt32 <<< 16).toNat = leNat [l0, l1, l2] := by
  have h0 := l0.toNat_lt
  have h1 := l1.toNat_lt
  have h2 := l2.toNat_lt
  have hshift1 : (l1.toUInt32 <<< 8).toNat = l1.toNat <<< 8 := by
    rw [UInt32.toNat_shiftLeft, UInt8.toNat_toUInt32]
    show l1.toNat <<< 8 % 2 ^ 32 = _
    rw [Nat.shiftLeft_eq]
    omega
  have hshift2 : (l2.toUInt32 <<< 16).toNat = l2.toNat <<< 16 := by
    rw [UInt32.toNat_shiftLeft, UInt8.toNat_toUInt32]
    show l2.toNat <<< 16 % 2 ^ 32 = _
    rw [Nat.shiftLeft_eq]
    omega
  rw [UInt32.toNat_or, UInt32.toNat_or, hshift1, hshift2, UInt8.toNat_toUInt32,
    or_shiftLeft (k := 8) h0, or_shiftLeft (k := 16) (by omega)]
  simp only [leNat_cons, leNat_nil]
  omega

theorem and_0x80_ne_zero_iff (b : UInt8) : b &&& 0x80 ≠ 0 ↔ 128 ≤ b.toNat := by
  have hbits : (b &&& 0x80).toNat = b.toNat / 2 ^ 7 * 2 ^ 7 := by
    rw [UInt8.toNat_and]
    exact and_highMask (k := 7) (m := 1) b.toNat_lt
  rw [Ne, ← UInt8.toNat_inj, hbits]
  show ¬ b.toNat / 2 ^ 7 * 2 ^ 7 = 0 ↔ _
  omega

/-- Sign extended by hand, three bytes are the number they hold. -/
theorem toInt_int24 (l0 l1 l2 : UInt8) : (int24 l0 l1 l2).toInt = leInt [l0, l1, l2] := by
  have hbytes := toNat_or_bytes l0 l1 l2
  have h0 := l0.toNat_lt
  have h1 := l1.toNat_lt
  have h2 := l2.toNat_lt
  have htop : leNat [l0, l1, l2] = l0.toNat + 256 * l1.toNat + 65536 * l2.toNat := by
    simp only [leNat_cons, leNat_nil]
    omega
  have hlt : leNat [l0, l1, l2] < 2 ^ 24 := by omega
  have hsigned := bmod_of_lt hlt
  rw [leInt, List.length_cons, List.length_cons, List.length_singleton,
    show 256 ^ (1 + 1 + 1) = 2 ^ 24 by norm_num, hsigned]
  have hread (v : UInt32) : v.toInt32.toInt = (v.toNat : Int).bmod (2 ^ 32 : Nat) := by
    show v.toInt32.toBitVec.toInt = _
    rw [UInt32.toBitVec_toInt32, BitVec.toInt_eq_toNat_bmod]
    rfl
  simp only [int24]
  split
  case isTrue hsign =>
    rw [and_0x80_ne_zero_iff] at hsign
    have hset : (l0.toUInt32 ||| l1.toUInt32 <<< 8 ||| l2.toUInt32 <<< 16 ||| 0xFF000000).toNat =
        leNat [l0, l1, l2] + 255 * 2 ^ 24 := by
      rw [UInt32.toNat_or, hbytes]
      exact or_shiftLeft hlt 255
    rw [hread, hset, bmod_of_lt (by omega), if_neg (by omega), if_neg (by omega)]
    omega
  case isFalse hsign =>
    rw [and_0x80_ne_zero_iff] at hsign
    rw [hread, hbytes, bmod_of_lt (by omega), if_pos (by omega), if_pos (by omega)]

section

variable (src : Nat → UInt8)

theorem toInt_sample24 (l : Nat) :
    (sample24 src l).value.toInt = signedAt src l 3 / 2 ^ 8 := by
  have hint : (int24 (src l) (src (l + 1)) (src (l + 2))).toInt = signedAt src l 3 :=
    toInt_int24 _ _ _
  have hbounds := signedAt_bounds src l 3
  rw [sample24, toInt_shift_toInt16 (n := 8) (by decide) (by omega) (by omega), hint]

theorem convert24_eq (frames channels : Nat) :
    convert24 src frames channels = stereoLoop frames channels fun j => sample24 src (3 * j) := by
  rw [convert24, stereoLoop]
  apply List.flatMap_congr
  intro i _
  have hleft : i * channels * 3 = 3 * (i * channels) := by omega
  simp only [hleft, Nat.mul_add_one]

/-- The loop over elements that are read at their place and come to their value. -/
theorem convertsChannels_stereoLoop {frames channels bits : Nat} (hchannels : 0 < channels)
    (hbits : 8 ∣ bits) {element : Nat → Sample}
    (hreads : ∀ j, (element j).reads = span (bits / 8 * j) (bits / 8))
    (hvalue : ∀ j, (element j).value.toInt = sampleValue src bits j) :
    ConvertsChannels src frames channels bits (stereoLoop frames channels element) where
  reads := by
    obtain ⟨n, rfl⟩ := hbits
    rw [Nat.mul_div_cancel_left n (by decide)] at hreads
    have helement {i j a : Nat} (hi : i < frames) (hj : j < channels)
        (ha : a ∈ (element (i * channels + j)).reads) : a < frames * channels * (8 * n) / 8 := by
      rw [hreads] at ha
      have hspan := lt_of_mem_span ha
      have hindex : i * channels + j + 1 ≤ frames * channels := by
        have hrow := Nat.mul_le_mul_right channels (Nat.succ_le_of_lt hi)
        rw [Nat.succ_mul] at hrow
        omega
      have hbytes := Nat.mul_le_mul_left n hindex
      rw [Nat.mul_left_comm, Nat.mul_div_cancel_left _ (by decide), Nat.mul_comm _ n]
      rw [Nat.mul_add_one] at hbytes
      omega
    simp only [stereoLoop, List.forall_mem_flatMap, List.mem_range, List.forall_mem_cons,
      List.not_mem_nil, false_imp_iff, implies_true, and_true, Sample.store]
    intro i hi
    constructor
    · exact fun a ha => helement (j := 0) hi hchannels ha
    · intro a ha
      split at ha
      · exact helement (j := 1) hi (by omega) ha
      · exact helement (j := 0) hi hchannels ha
  writes := by
    simp only [stereoLoop, List.map_flatMap, List.map_cons, List.map_nil, Sample.store, hvalue]
    apply List.flatMap_congr
    intro i _
    split <;> simp only [hvalue, Nat.add_zero]

/-- The three integer depths. -/
theorem convertsChannels_of_int {fmt : CaptureFormat} (hint : fmt.isFloat = false)
    (hbits : fmt.bits = 16 ∨ fmt.bits = 24 ∨ fmt.bits = 32) (hchannels : 0 < fmt.channels)
    (floatToS16 : UInt32 → Int16) (frames : Nat) :
    ConvertsChannels src frames fmt.channels fmt.bits
      (convertToStereo src frames floatToS16 fmt) := by
  unfold convertToStereo
  rw [hint]
  rcases hbits with hbits | hbits | hbits
  · simp only [hbits, Bool.false_eq_true, if_false, if_true, convert16]
    apply convertsChannels_stereoLoop src hchannels (by decide) (fun j => rfl)
    intro j
    rw [toInt_sample16, sampleValue]
    simp
  · simp only [hbits, Bool.false_eq_true, if_false, if_true, convert24_eq, Nat.reduceEqDiff]
    apply convertsChannels_stereoLoop src hchannels (by decide) (fun j => rfl)
    intro j
    rw [toInt_sample24, sampleValue]
  · simp only [hbits, Bool.false_eq_true, if_false, if_true, convert32, Nat.reduceEqDiff]
    apply convertsChannels_stereoLoop src hchannels (by decide) (fun j => rfl)
    intro j
    rw [toInt_sample32, sampleValue]

/-! ## widened samples -/

variable {src}

theorem widened_mul_add {n k : Nat} (hk : k < n) (j : Nat) :
    widened (8 * n) src (n * j + k) = if k < n - 2 then 0 else src (2 * j + (k - (n - 2))) := by
  have hmod : (n * j + k) % n = k := by
    rw [Nat.mul_add_mod, Nat.mod_eq_of_lt hk]
  have hdiv : (n * j + k) / n = j := by
    rw [Nat.mul_add_div (by omega), Nat.div_eq_of_lt hk, Nat.add_zero]
  simp only [widened, Nat.mul_div_cancel_left n (show 0 < 8 by decide), hmod, hdiv]

/-- The bytes of a widened sample. -/
theorem map_span_widened (m j : Nat) :
    (span ((m + 2) * j) (m + 2)).map (widened (8 * (m + 2)) src) =
      List.replicate m 0 ++ (span (2 * j) 2).map src := by
  have hbytes : (span ((m + 2) * j) (m + 2)).map (widened (8 * (m + 2)) src) =
      (List.range (m + 2)).map fun k => if k < m then 0 else src (2 * j + (k - m)) := by
    rw [span, List.map_map]
    apply List.map_congr_left
    intro k hk
    exact widened_mul_add (List.mem_range.mp hk) j
  have hzeros : ((List.range m).map fun k => if k < m then 0 else src (2 * j + (k - m))) =
      List.replicate m 0 := by
    rw [List.eq_replicate_iff]
    simp +contextual
  rw [hbytes, List.range_succ, List.range_succ, List.map_append, List.map_append, hzeros]
  simp [span, List.range_succ]

/-- A widened sample is the sample times the factor of the width. -/
theorem sampleValue_widened (m j : Nat) :
    sampleValue (widened (8 * (m + 2)) src) (8 * (m + 2)) j = sampleValue src 16 j := by
  have hsigned : signedAt (widened (8 * (m + 2)) src) ((m + 2) * j) (m + 2) =
      256 ^ m * signedAt src (2 * j) 2 := by
    rw [signedAt, map_span_widened, leInt_zeros_append, signedAt]
  have hfactor : (2 : Int) ^ (8 * (m + 2) - 16) = 256 ^ m := by
    rw [show 8 * (m + 2) - 16 = 8 * m by omega, pow_mul]
    norm_num
  have hpos : (256 : Int) ^ m ≠ 0 := by positivity
  rw [sampleValue, sampleValue, Nat.mul_div_cancel_left _ (by decide), hsigned, hfactor,
    Int.mul_ediv_cancel_left _ hpos]
  simp

/-- The output is determined by the values it comes to. -/
theorem writes_eq_of_toInt {stores stores' : List SampleStore}
    (h : (stores.map fun s => (s.index, s.value.toInt)) =
      stores'.map fun s => (s.index, s.value.toInt)) :
    stores.map SampleStore.write = stores'.map SampleStore.write := by
  have hinj (x y : Nat × Int16) (heq : (x.1, x.2.toInt) = (y.1, y.2.toInt)) : x = y := by
    rw [Prod.mk.injEq] at heq
    exact Prod.ext heq.1 (Int16.toInt_inj.mp heq.2)
  have hmap (l : List SampleStore) : (l.map fun s => (s.index, s.value.toInt)) =
      (l.map SampleStore.write).map fun w => (w.1, w.2.toInt) := by
    rw [List.map_map]
    rfl
  rw [hmap, hmap] at h
  exact (List.map_inj_right hinj).mp h

end

/-- **The integer depths**: `ConvertToStereo` reads within the buffer and writes the
first two channels' samples, narrowed to 16 bits; a buffer widened from 16 bits gives
what the 16-bit one gives. -/
theorem convertToStereo_samples {fmt : CaptureFormat} (hint : fmt.isFloat = false)
    (hbits : fmt.bits = 16 ∨ fmt.bits = 24 ∨ fmt.bits = 32) (hchannels : 0 < fmt.channels)
    (floatToS16 : UInt32 → Int16) (src : Nat → UInt8) (frames : Nat) :
    ConvertsChannels src frames fmt.channels fmt.bits
        (convertToStereo src frames floatToS16 fmt) ∧
      (convertToStereo (widened fmt.bits src) frames floatToS16 fmt).map SampleStore.write =
        (convertToStereo src frames floatToS16 { fmt with bits := 16 }).map SampleStore.write := by
  constructor
  · exact convertsChannels_of_int src hint hbits hchannels floatToS16 frames
  · apply writes_eq_of_toInt
    have hwide := convertsChannels_of_int (widened fmt.bits src) hint hbits hchannels floatToS16
      frames
    have hnarrow := @convertsChannels_of_int src { fmt with bits := 16 } hint (.inl rfl) hchannels
      floatToS16 frames
    have hvalue (j : Nat) :
        sampleValue (widened fmt.bits src) fmt.bits j = sampleValue src 16 j := by
      obtain ⟨m, hm⟩ : ∃ m, fmt.bits = 8 * (m + 2) := ⟨fmt.bits / 8 - 2, by omega⟩
      rw [hm]
      exact sampleValue_widened m j
    rw [hwide.writes, hnarrow.writes]
    simp only [hvalue]

theorem convertToStereo_samples_24 :
    ((⟨48000, 3, 24, false⟩ : CaptureFormat).isFloat = false ∧ (24 = 16 ∨ 24 = 24 ∨ 24 = 32) ∧
        0 < 3) ∧
      ConvertsChannels (fun a => UInt8.ofNat (100 * a)) 2 3 24
        (convertToStereo (fun a => UInt8.ofNat (100 * a)) 2 (fun _ => 0) ⟨48000, 3, 24, false⟩) :=
  ⟨by decide, (@convertToStereo_samples ⟨48000, 3, 24, false⟩ (by decide) (by decide)
    (by decide) (fun _ => 0) (fun a => UInt8.ofNat (100 * a)) 2).1⟩

/-- Negative samples of three channels at 24 bits, and of one at 32. -/
example : (convertToStereo (fun a => [0, 0, 0x80, 1, 0xFF, 0xFF, 9, 9, 9].getD a 0) 1 (fun _ => 0)
      ⟨48000, 3, 24, false⟩).map SampleStore.write = [(0, -32768), (1, -1)] ∧
    (convertToStereo (fun a => [7, 7, 0xFE, 0xFF].getD a 0) 1 (fun _ => 0)
      ⟨48000, 1, 32, false⟩).map SampleStore.write = [(0, -2), (1, -2)] := by
  decide

end TwinScreen.Host
