import Mathlib.Data.Rat.Floor
import Mathlib.NumberTheory.Padics.PadicVal.Basic
import TwinScreen.Lib.Phase

/-!
# TwinScreen.Host.Audio

The resampling part of the audio capture, `host/src/audio/capture.cpp`.  Packets
are met after `ConvertToStereo`; the phase and the ratio are exact rationals.
Every array access of `StereoResampler::Process` is recorded with its index, so
that an access out of bounds is a fact about a run and not a hole in the model.

* `resample_calls_safe_iff` — when every call keeps within its buffers.
* `not_exists_durationKept` — for no two different rates does the stream keep its
  duration.
-/

namespace TwinScreen.Host

open Lib

/-! ## the resampler -/

/-- `static_cast<int16_t>(v)` of a double in range: toward zero. -/
def truncS16 (v : ℚ) : Int16 := Int16.ofInt (v.num.tdiv v.den)

def lerpS16 (a b : Int16) (f : ℚ) : Int16 :=
  let v : ℚ := a.toInt + (b.toInt - a.toInt) * f
  let v := if v > 32767 then 32767 else v
  let v := if v < -32768 then -32768 else v
  truncS16 v

/-- The array accesses of one turn of `Process`'s loop: the indices of `in` it
reads, and the indices of `out` it writes with their values. -/
structure Turn where
  reads : List Nat
  writes : List (Nat × Int16)
  deriving DecidableEq

structure StereoResampler where
  ratio : ℚ
  phase : ℚ := 0
  deriving DecidableEq

/-- The body of `Process`'s loop, at a phase and with so many frames written.  A read
outside of `input` gives 0.  The cast of the phase to `size_t` is toward zero, which
is what `⌊·⌋₊` is above -1; from there down it is undefined in C++. -/
def turn (input : List Int16) (frames written : Nat) (phase : ℚ) : Turn :=
  let i0 := ⌊phase⌋₊
  let i1 := if i0 + 1 < frames then i0 + 1 else i0
  let frac := phase - i0
  let elem (i : Nat) : Int16 := input.getD i 0
  { reads := [i0 * 2, i1 * 2, i0 * 2 + 1, i1 * 2 + 1]
    writes := [(written * 2, lerpS16 (elem (i0 * 2)) (elem (i1 * 2)) frac),
      (written * 2 + 1, lerpS16 (elem (i0 * 2 + 1)) (elem (i1 * 2 + 1)) frac)] }

/-- The loop of `Process` with room for so many more frames: its turns, and the
phase it leaves. -/
def processLoop (ratio : ℚ) (input : List Int16) (frames : Nat) :
    Nat → Nat → ℚ → List Turn × ℚ
  | 0, _, phase => ([], phase)
  | room + 1, written, phase =>
      if phase < frames then
        let (turns, phase') := processLoop ratio input frames room (written + 1) (phase + ratio)
        (turn input frames written phase :: turns, phase')
      else ([], phase)

/-- `Process(in, frames, out, out_cap)`; the result counts the turns. -/
def StereoResampler.process (s : StereoResampler) (input : List Int16) (frames outCap : Nat) :
    List Turn × StereoResampler :=
  let (turns, phase) := processLoop s.ratio input frames outCap 0 s.phase
  (turns, { s with phase := phase - frames })

/-! ## the turns of one call -/

/-- Turn `k` of the loop stands `k` ratios after the phase it started from, and the
turns end with the room or with the phase at `frames`. -/
theorem processLoop_eq {ratio : ℚ} (hratio : 0 < ratio) (input : List Int16)
    (frames room written : Nat) (phase : ℚ) :
    processLoop ratio input frames room written phase =
      let n := min room ⌈((frames : ℚ) - phase) / ratio⌉₊
      ((List.range n).map fun k => turn input frames (written + k) (phase + k * ratio),
        phase + n * ratio) := by
  induction room generalizing written phase with
  | zero => simp [processLoop]
  | succ room ih =>
      by_cases hlt : phase < frames
      · have hrest : ((frames : ℚ) - (phase + ratio)) / ratio = (frames - phase) / ratio - 1 := by
          field_simp
          ring
        have hpos : 0 < ⌈((frames : ℚ) - phase) / ratio⌉₊ :=
          Nat.ceil_pos.mpr (div_pos (sub_pos.mpr hlt) hratio)
        have hcount : min (room + 1) ⌈((frames : ℚ) - phase) / ratio⌉₊ =
            min room ⌈((frames : ℚ) - (phase + ratio)) / ratio⌉₊ + 1 := by
          rw [hrest, Nat.ceil_sub_one]
          omega
        simp only [processLoop, if_pos hlt, ih, hcount, List.range_succ_eq_map, List.map_cons,
          List.map_map]
        congr 1
        · congr 1
          · simp
          · apply List.map_congr_left
            intro k _
            simp only [Function.comp, Nat.succ_eq_add_one]
            push_cast
            congr 1
            · omega
            · ring
        · push_cast
          ring
      · have hzero : ⌈((frames : ℚ) - phase) / ratio⌉₊ = 0 :=
          Nat.ceil_eq_zero.mpr (div_nonpos_of_nonpos_of_nonneg (by linarith) hratio.le)
        simp [processLoop, hlt, hzero]

namespace StereoResampler

variable {s : StereoResampler} (hratio : 0 < s.ratio) (input : List Int16) (frames outCap : Nat)
include hratio

/-- The turns of a call and the phase it carries on. -/
theorem process_eq :
    s.process input frames outCap =
      let n := min outCap ⌈((frames : ℚ) - s.phase) / s.ratio⌉₊
      ((List.range n).map fun k => turn input frames k (s.phase + k * s.ratio),
        { s with phase := s.phase + n * s.ratio - frames }) := by
  simp [process, processLoop_eq hratio]

theorem length_process :
    (s.process input frames outCap).1.length =
      min outCap ⌈((frames : ℚ) - s.phase) / s.ratio⌉₊ := by
  simp [process_eq hratio]

/-- From a phase that is not negative, a call reads only within its packet. -/
theorem process_reads_lt (hphase : 0 ≤ s.phase) :
    ∀ t ∈ (s.process input frames outCap).1, ∀ i ∈ t.reads, i < 2 * frames := by
  intro t ht
  simp only [process_eq hratio, List.mem_map, List.mem_range] at ht
  obtain ⟨k, hk, rfl⟩ := ht
  have hceil : k < ⌈((frames : ℚ) - s.phase) / s.ratio⌉₊ := by omega
  have hlt : s.phase + k * s.ratio < frames := by
    rw [Nat.lt_ceil, lt_div_iff₀ hratio] at hceil
    linarith
  have hi0 : ⌊s.phase + k * s.ratio⌋₊ < frames := (Nat.floor_lt (by positivity)).mpr hlt
  simp only [turn, List.mem_cons, List.not_mem_nil, or_false]
  grind

/-- A call writes within `out` exactly when its two samples a turn fit. -/
theorem process_writes_lt_iff (size : Nat) :
    (∀ t ∈ (s.process input frames outCap).1, ∀ w ∈ t.writes, w.1 < size) ↔
      2 * (s.process input frames outCap).1.length ≤ size := by
  rw [length_process hratio, process_eq hratio]
  simp only [List.forall_mem_map, List.mem_range, turn, List.forall_mem_cons, List.not_mem_nil,
    false_implies, implies_true, and_true]
  generalize min outCap ⌈((frames : ℚ) - s.phase) / s.ratio⌉₊ = n
  constructor
  · intro h
    cases n with
    | zero => omega
    | succ n => have := h n (by omega); omega
  · intro h k hk
    omega

end StereoResampler

/-! ## the capture loop -/

/-- Stereo samples one after the other: left, right, left, right. -/
def interleave (pairs : List (Int16 × Int16)) : List Int16 := pairs.flatMap fun p => [p.1, p.2]

/-- A call of `Process` as `CaptureLoop` makes it: the phase it starts from, its
`frames`, the number of elements of `rtmp`, and its turns. -/
structure ProcessCall where
  phase : ℚ
  frames : Nat
  outSize : Nat
  turns : List Turn
  deriving DecidableEq

/-- `rtmp` after the call; a write outside of it is lost. -/
def ProcessCall.rtmp (c : ProcessCall) : List Int16 :=
  (c.turns.flatMap Turn.writes).foldl (fun buf w => buf.set w.1 w.2) (List.replicate c.outSize 0)

/-- The call of `Process` for a packet, with an `rtmp` sized for it, and the resampler
after it. -/
def resample (ratio : ℚ) (s : StereoResampler) (packet : List (Int16 × Int16)) :
    StereoResampler × ProcessCall :=
  let outSize := ⌊packet.length * ratio⌋₊ + 8
  let (turns, s') := s.process (interleave packet) packet.length outSize
  (s', ⟨s.phase, packet.length, outSize, turns⟩)

/-- One packet of `CaptureLoop`: the resampler after it, the call of `Process` if
one is made, and the samples appended to `acc`. -/
def onPacket (deviceRate targetRate : Nat) (s : StereoResampler) (packet : List (Int16 × Int16)) :
    StereoResampler × Option ProcessCall × List Int16 :=
  if packet.length > 0 then
    if deviceRate = targetRate then (s, none, interleave packet)
    else
      let (s', call) := resample (targetRate / deviceRate) s packet
      (s', some call, call.rtmp.take call.turns.length)
  else (s, none, [])

/-- The packets of a run in order: for each, its call of `Process` and what it
appends to `acc`. -/
def onPackets (deviceRate targetRate : Nat) :
    StereoResampler → List (List (Int16 × Int16)) → List (Option ProcessCall × List Int16)
  | _, [] => []
  | s, packet :: packets =>
      let (s', out) := onPacket deviceRate targetRate s packet
      out :: onPackets deviceRate targetRate s' packets

/-- The resampler `CaptureLoop` starts with. -/
def resamplerFor (deviceRate targetRate : Nat) : StereoResampler where
  ratio := targetRate / deviceRate

/-- The calls of `Process` over a run. -/
def resampleCalls (deviceRate targetRate : Nat) (packets : List (List (Int16 × Int16))) :
    List ProcessCall :=
  (onPackets deviceRate targetRate (resamplerFor deviceRate targetRate) packets).filterMap Prod.fst

/-- What a run appends to `acc`. -/
def appended (deviceRate targetRate : Nat) (packets : List (List (Int16 × Int16))) : List Int16 :=
  (onPackets deviceRate targetRate (resamplerFor deviceRate targetRate) packets).flatMap Prod.snd

/-- The stereo frames of a run's packets. -/
def frameTotal (packets : List (List (Int16 × Int16))) : Nat := (packets.map List.length).sum

@[simp] theorem length_interleave (pairs : List (Int16 × Int16)) :
    (interleave pairs).length = 2 * pairs.length := by
  simp [interleave, Nat.mul_comm]

@[simp] theorem length_rtmp (c : ProcessCall) : c.rtmp.length = c.outSize := by
  have hwrites (ws : List (Nat × Int16)) (buf : List Int16) :
      (ws.foldl (fun buf w => buf.set w.1 w.2) buf).length = buf.length := by
    induction ws generalizing buf with
    | nil => rfl
    | cons w ws ih => simp [ih]
  simp [ProcessCall.rtmp, hwrites]

/-! ## safety of the calls -/

/-- The call starts from a phase that is not negative, reads only within `in`, and
writes only within `rtmp`. -/
def ProcessCall.Safe (c : ProcessCall) : Prop :=
  0 ≤ c.phase ∧ (∀ t ∈ c.turns, ∀ i ∈ t.reads, i < 2 * c.frames) ∧
    ∀ t ∈ c.turns, ∀ w ∈ t.writes, w.1 < c.outSize

/-- The output frames due within a packet of `frames` that follows `n` frames: one
for each tick of the ratio that falls into it. -/
def due (ratio : ℚ) (n frames : Nat) : Nat := ticksBefore ratio (n + frames) - ticksBefore ratio n

/-- Within every packet the output frames due, at `width` elements each, take no more
than the elements of the `rtmp` sized for it; `n` frames have come before. -/
def DueFits (width : Nat) (ratio : ℚ) : Nat → List (List (Int16 × Int16)) → Prop
  | _, [] => True
  | n, packet :: packets =>
      width * due ratio n packet.length ≤ ⌊packet.length * ratio⌋₊ + 8 ∧
        DueFits width ratio (n + packet.length) packets

instance decidableDueFits (width : Nat) (ratio : ℚ) :
    (n : Nat) → (packets : List (List (Int16 × Int16))) → Decidable (DueFits width ratio n packets)
  | _, [] => .isTrue trivial
  | n, packet :: packets =>
      have := decidableDueFits width ratio (n + packet.length) packets
      inferInstanceAs (Decidable (_ ∧ _))

section

variable {ratio : ℚ} (hratio : 0 < ratio) (n : Nat) (packet : List (Int16 × Int16))
include hratio

theorem length_resample :
    (resample ratio ⟨ratio, carry ratio n⟩ packet).2.turns.length =
      min (⌊packet.length * ratio⌋₊ + 8) (due ratio n packet.length) := by
  simp only [resample, due, ← ceil_carry hratio]
  exact StereoResampler.length_process (s := ⟨ratio, carry ratio n⟩) hratio _ _ _

/-- From the distance to the next tick, the call is safe exactly when what is due
fits: short of room, it fills `rtmp` frame by frame and so overruns it. -/
theorem resample_safe_iff :
    (resample ratio ⟨ratio, carry ratio n⟩ packet).2.Safe ↔
      2 * due ratio n packet.length ≤ ⌊packet.length * ratio⌋₊ + 8 := by
  let s : StereoResampler := ⟨ratio, carry ratio n⟩
  have hphase : 0 ≤ s.phase := carry_nonneg hratio n
  have hlength := length_resample hratio n packet
  have hreads := StereoResampler.process_reads_lt (s := s) hratio (interleave packet) packet.length
    (⌊packet.length * ratio⌋₊ + 8) hphase
  have hwrites := StereoResampler.process_writes_lt_iff (s := s) hratio (interleave packet)
    packet.length (⌊packet.length * ratio⌋₊ + 8) (⌊packet.length * ratio⌋₊ + 8)
  calc (resample ratio s packet).2.Safe
      ↔ 2 * (resample ratio s packet).2.turns.length ≤ ⌊packet.length * ratio⌋₊ + 8 := by
        exact (and_iff_right hphase).trans ((and_iff_right hreads).trans hwrites)
    _ ↔ _ := by
        rw [hlength]
        omega

/-- A call with room for what is due leaves the distance to the next tick again. -/
theorem resample_phase (hfits : due ratio n packet.length ≤ ⌊packet.length * ratio⌋₊ + 8) :
    (resample ratio ⟨ratio, carry ratio n⟩ packet).1 =
      ⟨ratio, carry ratio (n + packet.length)⟩ := by
  simp only [resample, StereoResampler.process_eq (s := ⟨ratio, carry ratio n⟩) hratio,
    ceil_carry hratio]
  rw [due] at hfits
  rw [min_eq_right hfits, carry_add hratio]

end

/-- What is due within two packets is due within the two together. -/
theorem due_add {ratio : ℚ} (hratio : 0 < ratio) (n f g : Nat) :
    due ratio n (f + g) = due ratio n f + due ratio (n + f) g := by
  have h₁ := ticksBefore_mono hratio (Nat.le_add_right n f)
  have h₂ := ticksBefore_mono hratio (Nat.le_add_right (n + f) g)
  simp only [due, ← Nat.add_assoc]
  omega

section

variable {deviceRate targetRate : Nat} {ratio : ℚ} (hne : deviceRate ≠ targetRate)
  (hrates : (targetRate : ℚ) / deviceRate = ratio) (hratio : 0 < ratio)
include hne hrates hratio

/-- Every call of a run is safe exactly when every packet's due samples fit. -/
theorem onPackets_safe_iff (n : Nat) (packets : List (List (Int16 × Int16))) :
    (∀ call ∈ (onPackets deviceRate targetRate ⟨ratio, carry ratio n⟩ packets).filterMap Prod.fst,
        call.Safe) ↔
      DueFits 2 ratio n packets := by
  induction packets generalizing n with
  | nil => simp [onPackets, DueFits]
  | cons packet packets ih =>
      by_cases hempty : packet.length > 0
      · have hsafe := resample_safe_iff hratio n packet
        have hphase := resample_phase hratio n packet
        simp only [onPackets, onPacket, if_pos hempty, if_neg hne, hrates, List.filterMap_cons,
          List.forall_mem_cons, DueFits]
        rw [hsafe]
        apply and_congr_right
        intro hfits
        rw [hphase (by omega), ih]
      · have hzero : packet.length = 0 := by omega
        have hrest := ih n
        simpa [onPackets, onPacket, DueFits, due, hzero] using hrest

/-- A resampled packet appends one element an output frame: `n` counts frames, and
`rtmp.begin() + n` counts elements. -/
theorem length_onPacket (phase : ℚ) (packet : List (Int16 × Int16)) (hpacket : 0 < packet.length) :
    (onPacket deviceRate targetRate ⟨ratio, phase⟩ packet).2.2.length =
      min (⌊packet.length * ratio⌋₊ + 8) ⌈((packet.length : ℚ) - phase) / ratio⌉₊ := by
  have hturns := StereoResampler.length_process (s := ⟨ratio, phase⟩) hratio (interleave packet)
    packet.length (⌊packet.length * ratio⌋₊ + 8)
  simp only [onPacket, if_pos hpacket, if_neg hne, hrates, resample, List.length_take, length_rtmp]
  rw [hturns]
  exact min_eq_left (min_le_left _ _)

/-- Where no call runs out of room, a run appends one element an output frame due. -/
theorem length_appended_of_dueFits (n : Nat) {packets : List (List (Int16 × Int16))}
    (hfits : DueFits 1 ratio n packets) :
    ((onPackets deviceRate targetRate ⟨ratio, carry ratio n⟩ packets).flatMap Prod.snd).length =
      due ratio n (frameTotal packets) := by
  induction packets generalizing n with
  | nil => simp [onPackets, frameTotal, due]
  | cons packet packets ih =>
      obtain ⟨hfit, hrest⟩ := hfits
      have hsum : due ratio n (frameTotal (packet :: packets)) =
          due ratio n packet.length + due ratio (n + packet.length) (frameTotal packets) :=
        due_add hratio n packet.length (frameTotal packets)
      by_cases hempty : packet.length > 0
      · have hlength := length_onPacket hne hrates hratio (carry ratio n) packet hempty
        have hphase : (onPacket deviceRate targetRate ⟨ratio, carry ratio n⟩ packet).1 =
            ⟨ratio, carry ratio (n + packet.length)⟩ := by
          simp only [onPacket, if_pos hempty, if_neg hne, hrates]
          exact resample_phase hratio n packet (by omega)
        rw [ceil_carry hratio, ← due] at hlength
        rw [onPackets, List.flatMap_cons, List.length_append, hphase, ih _ hrest, hsum, hlength]
        omega
      · have hzero : packet.length = 0 := by omega
        rw [hsum, ← ih _ hrest]
        simp [onPackets, onPacket, hzero, due]

end

/-- **Safety of the resampler's calls**: over a run, every call starts from a phase
that is not negative and keeps within its buffers exactly when within every packet
the output frames due, two samples each, fit the `rtmp` sized for it. -/
theorem resample_calls_safe_iff {deviceRate targetRate : Nat} (hdevice : 0 < deviceRate)
    (htarget : 0 < targetRate) (hne : deviceRate ≠ targetRate)
    (packets : List (List (Int16 × Int16))) :
    (∀ call ∈ resampleCalls deviceRate targetRate packets, call.Safe) ↔
      DueFits 2 (targetRate / deviceRate) 0 packets := by
  have hratio : (0 : ℚ) < targetRate / deviceRate := by positivity
  have h := onPackets_safe_iff hne rfl hratio 0 packets
  simpa [resampleCalls, resamplerFor] using h

/-- A packet of 10 ms at 44.1 kHz overruns its `rtmp`; one of eight frames does not. -/
theorem resample_calls_safe_eight :
    (0 < 44100 ∧ 0 < 48000 ∧ 44100 ≠ 48000) ∧
      ((∀ call ∈ resampleCalls 44100 48000 [List.replicate 8 (0, 0)], call.Safe) ↔
        DueFits 2 ((48000 : Nat) / (44100 : Nat)) 0 [List.replicate 8 (0, 0)]) ∧
      DueFits 2 ((48000 : Nat) / (44100 : Nat)) 0 [List.replicate 8 (0, 0)] :=
  ⟨by decide, resample_calls_safe_iff (by decide) (by decide) (by decide) _, by decide +kernel⟩

theorem ten_ms_packet_not_safe :
    ¬ ∀ call ∈ resampleCalls 44100 48000 [List.replicate 441 (0, 0)], call.Safe := by
  have hne : 44100 ≠ 48000 := by decide
  have h := onPackets_safe_iff hne rfl (by norm_num) 0 [List.replicate 441 (0, 0)]
  simp only [carry_zero] at h
  rw [resampleCalls, resamplerFor, h]
  decide +kernel

/-! ## duration of the stream -/

/-- No square of a ratio of two positive integers is one half. -/
theorem two_mul_sq_ne_sq {a b : Nat} (hb : 0 < b) : 2 * a ^ 2 ≠ b ^ 2 := by
  intro h
  have ha : a ≠ 0 := by
    rintro rfl
    exact absurd h.symm (by positivity)
  have hval : padicValNat 2 (2 * a ^ 2) = padicValNat 2 (b ^ 2) := by rw [h]
  rw [padicValNat.mul (by decide) (by positivity), padicValNat.pow, padicValNat.pow,
    padicValNat.self (by decide)] at hval
  omega

/-! ## runs of one-frame packets -/

/-- `N` packets of one frame each. -/
def singles (N : Nat) : List (List (Int16 × Int16)) := List.replicate N [(0, 0)]

@[simp] theorem frameTotal_singles (N : Nat) : frameTotal (singles N) = N := by
  simp [frameTotal, singles]

/-- Where eight turns cover a frame, no call of such a run is short of room. -/
theorem dueFits_singles {ratio : ℚ} (hratio : 1 / 8 ≤ ratio) (n N : Nat) :
    DueFits 1 ratio n (singles N) := by
  have hpos : 0 < ratio := by linarith
  induction N generalizing n with
  | zero => trivial
  | succ N ih =>
      have hdue : due ratio n 1 ≤ 8 := by
        rw [due, ← ceil_carry hpos, Nat.ceil_le, div_le_iff₀ hpos]
        have := carry_nonneg hpos n
        push_cast
        linarith
      simp only [singles, List.replicate_succ, DueFits, List.length_singleton]
      exact ⟨by omega, ih (n + 1)⟩

/-- Where they do not, every call runs out of room after eight turns. -/
theorem length_appended_singles {deviceRate targetRate : Nat} {ratio : ℚ}
    (hne : deviceRate ≠ targetRate) (hrates : (targetRate : ℚ) / deviceRate = ratio)
    (hratio : 0 < ratio) (hslow : ratio < 1 / 8) {phase : ℚ} (hphase : phase ≤ 0) (N : Nat) :
    ((onPackets deviceRate targetRate ⟨ratio, phase⟩ (singles N)).flatMap Prod.snd).length =
      8 * N := by
  induction N generalizing phase with
  | zero => rfl
  | succ N ih =>
      have hroom : ⌊((1 : Nat) : ℚ) * ratio⌋₊ + 8 = 8 := by
        rw [Nat.add_eq_right, Nat.floor_eq_zero]
        push_cast
        linarith
      have hmore : 8 ≤ ⌈(((1 : Nat) : ℚ) - phase) / ratio⌉₊ := by
        apply Nat.le_of_lt
        rw [Nat.lt_ceil, lt_div_iff₀ hratio]
        push_cast
        linarith
      have hlength := length_onPacket hne hrates hratio phase [(0, 0)] (by decide)
      have hnext : (onPacket deviceRate targetRate ⟨ratio, phase⟩ [(0, 0)]).1 =
          ⟨ratio, phase + 8 * ratio - 1⟩ := by
        simp only [onPacket, List.length_singleton, Nat.one_pos, if_true, if_neg hne, hrates,
          resample, StereoResampler.process_eq (s := ⟨ratio, phase⟩) hratio, hroom,
          min_eq_left hmore]
        norm_num
      rw [List.length_singleton, hroom, min_eq_left hmore] at hlength
      rw [singles, List.replicate_succ, onPackets, List.flatMap_cons, List.length_append, hlength,
        hnext, ← singles, ih (by linarith)]
      omega

/-- Packets of one frame append elements at a steady rate, and it is not two for each frame
that lasts as long as one at the target rate. -/
theorem exists_rate_singles {deviceRate targetRate : Nat} (hdevice : 0 < deviceRate)
    (htarget : 0 < targetRate) (hne : deviceRate ≠ targetRate) :
    ∃ c : ℚ, c ≠ 2 * (targetRate / deviceRate) ∧
      ∀ N, |((appended deviceRate targetRate (singles N)).length : ℚ) - c * N| ≤ 1 := by
  obtain ⟨ratio, hrates⟩ : ∃ ratio : ℚ, (targetRate : ℚ) / deviceRate = ratio := ⟨_, rfl⟩
  have hratio : 0 < ratio := hrates ▸ by positivity
  simp only [appended, resamplerFor, hrates]
  by_cases hfast : 1 / 8 ≤ ratio
  · refine ⟨1 / ratio, ?_, fun N => ?_⟩
    · intro heq
      apply two_mul_sq_ne_sq (a := targetRate) hdevice
      rw [← hrates] at heq
      field_simp at heq
      rw [mul_comm]
      exact_mod_cast heq.symm
    · have hlength := length_appended_of_dueFits hne hrates hratio 0 (dueFits_singles hfast 0 N)
      have hclose := abs_ticksBefore_sub_le hratio N
      simp only [carry_zero, due, ticksBefore_zero, frameTotal_singles, Nat.zero_add,
        Nat.sub_zero] at hlength
      rw [hlength, one_div_mul_eq_div]
      exact hclose
  · refine ⟨8, by intro heq; linarith, fun N => ?_⟩
    rw [length_appended_singles hne hrates hratio (by linarith) le_rfl N]
    simp

/-- What a run appends is whole stereo pairs, as many as the packets' frames come to
at the target rate, to within `bound`. -/
def DurationKept (deviceRate targetRate : Nat) (bound : ℚ)
    (packets : List (List (Int16 × Int16))) : Prop :=
  ∃ pairs : List (Int16 × Int16), appended deviceRate targetRate packets = interleave pairs ∧
    |(pairs.length : ℚ) - frameTotal packets * targetRate / deviceRate| ≤ bound

/-- **The stream does not keep its duration**: whatever the two rates, the pairs
appended drift from the frames captured without bound. -/
theorem not_exists_durationKept {deviceRate targetRate : Nat} (hdevice : 0 < deviceRate)
    (htarget : 0 < targetRate) (hne : deviceRate ≠ targetRate) :
    ¬ ∃ bound, ∀ packets, DurationKept deviceRate targetRate bound packets := by
  rintro ⟨bound, hkept⟩
  obtain ⟨c, hc, hrate⟩ := exists_rate_singles hdevice htarget hne
  have hdrift (N : Nat) : |c * N - 2 * (targetRate / deviceRate) * N| ≤ 1 + 2 * bound := by
    obtain ⟨pairs, happended, hclose⟩ := hkept (singles N)
    have hlength := hrate N
    rw [happended, length_interleave] at hlength
    have hassoc : (N : ℚ) * targetRate / deviceRate = targetRate / deviceRate * N := by ring
    rw [frameTotal_singles, hassoc] at hclose
    rw [abs_le] at hlength hclose ⊢
    push_cast at hlength
    constructor <;> linarith
  exact hc (eq_of_bounded_drift hdrift)

theorem not_exists_durationKept_cd :
    (0 < 44100 ∧ 0 < 48000 ∧ 44100 ≠ 48000) ∧
      ¬ ∃ bound, ∀ packets, DurationKept 44100 48000 bound packets :=
  ⟨by decide, not_exists_durationKept (by decide) (by decide) (by decide)⟩

/-- A single frame at 44.1 kHz comes out as half a pair. -/
theorem single_frame_not_pairs :
    ¬ ∃ bound, ∀ packets, DurationKept 44100 48000 bound packets := by
  rintro ⟨bound, hkept⟩
  obtain ⟨pairs, happended, -⟩ := hkept [[(1, 2)]]
  have hodd : (appended 44100 48000 [[(1, 2)]]).length = 1 := by decide +kernel
  rw [happended, length_interleave] at hodd
  omega

end TwinScreen.Host
