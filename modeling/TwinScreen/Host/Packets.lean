import Mathlib.Data.List.GetD
import TwinScreen.Host.Audio

/-!
# TwinScreen.Host.Packets

What `StereoResampler` makes of a stream that reaches it in packets.  The phase is
carried from call to call, the frame after a packet's last is not.

* `resampled_from` — the output of any run, frame by frame.
* `resampled_eq_iff` — which ways to cut a stream come to the same output.
-/

namespace TwinScreen.Host

open Lib

/-! ## calls in order -/

/-- A call of `Process`: the frames of its packet, and its room for output frames. -/
structure Feed where
  packet : List (Int16 × Int16)
  outCap : Nat
  deriving DecidableEq

def Turn.values (t : Turn) : List Int16 := t.writes.map Prod.snd

def StereoResampler.feed (s : StereoResampler) (f : Feed) : List Turn × StereoResampler :=
  s.process (interleave f.packet) f.packet.length f.outCap

/-- The output samples of the calls, one after the other. -/
def resampled : StereoResampler → List Feed → List Int16
  | _, [] => []
  | s, f :: fs => (s.feed f).1.flatMap Turn.values ++ resampled (s.feed f).2 fs

/-- Every packet has a frame, and every call has the room to come to its packet's end. -/
def RoomyCalls : StereoResampler → List Feed → Prop
  | _, [] => True
  | s, f :: fs => f.packet ≠ [] ∧ 0 ≤ (s.feed f).2.phase ∧ RoomyCalls (s.feed f).2 fs

instance decidableRoomyCalls :
    (s : StereoResampler) → (fs : List Feed) → Decidable (RoomyCalls s fs)
  | _, [] => .isTrue trivial
  | s, f :: fs =>
      have := decidableRoomyCalls (s.feed f).2 fs
      inferInstanceAs (Decidable (_ ∧ _ ∧ _))

/-- The frames that the packets bring. -/
def streamOf (fs : List Feed) : List (Int16 × Int16) := fs.flatMap Feed.packet

/-- Where the packets end, after `n` frames. -/
def ends (n : Nat) : List Feed → List Nat
  | [] => []
  | f :: fs => (n + f.packet.length) :: ends (n + f.packet.length) fs

/-- Output frame `k` of a stream whose packets end at `cuts`: the frame at its position
and the next one, unless the packet ends between them. -/
def outputFrame (ratio : ℚ) (stream : List (Int16 × Int16)) (cuts : List Nat) (k : Nat) :
    Int16 × Int16 :=
  let i0 := ⌊(k : ℚ) * ratio⌋₊
  let i1 := if i0 + 1 ∈ cuts then i0 else i0 + 1
  let frac := k * ratio - i0
  (lerpS16 (stream.getD i0 (0, 0)).1 (stream.getD i1 (0, 0)).1 frac,
    lerpS16 (stream.getD i0 (0, 0)).2 (stream.getD i1 (0, 0)).2 frac)

/-! ## interpolation -/

/-- The step from `a` toward `b` is lost when the sum is cut to an integer. -/
def StepLost (a b : Int16) (f : ℚ) : Prop :=
  let d := (b.toInt - a.toInt) * f
  0 ≤ a.toInt ∧ 0 ≤ d ∧ d < 1 ∨ a.toInt ≤ 0 ∧ -1 < d ∧ d ≤ 0

/-- Wherever an output frame lies behind the last frame of a packet of one way to cut
the stream but not of the other, the step to the next frame is lost in both channels. -/
def CutsAgree (ratio : ℚ) (stream : List (Int16 × Int16)) (cuts cuts' : List Nat) : Prop :=
  ∀ k < ticksBefore ratio stream.length,
    let i := ⌊(k : ℚ) * ratio⌋₊
    let frac := k * ratio - i
    (i + 1 ∈ cuts ↔ i + 1 ∈ cuts') ∨
      StepLost (stream.getD i (0, 0)).1 (stream.getD (i + 1) (0, 0)).1 frac ∧
        StepLost (stream.getD i (0, 0)).2 (stream.getD (i + 1) (0, 0)).2 frac

theorem tdiv_of_nonneg {v : ℚ} (h : 0 ≤ v) : v.num.tdiv v.den = ⌊v⌋ := by
  rw [Rat.floor_def', Int.tdiv_eq_ediv_of_nonneg (Rat.num_nonneg.mpr h)]

theorem tdiv_of_nonpos {v : ℚ} (h : v ≤ 0) : v.num.tdiv v.den = -⌊-v⌋ := by
  rw [← tdiv_of_nonneg (neg_nonneg.mpr h), Rat.num_neg_eq_neg_num, Rat.den_neg_eq_den,
    Int.neg_tdiv, neg_neg]

/-- Cut toward zero, a number of the range stays in it. -/
theorem tdiv_bounds {v : ℚ} (hlow : -32768 ≤ v) (hhigh : v ≤ 32767) :
    -2 ^ 15 ≤ v.num.tdiv v.den ∧ v.num.tdiv v.den < 2 ^ 15 := by
  by_cases h : 0 ≤ v
  · have hnonneg : 0 ≤ ⌊v⌋ := Int.floor_nonneg.mpr h
    have hlt : ⌊v⌋ < 32768 := Int.floor_lt.mpr (by push_cast; linarith)
    rw [tdiv_of_nonneg h]
    omega
  · have hnonneg : 0 ≤ ⌊-v⌋ := Int.floor_nonneg.mpr (by linarith)
    have hlt : ⌊-v⌋ < 32769 := Int.floor_lt.mpr (by push_cast; linarith)
    rw [tdiv_of_nonpos (by linarith)]
    omega

/-- Which numbers are cut to an integer. -/
theorem tdiv_eq_iff (v : ℚ) (n : Int) :
    v.num.tdiv v.den = n ↔ 0 ≤ v ∧ (n : ℚ) ≤ v ∧ v < n + 1 ∨ v < 0 ∧ (n : ℚ) - 1 < v ∧ v ≤ n := by
  by_cases h : 0 ≤ v
  · rw [tdiv_of_nonneg h, Int.floor_eq_iff]
    simp [h, not_lt.mpr h]
  · rw [tdiv_of_nonpos (by linarith), neg_eq_iff_eq_neg, Int.floor_eq_iff]
    push_cast
    constructor
    · intro hfloor
      exact .inr ⟨by linarith, by linarith, by linarith⟩
    · intro hcut
      rcases hcut with hcut | hcut
      · exact absurd hcut.1 h
      · constructor <;> linarith

section

variable {a b : Int16} {f : ℚ}

theorem toInt_bounds (a : Int16) : (-32768 : ℚ) ≤ a.toInt ∧ (a.toInt : ℚ) ≤ 32767 := by
  have hlow := a.le_toInt
  have hhigh := a.toInt_lt
  constructor
  · exact_mod_cast hlow
  · exact_mod_cast Int.le_of_lt_add_one hhigh

/-- Between two samples nothing is clipped. -/
theorem toInt_lerpS16 (h0 : 0 ≤ f) (h1 : f < 1) :
    (lerpS16 a b f).toInt =
      ((a.toInt : ℚ) + (b.toInt - a.toInt) * f).num.tdiv
        ((a.toInt : ℚ) + (b.toInt - a.toInt) * f).den := by
  have ha := toInt_bounds a
  have hb := toInt_bounds b
  have hlow : (-32768 : ℚ) ≤ a.toInt + (b.toInt - a.toInt) * f := by
    nlinarith
  have hhigh : (a.toInt : ℚ) + (b.toInt - a.toInt) * f ≤ 32767 := by
    nlinarith
  have hcut := tdiv_bounds hlow hhigh
  simp only [lerpS16, not_lt.mpr hlow, not_lt.mpr hhigh, if_false, truncS16]
  exact Int16.toInt_ofInt_of_le hcut.1 hcut.2

theorem lerpS16_eq_left_iff (h0 : 0 ≤ f) (h1 : f < 1) : lerpS16 a b f = a ↔ StepLost a b f := by
  rw [← Int16.toInt_inj, toInt_lerpS16 h0 h1, tdiv_eq_iff, StepLost]
  generalize ((b.toInt : ℚ) - a.toInt) * f = d
  constructor
  · rintro (⟨hv, hd⟩ | ⟨hv, hd⟩)
    · have ha : -1 < a.toInt := by
        have : (-1 : ℚ) < a.toInt := by linarith
        exact_mod_cast this
      exact .inl ⟨by omega, by linarith, by linarith⟩
    · have ha : a.toInt < 1 := by
        have : (a.toInt : ℚ) < 1 := by linarith
        exact_mod_cast this
      exact .inr ⟨by omega, by linarith, by linarith⟩
  · rintro (⟨ha, hd⟩ | ⟨ha, hd⟩)
    · have ha' : (0 : ℚ) ≤ a.toInt := by exact_mod_cast ha
      exact .inl ⟨by linarith, by linarith, by linarith⟩
    · have ha' : (a.toInt : ℚ) ≤ 0 := by exact_mod_cast ha
      by_cases hv : 0 ≤ a.toInt + d
      · exact .inl ⟨hv, by linarith, by linarith⟩
      · exact .inr ⟨by linarith, by linarith, by linarith⟩

theorem lerpS16_self (h0 : 0 ≤ f) (h1 : f < 1) : lerpS16 a a f = a := by
  rw [lerpS16_eq_left_iff h0 h1, StepLost, sub_self, zero_mul]
  rcases Int.le_total 0 a.toInt with ha | ha
  · exact .inl ⟨ha, le_refl 0, by norm_num⟩
  · exact .inr ⟨ha, by norm_num, le_refl 0⟩

end

/-! ## the output of a run -/

theorem interleave_append (ps qs : List (Int16 × Int16)) :
    interleave (ps ++ qs) = interleave ps ++ interleave qs := by
  simp [interleave]

theorem interleave_map {α : Type} (l : List α) (g : α → Int16 × Int16) :
    interleave (l.map g) = l.flatMap fun x => interleave [g x] := by
  simp [interleave, List.flatMap_map]

theorem interleave_inj {ps qs : List (Int16 × Int16)} :
    interleave ps = interleave qs ↔ ps = qs := by
  constructor
  · intro h
    induction ps generalizing qs with
    | nil =>
        cases qs with
        | nil => rfl
        | cons q qs => simp [interleave] at h
    | cons p ps ih =>
        cases qs with
        | nil => simp [interleave] at h
        | cons q qs =>
            simp only [interleave, List.flatMap_cons, List.cons_append, List.nil_append,
              List.cons.injEq] at h
            rw [Prod.ext h.1 h.2.1, ih h.2.2]
  · exact congrArg interleave

theorem interleave_getD (ps : List (Int16 × Int16)) (i : Nat) :
    (interleave ps).getD (i * 2) 0 = (ps.getD i (0, 0)).1 ∧
      (interleave ps).getD (i * 2 + 1) 0 = (ps.getD i (0, 0)).2 := by
  induction ps generalizing i with
  | nil => simp [interleave]
  | cons p ps ih =>
      cases i with
      | zero => simp [interleave]
      | succ i => simpa [interleave, Nat.add_mul] using ih i

section

variable {ratio : ℚ} (hratio : 0 < ratio) (n : Nat)
include hratio

/-- With room, a call goes through the ticks due in its packet. -/
theorem feed_eq (f : Feed)
    (hroom : 0 ≤ ((⟨ratio, carry ratio n⟩ : StereoResampler).feed f).2.phase) :
    (⟨ratio, carry ratio n⟩ : StereoResampler).feed f =
      ((List.range (due ratio n f.packet.length)).map fun k =>
          turn (interleave f.packet) f.packet.length k (carry ratio n + k * ratio),
        ⟨ratio, carry ratio (n + f.packet.length)⟩) := by
  have hfeed := StereoResampler.process_eq (s := ⟨ratio, carry ratio n⟩) hratio
    (interleave f.packet) f.packet.length f.outCap
  simp only [ceil_carry hratio] at hfeed
  rw [← due, ← StereoResampler.feed] at hfeed
  rw [hfeed] at hroom ⊢
  have hcap : due ratio n f.packet.length ≤ f.outCap := by
    by_contra hshort
    rw [min_eq_left (by omega)] at hroom
    apply hshort
    rw [due, ← ceil_carry hratio, Nat.ceil_le, div_le_iff₀ hratio]
    linarith
  rw [min_eq_right hcap, due, carry_add hratio]

/-- A turn computes the output frame of its tick. -/
theorem values_turn {pre packet post : List (Int16 × Int16)} (hpre : pre.length = n)
    {cuts : List Nat} (hcuts : ∀ i < packet.length, n + i + 1 ∈ cuts ↔ i + 1 = packet.length) {k : Nat}
    (hk : k < due ratio n packet.length) :
    (turn (interleave packet) packet.length k (carry ratio n + k * ratio)).values =
      interleave [outputFrame ratio (pre ++ (packet ++ post)) cuts (ticksBefore ratio n + k)] := by
  have hphase : 0 ≤ carry ratio n + k * ratio := by
    have := carry_nonneg hratio n
    positivity
  have hinside : carry ratio n + k * ratio < packet.length := by
    rw [due, ← ceil_carry hratio, Nat.lt_ceil, lt_div_iff₀ hratio] at hk
    linarith
  have hposition :
      ((ticksBefore ratio n + k : Nat) : ℚ) * ratio = carry ratio n + k * ratio + n := by
    rw [carry]
    push_cast
    ring
  have hi0 : ⌊carry ratio n + k * ratio⌋₊ < packet.length := (Nat.floor_lt hphase).mpr hinside
  have hfloor : ⌊carry ratio n + k * ratio + n⌋₊ = n + ⌊carry ratio n + k * ratio⌋₊ := by
    rw [Nat.floor_add_natCast hphase, Nat.add_comm]
  have hget (i : Nat) (hi : i < packet.length) :
      (pre ++ (packet ++ post)).getD (n + i) (0, 0) = packet.getD i (0, 0) := by
    rw [List.getD_append_right _ _ _ _ (by omega), List.getD_append _ _ _ _ (by omega)]
    congr 1
    omega
  simp only [turn, Turn.values, outputFrame, hposition, hfloor, List.map_cons, List.map_nil,
    (interleave_getD _ _).1, (interleave_getD _ _).2]
  generalize ⌊carry ratio n + k * ratio⌋₊ = i0 at hi0 ⊢
  have hfrac : carry ratio n + k * ratio + n - ((n + i0 : Nat) : ℚ) =
      carry ratio n + k * ratio - i0 := by
    push_cast
    ring
  have hnext : (pre ++ (packet ++ post)).getD (if n + i0 + 1 ∈ cuts then n + i0 else n + i0 + 1)
      (0, 0) = packet.getD (if i0 + 1 < packet.length then i0 + 1 else i0) (0, 0) := by
    by_cases hlast : i0 + 1 = packet.length
    · rw [if_pos ((hcuts i0 hi0).mpr hlast), if_neg (by omega), hget i0 hi0]
    · rw [if_neg (mt (hcuts i0 hi0).mp hlast), if_pos (by omega), Nat.add_assoc,
        hget (i0 + 1) (by omega)]
  rw [hfrac, hnext, hget i0 hi0]
  rfl

omit hratio in
theorem lt_of_mem_ends {s : StereoResampler} {fs : List Feed} (hroomy : RoomyCalls s fs) {i : Nat}
    (hi : i ∈ ends n fs) : n < i := by
  induction fs generalizing s n with
  | nil => contradiction
  | cons f fs ih =>
      have hpacket := List.length_pos_iff.mpr hroomy.1
      rcases List.mem_cons.mp hi with rfl | hi
      · omega
      · have hlater := ih _ hroomy.2.2 hi
        omega

/-- The output of a run of roomy calls, from any tick of the stream. -/
theorem resampled_from {fs : List Feed} (hroomy : RoomyCalls ⟨ratio, carry ratio n⟩ fs)
    {pre : List (Int16 × Int16)} (hpre : pre.length = n) {cuts : List Nat}
    (hcuts : ∀ i, n < i → (i ∈ cuts ↔ i ∈ ends n fs)) :
    resampled ⟨ratio, carry ratio n⟩ fs =
      interleave ((List.range (due ratio n (streamOf fs).length)).map fun k =>
        outputFrame ratio (pre ++ streamOf fs) cuts (ticksBefore ratio n + k)) := by
  induction fs generalizing n pre with
  | nil => simp [resampled, streamOf, due, interleave]
  | cons f fs ih =>
      obtain ⟨hpacket, hroom, hlater⟩ := hroomy
      have hfeed := feed_eq hratio n f hroom
      rw [hfeed] at hlater
      have hpos := List.length_pos_iff.mpr hpacket
      have hhere : ∀ i < f.packet.length, n + i + 1 ∈ cuts ↔ i + 1 = f.packet.length := by
        intro i hi
        rw [hcuts _ (by omega), ends, List.mem_cons]
        constructor
        · intro hend
          rcases hend with hend | hend
          · omega
          · have := lt_of_mem_ends _ hlater hend
            omega
        · intro hlast
          exact .inl (by omega)
      have hthere : ∀ i, n + f.packet.length < i →
          (i ∈ cuts ↔ i ∈ ends (n + f.packet.length) fs) := by
        intro i hi
        rw [hcuts i (by omega), ends, List.mem_cons, or_iff_right (by omega)]
      have hstream : streamOf (f :: fs) = f.packet ++ streamOf fs := List.flatMap_cons ..
      have hvalues : ((List.range (due ratio n f.packet.length)).map fun k =>
          turn (interleave f.packet) f.packet.length k (carry ratio n + k * ratio)).flatMap
            Turn.values =
          interleave ((List.range (due ratio n f.packet.length)).map fun k =>
            outputFrame ratio (pre ++ streamOf (f :: fs)) cuts (ticksBefore ratio n + k)) := by
        rw [List.flatMap_map, interleave_map, hstream]
        apply List.flatMap_congr
        intro k hk
        exact values_turn hratio n hpre hhere (List.mem_range.mp hk)
      have hlength : (pre ++ f.packet).length = n + f.packet.length := by
        rw [List.length_append, hpre]
      have hrest := ih (n + f.packet.length) hlater hlength hthere
      have htick (k : Nat) : ticksBefore ratio (n + f.packet.length) + k =
          ticksBefore ratio n + (due ratio n f.packet.length + k) := by
        have := ticksBefore_mono hratio (Nat.le_add_right n f.packet.length)
        rw [due]
        omega
      rw [resampled, hfeed, hvalues, hrest, List.append_assoc, ← hstream, ← interleave_append]
      rw [show (streamOf (f :: fs)).length = f.packet.length + (streamOf fs).length by
        rw [hstream, List.length_append], due_add hratio, List.range_add, List.map_append,
        List.map_map]
      congr 3
      funext k
      rw [Function.comp, htick]

omit n in
theorem outputFrame_eq_iff (stream : List (Int16 × Int16)) (cuts cuts' : List Nat) (k : Nat) :
    outputFrame ratio stream cuts k = outputFrame ratio stream cuts' k ↔
      let i := ⌊(k : ℚ) * ratio⌋₊
      let frac := k * ratio - i
      (i + 1 ∈ cuts ↔ i + 1 ∈ cuts') ∨
        StepLost (stream.getD i (0, 0)).1 (stream.getD (i + 1) (0, 0)).1 frac ∧
          StepLost (stream.getD i (0, 0)).2 (stream.getD (i + 1) (0, 0)).2 frac := by
  have hposition : 0 ≤ (k : ℚ) * ratio := by positivity
  have h0 : 0 ≤ (k : ℚ) * ratio - ⌊(k : ℚ) * ratio⌋₊ := sub_nonneg.mpr (Nat.floor_le hposition)
  have h1 : (k : ℚ) * ratio - ⌊(k : ℚ) * ratio⌋₊ < 1 := by
    have := Nat.lt_floor_add_one ((k : ℚ) * ratio)
    linarith
  simp only [outputFrame]
  generalize (k : ℚ) * ratio - ⌊(k : ℚ) * ratio⌋₊ = frac at h0 h1 ⊢
  generalize ⌊(k : ℚ) * ratio⌋₊ = i
  by_cases hcut : i + 1 ∈ cuts <;> by_cases hcut' : i + 1 ∈ cuts'
  · simp only [hcut, hcut', iff_self, true_or]
  · simp only [hcut, hcut', if_true, if_false, iff_false, not_true, false_or, lerpS16_self h0 h1,
      Prod.mk.injEq]
    rw [eq_comm, lerpS16_eq_left_iff h0 h1, eq_comm, lerpS16_eq_left_iff h0 h1]
  · simp only [hcut, hcut', if_true, if_false, iff_true, false_or, lerpS16_self h0 h1,
      Prod.mk.injEq, lerpS16_eq_left_iff h0 h1]
  · simp only [hcut, hcut', iff_self, true_or]

omit n in
/-- **Packets matter**: two ways to cut a stream into packets, each with room in every
call, come to the same output exactly when they agree up to steps that are lost. -/
theorem resampled_eq_iff {fs fs' : List Feed} (hstream : streamOf fs = streamOf fs')
    (hroomy : RoomyCalls ⟨ratio, 0⟩ fs) (hroomy' : RoomyCalls ⟨ratio, 0⟩ fs') :
    resampled ⟨ratio, 0⟩ fs = resampled ⟨ratio, 0⟩ fs' ↔
      CutsAgree ratio (streamOf fs) (ends 0 fs) (ends 0 fs') := by
  have hrun {gs : List Feed} (hgs : RoomyCalls ⟨ratio, 0⟩ gs) :
      resampled ⟨ratio, 0⟩ gs =
        interleave ((List.range (ticksBefore ratio (streamOf gs).length)).map
          (outputFrame ratio (streamOf gs) (ends 0 gs))) := by
    have hfrom := @resampled_from ratio hratio 0 gs (by rwa [carry_zero]) [] rfl (ends 0 gs)
      (fun _ _ => Iff.rfl)
    simpa [due] using hfrom
  rw [hrun hroomy, hrun hroomy', ← hstream, interleave_inj, List.map_inj_left, CutsAgree]
  simp only [List.mem_range, outputFrame_eq_iff hratio]

end

/-- Two frames at half the rate: in one packet, and in two. -/
theorem resampled_eq_iff_half :
    ((0 : ℚ) < 1 / 2 ∧ streamOf [⟨[(0, 0), (1, 1)], 4⟩] = streamOf [⟨[(0, 0)], 2⟩, ⟨[(1, 1)], 2⟩] ∧
        RoomyCalls ⟨1 / 2, 0⟩ [⟨[(0, 0), (1, 1)], 4⟩] ∧
        RoomyCalls ⟨1 / 2, 0⟩ [⟨[(0, 0)], 2⟩, ⟨[(1, 1)], 2⟩]) ∧
      (resampled ⟨1 / 2, 0⟩ [⟨[(0, 0), (1, 1)], 4⟩] =
          resampled ⟨1 / 2, 0⟩ [⟨[(0, 0)], 2⟩, ⟨[(1, 1)], 2⟩] ↔
        CutsAgree (1 / 2) [(0, 0), (1, 1)] [2] [1, 2]) :=
  ⟨by decide +kernel, resampled_eq_iff (by norm_num) (by decide) (by decide +kernel)
    (by decide +kernel)⟩

/-- Of a louder second frame half is heard in one packet, and nothing in two. -/
theorem packets_change_output :
    ¬ ∀ (ratio : ℚ) (fs fs' : List Feed), 0 < ratio → streamOf fs = streamOf fs' →
      RoomyCalls ⟨ratio, 0⟩ fs → RoomyCalls ⟨ratio, 0⟩ fs' →
        resampled ⟨ratio, 0⟩ fs = resampled ⟨ratio, 0⟩ fs' := by
  intro hclaim
  have heq := hclaim (1 / 2) [⟨[(0, 0), (100, 100)], 4⟩] [⟨[(0, 0)], 2⟩, ⟨[(100, 100)], 2⟩]
    (by norm_num) (by decide) (by decide +kernel) (by decide +kernel)
  have hne : resampled ⟨1 / 2, 0⟩ [⟨[(0, 0), (100, 100)], 4⟩] ≠
      resampled ⟨1 / 2, 0⟩ [⟨[(0, 0)], 2⟩, ⟨[(100, 100)], 2⟩] := by decide +kernel
  exact hne heq

end TwinScreen.Host
