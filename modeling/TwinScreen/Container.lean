import TwinScreen.Host.Payload
import TwinScreen.Tablet.Protocol

/-!
# TwinScreen.Container

The NAL container read by the tablet and written again by the host: `BuildVideoPayload`
after `parseVideoFrame`.

* `getNals_eq` — what the NAL loop reads, and where it stops.
* `reserialized_iff` — which accepted payloads are the container of their NALs.
-/

namespace TwinScreen

open Lib Host Tablet

/-! ## the NAL loop -/

/-- The bytes behind `n` length-prefixed NALs. -/
def afterNals : Nat → List UInt8 → List UInt8
  | 0, bs => bs
  | n + 1, bs => afterNals n (bs.drop (4 + (leInt (bs.take 4)).toNat))

/-- **What the NAL loop reads**: the host's form of its NALs, and what is left behind them. -/
theorem getNals_eq {n : Nat} {bs rest : List UInt8} {nals : List (List UInt8)}
    (h : (getNals n).run bs = .ok (nals, rest)) :
    nals.length = n ∧ bs = nals.flatMap appendNal ++ rest ∧ rest = afterNals n bs := by
  induction n generalizing bs nals with
  | zero =>
      cases h
      exact ⟨rfl, rfl, rfl⟩
  | succ n ih =>
      rw [getNals, Get.int, Get.num_bind_run_eq_ok_iff] at h
      obtain ⟨hfour, h⟩ := h
      have hwords := leBytes_leInt_iff (bs.take 4)
      have hbound := toNat_leInt_lt (bs.take 4)
      rw [List.length_take, Nat.min_eq_left hfour] at hwords hbound
      rw [afterNals]
      generalize leInt (bs.take 4) = len at h hwords hbound ⊢
      by_cases hneg : len < 0
      · -- `ByteArray(len)` throws
        rw [Get.array, if_pos hneg, Get.bind_run] at h
        contradiction
      · rw [Get.array, if_neg hneg, Get.bytes_bind_run_eq_ok_iff] at h
        obtain ⟨hlen, h⟩ := h
        obtain ⟨nals', rest', hnals, hpure⟩ := Get.bind_run_eq_ok_iff.mp h
        cases hpure
        obtain ⟨hcount, hbs, hrest⟩ := ih hnals
        rw [List.drop_drop] at hrest
        have hnal : appendNal ((bs.drop 4).take len.toNat) =
            bs.take 4 ++ (bs.drop 4).take len.toNat := by
          have hsize : ((bs.drop 4).take len.toNat).length = len.toNat := by
            rw [List.length_take, Nat.min_eq_left hlen]
          rw [appendNal, hsize, appendU32_ofNat hbound, hwords.mpr (by omega)]
        refine ⟨by rw [List.length_cons, hcount], ?_, hrest⟩
        rw [List.flatMap_cons, hnal, List.append_assoc, List.append_assoc, ← hbs,
          List.take_append_drop, List.take_append_drop]

/-! ## the container -/

/-- The container the host writes for the NALs that the tablet has read. -/
def reserialized (f : VideoFrame) : List UInt8 := buildVideoPayload ⟨f.keyframe, 0, f.nals, []⟩

/-- The count field, and the bytes behind the NALs that it declares. -/
def countField (p : List UInt8) : Int := leInt ((p.drop 12).take 4)
def leftOver (p : List UInt8) : List UInt8 := afterNals (countField p).toNat (p.drop 16)

/-- What the tablet has read of a container. -/
theorem parseVideoFrame_eq {p : List UInt8} {f : VideoFrame} (h : parseVideoFrame p = .ok f) :
    16 ≤ p.length ∧ f.nals.length = (countField p).toNat ∧
      p.drop 16 = f.nals.flatMap appendNal ++ leftOver p := by
  rw [parseVideoFrame] at h
  obtain ⟨⟨f', rest⟩, hrun, rfl⟩ := map_eq_ok_iff.mp h
  simp only [getVideoFrame, Get.byte, Get.short, Get.int, Get.num_bind_run_eq_ok_iff,
    List.length_drop, List.drop_drop, Nat.reduceAdd] at hrun
  obtain ⟨-, -, -, -, -, hlen, hrun⟩ := hrun
  obtain ⟨nals, rest', hnals, hpure⟩ := Get.bind_run_eq_ok_iff.mp hrun
  cases hpure
  obtain ⟨hcount, hbs, hrest⟩ := getNals_eq hnals
  rw [hrest] at hbs
  exact ⟨by omega, hcount, hbs⟩

/-- **Which accepted payloads are the container of their NALs**: those whose count is not
negative as a signed number, with nothing behind the last NAL. -/
theorem reserialized_iff (p : List UInt8) (f : VideoFrame) (h : parseVideoFrame p = .ok f) :
    reserialized f = p.drop 12 ↔ 0 ≤ countField p ∧ leftOver p = [] := by
  obtain ⟨hlen, hcount, hbs⟩ := parseVideoFrame_eq h
  have hfour : ((p.drop 12).take 4).length = 4 := by
    rw [List.length_take, List.length_drop]
    omega
  have hwords : leBytes 4 (countField p).toNat = (p.drop 12).take 4 ↔ 0 ≤ countField p := by
    have hfield := leBytes_leInt_iff ((p.drop 12).take 4)
    rwa [hfour] at hfield
  have hbound : (countField p).toNat < 2 ^ 32 := by
    have hfield := toNat_leInt_lt ((p.drop 12).take 4)
    rwa [hfour] at hfield
  have hsplit := List.take_append_drop 4 (p.drop 12)
  rw [List.drop_drop, hbs] at hsplit
  have hwritten : reserialized f =
      leBytes 4 (countField p).toNat ++ f.nals.flatMap appendNal := by
    rw [reserialized, buildVideoPayload, hcount, appendU32_ofNat hbound]
  rw [hwritten, ← hsplit]
  constructor
  · intro heq
    obtain ⟨hfield, hrest⟩ := List.append_inj heq (by rw [length_leBytes, hfour])
    exact ⟨hwords.mp hfield, List.self_eq_append_right.mp hrest⟩
  · intro hexact
    rw [hexact.2, List.append_nil]
    congr 1
    exact hwords.mpr hexact.1

/-- A payload with one NAL. -/
def oneNal : List UInt8 :=
  [1, 0, 0, 0, 64, 0, 0, 0, 64, 0, 0, 0, 1, 0, 0, 0, 2, 0, 0, 0, 0x65, 0x88]

theorem reserialized_iff_oneNal :
    reserialized ⟨true, 0, 64, 64, [[0x65, 0x88]]⟩ = oneNal.drop 12 ↔
      0 ≤ countField oneNal ∧ leftOver oneNal = [] :=
  reserialized_iff oneNal ⟨true, 0, 64, 64, [[0x65, 0x88]]⟩ (by decide)

/-- A count of 2^31, which no NAL follows, is accepted as a frame of no NALs. -/
theorem negative_count_accepted : ∃ p f, parseVideoFrame p = .ok f ∧ reserialized f ≠ p.drop 12 :=
  ⟨[1, 0, 0, 0, 64, 0, 0, 0, 64, 0, 0, 0, 0, 0, 0, 0x80], ⟨true, 0, 64, 64, []⟩, by decide,
    by decide⟩

end TwinScreen
