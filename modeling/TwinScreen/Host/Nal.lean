import TwinScreen.Lib.StartCode

/-!
# TwinScreen.Host.Nal

`host/src/encode/nal.cpp` and the frame record of `encoder.h`.

* `splitAnnexB_eq_scan` — the index loop cuts the stream at its start codes.
* `splitAnnexB_stream` — NALs are read back, whatever start codes they are written with.
* `splitAnnexB_paddedStream_iff` — with which padding behind them they are.
-/

namespace TwinScreen.Host

open Lib

/-- `EncodedFrame`. -/
structure EncodedFrame where
  keyframe : Bool
  codec : UInt8
  nals : List (List UInt8)
  raw : List UInt8
  deriving DecidableEq

/-- The loop of `SplitAnnexB` from index `i`, with the begin of the NAL that is open if
there is one.  Every turn moves on, so the size of the data is fuel enough. -/
def splitFrom (data : List UInt8) : Nat → Nat → Option Nat → List (List UInt8)
  | 0, _, payload => payload.toList.map data.drop
  | fuel + 1, i, payload =>
      if i + 3 ≤ data.length then
        if data.getD i 0 = 0 ∧ data.getD (i + 1) 0 = 0 ∧ data.getD (i + 2) 0 = 1 then
          let prevEnd := if i > 0 ∧ data.getD (i - 1) 0 = 0 then i - 1 else i
          payload.toList.map (fun begin => (data.take prevEnd).drop begin) ++
            splitFrom data fuel (i + 3) (some (i + 3))
        else splitFrom data fuel (i + 1) payload
      else payload.toList.map data.drop

/-- `SplitAnnexB`. -/
def splitAnnexB (data : List UInt8) : List (List UInt8) := splitFrom data data.length 0 none

/-- `HasIdrSlice`. -/
def hasIdrSlice (nals : List (List UInt8)) : Bool :=
  nals.any fun nal =>
    match nal with
    | [] => false
    | b :: _ => b &&& 0x1F == 5

/-- The frame made of an access unit. -/
def frameOf (bytes : List UInt8) : EncodedFrame where
  keyframe := hasIdrSlice (splitAnnexB bytes)
  codec := 0
  nals := splitAnnexB bytes
  raw := []

/-- An IDR slice is a NAL whose type bits are 5. -/
theorem hasIdrSlice_iff (nals : List (List UInt8)) :
    hasIdrSlice nals = true ↔ ∃ b rest, b :: rest ∈ nals ∧ b &&& 0x1F = 5 := by
  rw [hasIdrSlice, List.any_eq_true]
  constructor
  · intro h
    obtain ⟨nal, hmem, hbits⟩ := h
    cases nal with
    | nil => contradiction
    | cons b rest => exact ⟨b, rest, hmem, by simpa using hbits⟩
  · intro h
    obtain ⟨b, rest, hmem, hbits⟩ := h
    exact ⟨b :: rest, hmem, by simpa using hbits⟩

/-! ## the loop -/

theorem drop_eq_getD_cons {data : List UInt8} {i : Nat} (h : i < data.length) :
    data.drop i = data.getD i 0 :: data.drop (i + 1) := by
  rw [List.drop_eq_getElem_cons h, List.getD_eq_getElem?_getD, List.getElem?_eq_getElem h,
    Option.getD_some]

/-- The test of the loop, where three bytes are left. -/
theorem shortCode_prefix_drop_iff {data : List UInt8} {i : Nat} (h : i + 3 ≤ data.length) :
    shortCode <+: data.drop i ↔
      data.getD i 0 = 0 ∧ data.getD (i + 1) 0 = 0 ∧ data.getD (i + 2) 0 = 1 := by
  rw [drop_eq_getD_cons (by omega), drop_eq_getD_cons (i := i + 1) (by omega),
    drop_eq_getD_cons (i := i + 2) (by omega), shortCode]
  simp only [List.cons_prefix_cons, List.nil_prefix, and_true]
  grind

/-- The bytes of an open NAL before index `i`. -/
def opened (data : List UInt8) (i begin : Nat) : List UInt8 := (data.take i).drop begin

theorem opened_self (data : List UInt8) (i : Nat) : opened data i i = [] := by
  simp [opened]

theorem opened_succ {data : List UInt8} {i begin : Nat} (hbegin : begin ≤ i)
    (h : i < data.length) : opened data (i + 1) begin = opened data i begin ++ [data.getD i 0] := by
  rw [opened, opened, List.take_succ_eq_append_getElem h, List.getD_eq_getElem?_getD,
    List.getElem?_eq_getElem h, Option.getD_some, List.drop_append_of_le_length (by simp; omega)]

theorem opened_append_drop {data : List UInt8} {i begin : Nat} (hbegin : begin ≤ i)
    (h : i ≤ data.length) : opened data i begin ++ data.drop i = data.drop begin := by
  rw [opened, ← List.drop_append_of_le_length (by simp; omega), List.take_append_drop]

/-- The look-back for the fourth byte of a start code leaves out a last zero. -/
theorem opened_prevEnd {data : List UInt8} {i begin : Nat} (hbegin : begin ≤ i)
    (h : i ≤ data.length) (hcode : begin = i → data.getD (i - 1) 0 ≠ 0) :
    opened data (if i > 0 ∧ data.getD (i - 1) 0 = 0 then i - 1 else i) begin =
      withoutZero (opened data i begin) := by
  rcases Nat.eq_or_lt_of_le hbegin with heq | hlt
  · rw [if_neg (fun hzero => hcode heq hzero.2), heq, opened_self]
    rfl
  · obtain ⟨k, rfl⟩ : ∃ k, i = k + 1 := ⟨i - 1, by omega⟩
    rw [Nat.add_sub_cancel]
    by_cases hzero : data.getD k 0 = 0
    · rw [if_pos ⟨by omega, hzero⟩, opened_succ (by omega) (by omega), hzero,
        withoutZero_concat_zero]
    · rw [if_neg (fun hboth => hzero hboth.2), opened_succ (by omega) (by omega),
        withoutZero_concat hzero]

/-- A turn of the loop at a start code. -/
theorem splitFrom_code {data : List UInt8} {i : Nat} (h : shortCode <+: data.drop i) (fuel : Nat)
    (payload : Option Nat) :
    splitFrom data (fuel + 1) i payload =
      payload.toList.map (opened data
        (if i > 0 ∧ data.getD (i - 1) 0 = 0 then i - 1 else i)) ++
      splitFrom data fuel (i + 3) (some (i + 3)) := by
  have hthree : i + 3 ≤ data.length := by
    have hlen := h.length_le
    simp only [shortCode, List.length_cons, List.length_nil, List.length_drop] at hlen
    omega
  rw [splitFrom, if_pos hthree, if_pos ((shortCode_prefix_drop_iff hthree).mp h)]
  rfl

/-- A turn of the loop elsewhere. -/
theorem splitFrom_skip {data : List UInt8} {i : Nat} (h : ¬ shortCode <+: data.drop i)
    (hthree : i + 3 ≤ data.length) (fuel : Nat) (payload : Option Nat) :
    splitFrom data (fuel + 1) i payload = splitFrom data fuel (i + 1) payload := by
  rw [splitFrom, if_pos hthree, if_neg (fun hbytes => h ((shortCode_prefix_drop_iff hthree).mpr
    hbytes))]

/-- The end of the loop. -/
theorem splitFrom_end {data : List UInt8} {i : Nat} (h : data.length < i + 3) (fuel : Nat)
    (payload : Option Nat) : splitFrom data fuel i payload = payload.toList.map data.drop := by
  cases fuel with
  | zero => rfl
  | succ fuel => rw [splitFrom, if_neg (by omega)]

/-- Behind a start code. -/
theorem drop_of_code {data ys : List UInt8} {i : Nat} (h : data.drop i = shortCode ++ ys) :
    data.drop (i + 3) = ys ∧ i + 3 ≤ data.length ∧ data.getD (i + 3 - 1) 0 ≠ 0 := by
  have hlen := congrArg List.length h
  rw [List.length_append, List.length_drop] at hlen
  have hthree : i + 3 ≤ data.length := by
    simp only [shortCode, List.length_cons, List.length_nil] at hlen
    omega
  have hbytes := (shortCode_prefix_drop_iff hthree).mp ⟨ys, h.symm⟩
  have hrest : data.drop (i + 3) = ys := by
    rw [← List.drop_drop, h]
    rfl
  have hone : data.getD (i + 3 - 1) 0 ≠ 0 := by
    show data.getD (i + 2) 0 ≠ 0
    rw [hbytes.2.2]
    decide
  exact ⟨hrest, hthree, hone⟩

/-- The loop inside a NAL. -/
theorem splitFrom_some {data : List UInt8} {fuel i begin : Nat} (hfuel : data.length ≤ i + fuel)
    (hbegin : begin ≤ i) (h : i ≤ data.length) (hcode : begin = i → data.getD (i - 1) 0 ≠ 0) :
    splitFrom data fuel i (some begin) = cut (opened data i begin) (data.drop i) := by
  induction fuel generalizing i begin with
  | zero =>
      rw [splitFrom_end (by omega), cut_of_codeFree (codeFree_drop (by omega)),
        opened_append_drop hbegin h]
      rfl
  | succ fuel ih =>
      by_cases hstart : shortCode <+: data.drop i
      · rw [splitFrom_code hstart]
        obtain ⟨ys, hys⟩ := hstart
        obtain ⟨hrest, hthree, hone⟩ := drop_of_code hys.symm
        rw [ih (by omega) (by omega) hthree (fun _ => hone), opened_self, hrest, ← hys]
        -- the NAL that ends here
        show opened data _ begin :: _ = withoutZero _ :: _
        rw [opened_prevEnd hbegin h hcode]
        rfl
      · by_cases hthree : i + 3 ≤ data.length
        · have hlt : i < data.length := by omega
          rw [splitFrom_skip hstart hthree, ih (by omega) (by omega) (by omega) (by omega),
            opened_succ hbegin hlt]
          rw [drop_eq_getD_cons hlt] at hstart ⊢
          rw [cut_cons hstart]
        · rw [splitFrom_end (by omega), cut_of_codeFree (codeFree_drop (by omega)),
            opened_append_drop hbegin h]
          rfl

/-- The loop before the first NAL. -/
theorem splitFrom_none {data : List UInt8} {fuel i : Nat} (hfuel : data.length ≤ i + fuel)
    (h : i ≤ data.length) : splitFrom data fuel i none = scan (data.drop i) := by
  induction fuel generalizing i with
  | zero =>
      rw [splitFrom_end (by omega), scan_of_codeFree (codeFree_drop (by omega))]
      rfl
  | succ fuel ih =>
      by_cases hstart : shortCode <+: data.drop i
      · rw [splitFrom_code hstart]
        obtain ⟨ys, hys⟩ := hstart
        obtain ⟨hrest, hthree, hone⟩ := drop_of_code hys.symm
        rw [splitFrom_some (by omega) (by omega) hthree (fun _ => hone), opened_self, hrest,
          ← hys]
        rfl
      · by_cases hthree : i + 3 ≤ data.length
        · have hlt : i < data.length := by omega
          rw [splitFrom_skip hstart hthree, ih (by omega) (by omega)]
          rw [drop_eq_getD_cons hlt] at hstart ⊢
          rw [scan_cons hstart]
        · rw [splitFrom_end (by omega), scan_of_codeFree (codeFree_drop (by omega))]
          rfl

theorem splitAnnexB_eq_scan (data : List UInt8) : splitAnnexB data = scan data := by
  rw [splitAnnexB, splitFrom_none (by omega) (by omega), List.drop_zero]

/-! ## reading NALs back -/

/-- **Mixed start codes**: NALs that have no start code in them and do not end in a zero
are returned as they were, with a long or a short start code before each. -/
theorem splitAnnexB_stream {nals : List (Bool × List UInt8)}
    (h : ∀ nal ∈ nals, CodeFree nal.2 ∧ nal.2.getLast? ≠ some 0) :
    splitAnnexB (stream nals) = nals.map Prod.snd := by
  rw [splitAnnexB_eq_scan, scan_stream_units h]

theorem splitAnnexB_stream_mixed :
    (∀ nal ∈ [(true, [0x67, 0x42]), (false, [1]), (true, [0, 0x65])],
      CodeFree nal.2 ∧ nal.2.getLast? ≠ some 0) ∧
      splitAnnexB (stream [(true, [0x67, 0x42]), (false, [1]), (true, [0, 0x65])]) =
        [[0x67, 0x42], [1], [0, 0x65]] :=
  ⟨by decide, splitAnnexB_stream (by decide)⟩

/-- **Padding**: such NALs, with zeros behind each, are returned without the zeros
exactly when at most one zero stands before each further `00 00 01` and none at the end. -/
theorem splitAnnexB_paddedStream_iff {nals : List PaddedUnit} (h : ∀ nal ∈ nals, Terminated nal) :
    splitAnnexB (paddedStream nals) = nals.map PaddedUnit.unit ↔ PaddingAbsorbed nals := by
  rw [splitAnnexB_eq_scan, scan_paddedStream h, unitsRead_eq_iff]

theorem splitAnnexB_paddedStream_one_zero :
    (∀ nal ∈ [⟨true, [0x67], 1⟩, ⟨false, [0x65], 0⟩], Terminated nal) ∧
      (splitAnnexB (paddedStream [⟨true, [0x67], 1⟩, ⟨false, [0x65], 0⟩]) = [[0x67], [0x65]] ↔
        PaddingAbsorbed [⟨true, [0x67], 1⟩, ⟨false, [0x65], 0⟩]) :=
  ⟨by decide, splitAnnexB_paddedStream_iff (by decide)⟩

/-- A zero behind the last NAL is returned as one of its bytes. -/
theorem trailing_zero_returned :
    ¬ ∀ nals : List PaddedUnit, (∀ nal ∈ nals, nal.unit ≠ [] ∧ Terminated nal) →
      splitAnnexB (paddedStream nals) = nals.map PaddedUnit.unit := by
  intro hclaim
  exact absurd (hclaim [⟨true, [0x65], 1⟩] (by decide)) (by decide)

end TwinScreen.Host
