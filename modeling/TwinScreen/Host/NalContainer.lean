import Mathlib.Algebra.Ring.Nat
import TwinScreen.Host.Nvenc
import TwinScreen.Lib.Framing
import TwinScreen.Lib.LittleEndian
import TwinScreen.Lib.Store

/-!
# TwinScreen.Host.NalContainer

The loop of `NvEncoder::Encode` over NVENC's container, repeated `{ uint32 LE length,
payload }`, which gives the NALs of an `NvOutput`.  It counts in 32 bits.

* `container_read_iff` — for which bitstreams it gives the well-formed records.
* `nals_encode` — the frame of an `Encode` has the NALs that the loop reads.
-/

namespace TwinScreen.Host.Nvenc

open Lib Lib.Attempt

/-! ## the loop -/

/-- The range of a payload that is copied out of the bitstream. -/
structure Slice where
  start : Nat
  stop : Nat
  deriving DecidableEq

def byteAt (data : List UInt8) (pos : UInt32) : UInt32 := (data.getD pos.toNat 0).toUInt32

def lengthAt (data : List UInt8) (pos : UInt32) : UInt32 :=
  byteAt data pos ||| byteAt data (pos + 1) <<< 8 ||| byteAt data (pos + 2) <<< 16 |||
    byteAt data (pos + 3) <<< 24

/-- The loop from `pos` on.  `pos` and its sums are of 32 bits, the ranges are of
pointers. -/
def nalLoop (data : List UInt8) (size : UInt32) : Nat → UInt32 → Option (List Slice)
  | 0, _ => none
  | fuel + 1, pos =>
      if size - pos < 4 then
        some []
      else
        let len := lengthAt data pos
        let payload := pos + 4
        if len = 0 ∨ payload + len > size then
          some []
        else
          (nalLoop data size fuel (payload + len)).map fun slices =>
            ⟨payload.toNat, payload.toNat + len.toNat⟩ :: slices

def Slice.bytes (s : Slice) (data : List UInt8) : List UInt8 :=
  (data.drop s.start).take (s.stop - s.start)

/-- The loop ends, and all it copies are the payloads `nals`, out of the bitstream. -/
def Reads (data : List UInt8) (nals : List (List UInt8)) : Prop :=
  ∃ fuel slices, nalLoop data (UInt32.ofNat data.length) fuel 0 = some slices ∧
    (∀ s ∈ slices, s.stop ≤ data.length) ∧ slices.map (fun s => s.bytes data) = nals

/-! ## the container -/

/-- Well-formed records: a length of at least 1, and that many bytes. -/
def container : Framing UInt8 Unit where
  headerLen := 4
  headerLen_pos := by decide
  decode hdr := if leNat hdr = 0 then none else some ((), leNat hdr)

/-- The payloads of the longest prefix of well-formed records. -/
def payloads (data : List UInt8) : List (List UInt8) := (container.split data).map Prod.snd

def serialize (nals : List (List UInt8)) : List UInt8 :=
  nals.flatMap fun nal => leBytes 4 nal.length ++ nal

/-- At `p`, where `bs` is left, a length is read whose end is not below 2^32. -/
def WrapsAt (p : Nat) (bs : List UInt8) : Prop :=
  4 ≤ bs.length ∧ leNat (bs.take 4) ≠ 0 ∧ 2 ^ 32 ≤ p + 4 + leNat (bs.take 4)

/-- What stands behind the records is too short for a length, or a length of 0 or with
an end below 2^32. -/
def EndsPlainly (data : List UInt8) : Prop :=
  ¬ WrapsAt (data.length - (container.rest data).length) (container.rest data)

/-! ## the length word -/

/-- The bytes put together by shifts are those of a little-endian word. -/
theorem toNat_lengthWord (b₀ b₁ b₂ b₃ : UInt8) :
    (b₀.toUInt32 ||| b₁.toUInt32 <<< 8 ||| b₂.toUInt32 <<< 16 ||| b₃.toUInt32 <<< 24).toNat =
      leNat [b₀, b₁, b₂, b₃] := by
  have h₀ := b₀.toNat_lt
  have h₁ := b₁.toNat_lt
  have h₂ := b₂.toNat_lt
  have h₃ := b₃.toNat_lt
  have hor : b₀.toNat ||| b₁.toNat <<< 8 ||| b₂.toNat <<< 16 ||| b₃.toNat <<< 24 =
      b₀.toNat + b₁.toNat * 2 ^ 8 + b₂.toNat * 2 ^ 16 + b₃.toNat * 2 ^ 24 := by
    rw [or_shiftLeft (k := 8) h₀, or_shiftLeft (k := 16) (by omega),
      or_shiftLeft (k := 24) (by omega)]
  have hshift (b : UInt8) {m : Nat} (hm : m ≤ 24) : b.toNat <<< m % 2 ^ 32 = b.toNat <<< m := by
    have hb := b.toNat_lt
    have hpow : 2 ^ m ≤ 2 ^ 24 := Nat.pow_le_pow_right (by decide) hm
    have hmul : b.toNat * 2 ^ m ≤ b.toNat * 2 ^ 24 := Nat.mul_le_mul_left _ hpow
    rw [Nat.shiftLeft_eq]
    omega
  simp only [UInt32.toNat_or, UInt32.toNat_shiftLeft, UInt8.toNat_toUInt32]
  rw [hshift b₁ (by decide), hshift b₂ (by decide), hshift b₃ (by decide)]
  exact hor.trans (by simp [leNat_cons]; omega)

section

variable {data : List UInt8}

theorem byteAt_add {pos : UInt32} {i : Nat} (hi : i < 4) (hsize : data.length < 2 ^ 32)
    (hpos : pos.toNat + 4 ≤ data.length) :
    byteAt data (pos + UInt32.ofNat i) = ((data.drop pos.toNat).getD i 0).toUInt32 := by
  have hadd : (pos + UInt32.ofNat i).toNat = pos.toNat + i := by
    rw [UInt32.toNat_add, UInt32.toNat_ofNat_of_lt' (by simp [UInt32.size]; omega)]
    omega
  simp [byteAt, hadd]

theorem toNat_lengthAt (pos : UInt32) (hsize : data.length < 2 ^ 32)
    (hpos : pos.toNat + 4 ≤ data.length) :
    (lengthAt data pos).toNat = leNat ((data.drop pos.toNat).take 4) := by
  have hlen : 4 ≤ (data.drop pos.toNat).length := by
    rw [List.length_drop]
    omega
  have hbyte {i : Nat} (hi : i < 4) := byteAt_add hi hsize hpos
  have h₀ := hbyte (show 0 < 4 by decide)
  have h₁ := hbyte (show 1 < 4 by decide)
  have h₂ := hbyte (show 2 < 4 by decide)
  have h₃ := hbyte (show 3 < 4 by decide)
  rw [show pos + UInt32.ofNat 0 = pos from UInt32.add_zero pos] at h₀
  rw [lengthAt, h₀, show pos + 1 = pos + UInt32.ofNat 1 from rfl, h₁,
    show pos + 2 = pos + UInt32.ofNat 2 from rfl, h₂, show pos + 3 = pos + UInt32.ofNat 3 from rfl,
    h₃]
  match data.drop pos.toNat, hlen with
  | b₀ :: b₁ :: b₂ :: b₃ :: rest, _ => simpa using toNat_lengthWord b₀ b₁ b₂ b₃

/-! ## reading -/

/-- One turn of the loop at `p`, where `bs` is left. -/
theorem nalLoop_succ {fuel p : Nat} {bs : List UInt8} (hsize : data.length < 2 ^ 32)
    (hp : p ≤ data.length) (hbs : data.drop p = bs) :
    nalLoop data (UInt32.ofNat data.length) (fuel + 1) (UInt32.ofNat p) =
      if bs.length < 4 then some []
      else if leNat (bs.take 4) = 0 ∨
          data.length < (p + 4 + leNat (bs.take 4)) % 2 ^ 32 then some []
      else (nalLoop data (UInt32.ofNat data.length) fuel
          (UInt32.ofNat ((p + 4 + leNat (bs.take 4)) % 2 ^ 32))).map fun slices =>
        ⟨p + 4, p + 4 + leNat (bs.take 4)⟩ :: slices := by
  subst hbs
  have hpos : (UInt32.ofNat p).toNat = p := UInt32.toNat_ofNat_of_lt' (by simp [UInt32.size]; omega)
  have hlen : (UInt32.ofNat data.length).toNat = data.length :=
    UInt32.toNat_ofNat_of_lt' hsize
  have hsub : (UInt32.ofNat data.length - UInt32.ofNat p).toNat = data.length - p := by
    rw [UInt32.toNat_sub_of_le _ _ (by rw [UInt32.le_iff_toNat_le, hpos, hlen]; exact hp), hpos, hlen]
  rw [nalLoop, List.length_drop]
  by_cases hshort : data.length - p < 4
  · have hlt : UInt32.ofNat data.length - UInt32.ofNat p < 4 := by
      rw [UInt32.lt_iff_toNat_lt, hsub]
      exact hshort
    rw [if_pos hlt, if_pos hshort]
  · have hnlt : ¬ UInt32.ofNat data.length - UInt32.ofNat p < 4 := by
      rw [UInt32.lt_iff_toNat_lt, hsub]
      exact hshort
    have hword := toNat_lengthAt (UInt32.ofNat p) hsize (by omega)
    rw [hpos] at hword
    have hpayload : (UInt32.ofNat p + 4).toNat = p + 4 := by
      rw [UInt32.toNat_add, hpos]
      exact Nat.mod_eq_of_lt (by simp; omega)
    have hnext : UInt32.ofNat p + 4 + lengthAt data (UInt32.ofNat p) =
        UInt32.ofNat ((p + 4 + leNat ((data.drop p).take 4)) % 2 ^ 32) := by
      apply UInt32.toNat_inj.mp
      rw [UInt32.toNat_add, hpayload, hword, UInt32.toNat_ofNat', Nat.mod_mod]
    have hzero : lengthAt data (UInt32.ofNat p) = 0 ↔ leNat ((data.drop p).take 4) = 0 := by
      rw [← UInt32.toNat_inj, hword]
      rfl
    have hpast : UInt32.ofNat p + 4 + lengthAt data (UInt32.ofNat p) > UInt32.ofNat data.length ↔
        data.length < (p + 4 + leNat ((data.drop p).take 4)) % 2 ^ 32 := by
      rw [gt_iff_lt, UInt32.lt_iff_toNat_lt, hlen, UInt32.toNat_add, hpayload, hword]
    rw [if_neg hnlt, if_neg hshort]
    simp only [hzero, hpast]
    simp only [hnext, hpayload, hword]

theorem container_header (bs : List UInt8) : container.header bs =
    if bs.length < 4 ∨ leNat (bs.take 4) = 0 then none else some ((), leNat (bs.take 4)) := by
  simp only [Framing.header, container]
  grind

/-- A record is copied, and the loop goes on behind it. -/
theorem nalLoop_of_next {p : Nat} {bs bs' : List UInt8} {f : Unit × List UInt8}
    (hsize : data.length < 2 ^ 32) (hp : p ≤ data.length) (hbs : data.drop p = bs)
    (hn : container.next bs = some (f, bs')) :
    ∃ p' ≤ data.length, data.drop p' = bs' ∧ f.2 = Slice.bytes ⟨p + 4, p'⟩ data ∧
      ∀ fuel, nalLoop data (UInt32.ofNat data.length) (fuel + 1) (UInt32.ofNat p) =
        (nalLoop data (UInt32.ofNat data.length) fuel (UInt32.ofNat p')).map (⟨p + 4, p'⟩ :: ·) := by
  obtain ⟨t, payload⟩ := f
  obtain ⟨n, hheader, hle, rfl, rfl⟩ := container.next_eq_some_iff.mp hn
  rw [container_header] at hheader
  split at hheader
  · contradiction
  · next hrecord =>
      cases hheader
      have hlen : bs.length = data.length - p := by rw [← hbs, List.length_drop]
      have hle : 4 + leNat (bs.take 4) ≤ bs.length := hle
      have hmod : (p + 4 + leNat (bs.take 4)) % 2 ^ 32 = p + 4 + leNat (bs.take 4) :=
        Nat.mod_eq_of_lt (by omega)
      refine ⟨p + 4 + leNat (bs.take 4), by omega, ?_, ?_, fun fuel => ?_⟩
      · rw [← hbs, List.drop_drop, Nat.add_assoc]
        rfl
      · rw [Slice.bytes, Nat.add_sub_cancel_left, ← hbs, List.drop_drop]
        rfl
      · rw [nalLoop_succ hsize hp hbs, hmod, if_neg (by omega), if_neg (by omega)]

theorem container_next_eq_none {bs : List UInt8} (hn : container.next bs = none) :
    bs.length < 4 ∨ leNat (bs.take 4) = 0 ∨ bs.length < 4 + leNat (bs.take 4) := by
  rw [Framing.next, container_header] at hn
  split at hn
  · next hheader => grind
  · next t n hheader =>
      split at hheader
      · contradiction
      · cases hheader
        split at hn
        · next hshort => exact .inr (.inr hshort)
        · contradiction

/-- Where no record follows, the loop ends, or copies past the end and goes back. -/
theorem nalLoop_of_next_none {p : Nat} {bs : List UInt8} (hsize : data.length < 2 ^ 32)
    (hp : p ≤ data.length) (hbs : data.drop p = bs) (hn : container.next bs = none) :
    (¬ WrapsAt p bs ∧ ∀ fuel,
      nalLoop data (UInt32.ofNat data.length) (fuel + 1) (UInt32.ofNat p) = some []) ∨
    (WrapsAt p bs ∧ ∃ s next, data.length < s.stop ∧ ∀ fuel,
      nalLoop data (UInt32.ofNat data.length) (fuel + 1) (UInt32.ofNat p) =
        (nalLoop data (UInt32.ofNat data.length) fuel next).map (s :: ·)) := by
  have hlen : bs.length = data.length - p := by rw [← hbs, List.length_drop]
  have hword := leNat_lt (bs.take 4)
  have hfour : (bs.take 4).length ≤ 4 := by
    rw [List.length_take]
    omega
  have hword : leNat (bs.take 4) < 2 ^ 32 :=
    Nat.lt_of_lt_of_le hword (Nat.pow_le_pow_right (by decide) hfour)
  have hnone := container_next_eq_none hn
  by_cases hwraps : WrapsAt p bs
  · obtain ⟨hlong, hzero, hpast⟩ := hwraps
    refine .inr ⟨⟨hlong, hzero, hpast⟩, ⟨p + 4, p + 4 + leNat (bs.take 4)⟩,
      UInt32.ofNat ((p + 4 + leNat (bs.take 4)) % 2 ^ 32), ?_, ?_⟩
    · show data.length < p + 4 + leNat (bs.take 4)
      omega
    · intro fuel
      rw [nalLoop_succ hsize hp hbs, if_neg (by omega), if_neg (by omega)]
  · refine .inl ⟨hwraps, fun fuel => ?_⟩
    rw [nalLoop_succ hsize hp hbs]
    simp only [WrapsAt, not_and, Nat.not_le] at hwraps
    split
    · rfl
    · next hlong =>
        have hstop : leNat (bs.take 4) = 0 ∨
            data.length < (p + 4 + leNat (bs.take 4)) % 2 ^ 32 := by
          by_cases hzero : leNat (bs.take 4) = 0
          · exact .inl hzero
          · have hplain := hwraps (by omega) hzero
            omega
        rw [if_pos hstop]

/-- Without a wrapping length behind the records, the loop gives just these. -/
theorem nalLoop_of_not_wrapsAt (hsize : data.length < 2 ^ 32) {p : Nat} {bs : List UInt8}
    (hp : p ≤ data.length) (hbs : data.drop p = bs)
    (hplain : ¬ WrapsAt (data.length - (container.rest bs).length) (container.rest bs)) :
    ∃ fuel slices, nalLoop data (UInt32.ofNat data.length) fuel (UInt32.ofNat p) = some slices ∧
      (∀ s ∈ slices, s.stop ≤ data.length) ∧ slices.map (fun s => s.bytes data) = payloads bs := by
  induction bs using Framing.split.induct container generalizing p with
  | case1 bs hn =>
      have hat : data.length - bs.length = p := by
        rw [← hbs, List.length_drop]
        omega
      rw [container.rest_of_next_none hn, hat] at hplain
      have hloop := (nalLoop_of_next_none hsize hp hbs hn).resolve_right fun h => hplain h.1
      exact ⟨1, [], hloop.2 0, by simp, by simp [payloads, container.split_of_next_none hn]⟩
  | case2 bs f bs' hn ih =>
      rw [container.rest_of_next hn] at hplain
      obtain ⟨p', hp', hbs', hpayload, hloop⟩ := nalLoop_of_next hsize hp hbs hn
      obtain ⟨fuel, slices, hrest, hinside, hmap⟩ := ih hp' hbs' hplain
      refine ⟨fuel + 1, ⟨p + 4, p'⟩ :: slices, ?_, ?_, ?_⟩
      · rw [hloop fuel, hrest, Option.map_some]
      · exact List.forall_mem_cons.mpr ⟨hp', hinside⟩
      · rw [List.map_cons, hmap, ← hpayload, payloads, payloads, container.split_of_next hn,
          List.map_cons]

/-- With a wrapping length behind the records, a range past the end is among what is copied, if the
loop ends at all. -/
theorem exists_past_of_wrapsAt (hsize : data.length < 2 ^ 32) {p : Nat} {bs : List UInt8}
    (hp : p ≤ data.length) (hbs : data.drop p = bs)
    (hwraps : WrapsAt (data.length - (container.rest bs).length) (container.rest bs)) {fuel : Nat}
    {slices : List Slice}
    (hloop : nalLoop data (UInt32.ofNat data.length) fuel (UInt32.ofNat p) = some slices) :
    ∃ s ∈ slices, data.length < s.stop := by
  induction bs using Framing.split.induct container generalizing p fuel slices with
  | case1 bs hn =>
      have hat : data.length - bs.length = p := by
        rw [← hbs, List.length_drop]
        omega
      rw [container.rest_of_next_none hn, hat] at hwraps
      cases fuel with
      | zero => contradiction
      | succ fuel =>
          obtain ⟨-, s, next, hpast, hturn⟩ :=
            (nalLoop_of_next_none hsize hp hbs hn).resolve_left fun h => h.1 hwraps
          rw [hturn fuel, Option.map_eq_some_iff] at hloop
          obtain ⟨later, -, rfl⟩ := hloop
          exact ⟨s, by simp, hpast⟩
  | case2 bs f bs' hn ih =>
      rw [container.rest_of_next hn] at hwraps
      cases fuel with
      | zero => contradiction
      | succ fuel =>
          obtain ⟨p', hp', hbs', -, hturn⟩ := nalLoop_of_next hsize hp hbs hn
          rw [hturn fuel, Option.map_eq_some_iff] at hloop
          obtain ⟨later, hlater, rfl⟩ := hloop
          obtain ⟨s, hs, hpast⟩ := ih hp' hbs' hwraps hlater
          exact ⟨s, .tail _ hs, hpast⟩

theorem reads_payloads_iff (hsize : data.length < 2 ^ 32) :
    Reads data (payloads data) ↔ EndsPlainly data := by
  constructor
  · intro hreads hwraps
    obtain ⟨fuel, slices, hloop, hinside, -⟩ := hreads
    obtain ⟨s, hs, hpast⟩ := exists_past_of_wrapsAt hsize (Nat.zero_le _) rfl hwraps hloop
    exact absurd (hinside s hs) (by omega)
  · exact nalLoop_of_not_wrapsAt hsize (Nat.zero_le _) rfl

end

/-! ## serialized lists -/

/-- The records of a serialized list are its NALs, and nothing is left. -/
theorem split_serialize {nals : List (List UInt8)} (hnals : ∀ nal ∈ nals, nal ≠ [])
    (hsize : (serialize nals).length < 2 ^ 32) :
    payloads (serialize nals) = nals ∧ container.rest (serialize nals) = [] := by
  induction nals with
  | nil =>
      have hnone : container.next [] = none := container.next_of_header_none container.header_nil
      simp [serialize, payloads, container.rest_of_next_none hnone]
  | cons nal nals ih =>
      have hcons : serialize (nal :: nals) = leBytes 4 nal.length ++ nal ++ serialize nals := by
        simp [serialize]
      have hlengths := congrArg List.length hcons
      simp only [List.length_append, length_leBytes] at hlengths
      have hword : leNat (leBytes 4 nal.length) = nal.length :=
        leNat_leBytes_of_lt (show nal.length < 2 ^ 32 by omega)
      have hdecode : container.decode (leBytes 4 nal.length) = some ((), nal.length) := by
        simp [container, hword, hnals nal (by simp)]
      have hn := container.next_encode (length_leBytes 4 nal.length) hdecode (serialize nals)
      obtain ⟨hpayloads, hrest⟩ := ih (fun nal hnal => hnals nal (.tail _ hnal)) (by omega)
      rw [← hcons] at hn
      rw [payloads] at hpayloads ⊢
      rw [container.split_of_next hn, container.rest_of_next hn, List.map_cons, hpayloads]
      exact ⟨rfl, hrest⟩

/-- **NVENC's container**: the loop ends with exactly the payloads of the longest prefix
of well-formed records, all inside the bitstream, exactly when no length behind them has
its end at or above 2^32; so a serialized list of NALs is always read back. -/
theorem container_read_iff {data : List UInt8} (hsize : data.length < 2 ^ 32) :
    (Reads data (payloads data) ↔ EndsPlainly data) ∧
      ∀ nals : List (List UInt8), (∀ nal ∈ nals, nal ≠ []) → (serialize nals).length < 2 ^ 32 →
        Reads (serialize nals) nals := by
  refine ⟨reads_payloads_iff hsize, fun nals hnals hsize => ?_⟩
  obtain ⟨hpayloads, hrest⟩ := split_serialize hnals hsize
  have hreads := (reads_payloads_iff hsize).mpr (by simp [EndsPlainly, WrapsAt, hrest])
  rwa [hpayloads] at hreads

/-- A parameter set and a slice, and a length of 0 behind them. -/
theorem container_read_iff_idr :
    (Reads (serialize [[0x67, 0x42], [0x65, 0x88, 0x80]] ++ [0, 0, 0, 0])
        (payloads (serialize [[0x67, 0x42], [0x65, 0x88, 0x80]] ++ [0, 0, 0, 0])) ↔
      EndsPlainly (serialize [[0x67, 0x42], [0x65, 0x88, 0x80]] ++ [0, 0, 0, 0])) ∧
      Reads (serialize [[0x67, 0x42], [0x65, 0x88, 0x80]]) [[0x67, 0x42], [0x65, 0x88, 0x80]] := by
  have hsize : (serialize [[0x67, 0x42], [0x65, 0x88, 0x80]] ++ [0, 0, 0, 0]).length < 2 ^ 32 := by
    decide
  have hread := container_read_iff hsize
  exact ⟨hread.1, hread.2 [[0x67, 0x42], [0x65, 0x88, 0x80]] (by simp) (by decide)⟩

/-- A length of 2^32 - 1 passes the guard: its end has wrapped around to 3. -/
theorem container_wraps :
    ¬ Reads [0xFF, 0xFF, 0xFF, 0xFF] (payloads [0xFF, 0xFF, 0xFF, 0xFF]) := by
  rw [reads_payloads_iff (by decide), EndsPlainly, container.rest_of_next_none (by decide), not_not]
  simp [WrapsAt, leNat_cons]

/-! ## the frame of an `Encode` -/

/-- The loop gives the same whatever the fuel it ends with. -/
theorem nalLoop_unique {data : List UInt8} {size pos : UInt32} {fuel fuel' : Nat}
    {slices slices' : List Slice} (h : nalLoop data size fuel pos = some slices)
    (h' : nalLoop data size fuel' pos = some slices') : slices = slices' := by
  induction fuel generalizing fuel' pos slices slices' with
  | zero => contradiction
  | succ fuel ih =>
      cases fuel' with
      | zero => contradiction
      | succ fuel' =>
          rw [nalLoop] at h h'
          split at h
          · next hend =>
              rw [if_pos hend] at h'
              exact Option.some.inj (h.symm.trans h')
          · next hend =>
              rw [if_neg hend] at h'
              dsimp only at h h'
              split at h
              · next hstop =>
                  rw [if_pos hstop] at h'
                  exact Option.some.inj (h.symm.trans h')
              · next hstop =>
                  rw [if_neg hstop] at h'
                  obtain ⟨rest, hrest, rfl⟩ := Option.map_eq_some_iff.mp h
                  obtain ⟨rest', hrest', rfl⟩ := Option.map_eq_some_iff.mp h'
                  rw [ih hrest hrest']

theorem Reads.unique {data : List UInt8} {nals nals' : List (List UInt8)} (h : Reads data nals)
    (h' : Reads data nals') : nals = nals' := by
  obtain ⟨fuel, slices, hloop, -, rfl⟩ := h
  obtain ⟨fuel', slices', hloop', -, rfl⟩ := h'
  rw [nalLoop_unique hloop hloop']

/-- **`Encode` and the container**: when the NALs of the output are those that the loop reads in
the locked bitstream, and that ends plainly, the frame has the payloads of its well-formed
records. -/
theorem nals_encode {data : List UInt8} (hsize : data.length < 2 ^ 32) (hends : EndsPlainly data)
    {env : EncodeEnv} {output : NvOutput} (hlock : env.lockBitstream = some output)
    (hreads : Reads data output.nals) (frame : Frame) (s : NvEncoder) :
    Wp (fun _ => True) (encode frame env)
      (fun out _ => out.nals = payloads data ∧ out.keyframe = output.idr) (fun _ => True) s := by
  have hnals : output.nals = payloads data := hreads.unique ((reads_payloads_iff hsize).mpr hends)
  have hmapped (s : NvEncoder) : Wp (fun _ => True) (encodeMapped env)
      (fun out _ => out.nals = payloads data ∧ out.keyframe = output.idr) (fun _ => True) s := by
    simp [encodeMapped, hlock, hnals]
    split <;> simp
  have hprepared (s : NvEncoder) :
      Wp (fun _ => True) (prepare frame env) (fun _ _ => True) (fun _ => True) s :=
    wp_calls.mpr fun _ _ => trivial
  rw [encode, wp_bind, wp_state, wp_bind, wp_check]
  split
  · exact wp_bind_of (hprepared s) fun _ s' _ => hmapped s'
  · trivial

end TwinScreen.Host.Nvenc
