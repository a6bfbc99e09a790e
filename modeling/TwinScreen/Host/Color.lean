import Mathlib.Algebra.Ring.Int.Defs
import TwinScreen.Lib.Store

/-!
# TwinScreen.Host.Color

`BgraToNv12` of `host/src/encode/color.cpp`, as the stores it makes in order, and
the NV12 layout that the encoders it is called for hand on.

* `reads_visible_iff` — for which sizes only pixels of the picture are read.
* `layout_bgraToNv12_iff` — for which sizes the chroma rows are where the consumer
  reads them.
-/

namespace TwinScreen.Host

open Lib

/-! ## BgraToNv12 -/

def clipByte (v : Int) : UInt8 :=
  UInt8.ofNat (if v < 0 then 0 else if v > 255 then 255 else v).toNat

/-- A store of one byte: the source offsets its value is computed from, the offset
it goes to, and the argument of `ClipByte`. -/
structure ByteStore where
  reads : List Nat
  offset : Nat
  value : Int
  deriving DecidableEq

def ByteStore.write (s : ByteStore) : Nat × UInt8 := (s.offset, clipByte s.value)

section

variable (bgra : Nat → UInt8) (bgraPitch : Nat)

/-- Offset of pixel `x` of a row; `4 * x` is computed in 32 bits. -/
def pixelAt (row x : Nat) : Nat := row + 4 * x % 2 ^ 32

/-- Channel `c` of a pixel: 0 is blue, 1 green, 2 red. -/
def channel (pixel c : Nat) : Int := (bgra (pixel + c)).toNat

/-- The luma of pixel `x` of row `y`. -/
def luma (x y : Nat) : Int :=
  let src := pixelAt (y * bgraPitch) x
  let b := channel bgra src 0
  let g := channel bgra src 1
  let r := channel bgra src 2
  ((66 * r + 129 * g + 25 * b + 128) >>> (8 : Nat)) + 16

/-- The four pixels of the block with its corner at column `x` of row `2 * y`. -/
def block (x y : Nat) : List Nat :=
  let r0 := 2 * y * bgraPitch
  let r1 := r0 + bgraPitch
  let p00 := pixelAt r0 x
  let p10 := pixelAt r1 x
  [p00, p00 + 4, p10, p10 + 4]

/-- The sum of a channel over a block. -/
def blockSum (x y c : Nat) : Int := ((block bgraPitch x y).map fun p => channel bgra p c).sum

def chromaU (x y : Nat) : Int :=
  let rs := blockSum bgra bgraPitch x y 2
  let gs := blockSum bgra bgraPitch x y 1
  let bs := blockSum bgra bgraPitch x y 0
  128 + ((112 * bs - 74 * gs - 38 * rs + 512) >>> (10 : Nat))

def chromaV (x y : Nat) : Int :=
  let rs := blockSum bgra bgraPitch x y 2
  let gs := blockSum bgra bgraPitch x y 1
  let bs := blockSum bgra bgraPitch x y 0
  128 + ((112 * rs - 94 * gs - 18 * bs + 512) >>> (10 : Nat))

/-- The offsets of the three colour channels of some pixels. -/
def channelsOf (pixels : List Nat) : List Nat := pixels.flatMap fun p => [p, p + 1, p + 2]

variable (nv12Pitch w h : Nat)

/-- The first loop nest: one luma byte a pixel. -/
def lumaStores : List ByteStore :=
  (List.range h).flatMap fun y => (List.range w).map fun x =>
    { reads := channelsOf [pixelAt (y * bgraPitch) x]
      offset := y * nv12Pitch + x
      value := luma bgra bgraPitch x y }

/-- The second loop nest: one chroma pair for every second column of a row pair.  It
starts at row `h`; `x` runs over the even columns below `w`. -/
def chromaStores : List ByteStore :=
  let dstUv := h * nv12Pitch
  (List.range (h / 2)).flatMap fun y => (List.range ((w + 1) / 2)).flatMap fun k =>
    let x := 2 * k
    let uv := dstUv + y * nv12Pitch
    [{ reads := channelsOf (block bgraPitch x y)
       offset := uv + (2 * (x >>> 1) + 0)
       value := chromaU bgra bgraPitch x y },
     { reads := channelsOf (block bgraPitch x y)
       offset := uv + (2 * (x >>> 1) + 1)
       value := chromaV bgra bgraPitch x y }]

/-- The stores of `BgraToNv12`. -/
def bgraToNv12 : List ByteStore :=
  lumaStores bgra bgraPitch nv12Pitch w h ++ chromaStores bgra bgraPitch nv12Pitch w h

/-- The destination buffer after them. -/
def nv12After (nv12 : Nat → UInt8) : Nat → UInt8 :=
  storeAll nv12 ((bgraToNv12 bgra bgraPitch nv12Pitch w h).map ByteStore.write)

/-! ## what the buffer holds -/

variable {bgra bgraPitch nv12Pitch w h} {nv12 : Nat → UInt8}

theorem mem_lumaStores_iff {a : Nat} {v : UInt8} :
    (a, v) ∈ (lumaStores bgra bgraPitch nv12Pitch w h).map ByteStore.write ↔
      ∃ y < h, ∃ x < w, a = y * nv12Pitch + x ∧ v = clipByte (luma bgra bgraPitch x y) := by
  simp only [lumaStores, List.map_flatMap, List.map_map, List.mem_flatMap, List.mem_map,
    List.mem_range, Function.comp, ByteStore.write, Prod.mk.injEq]
  grind

theorem mem_chromaStores_iff {a : Nat} {v : UInt8} :
    (a, v) ∈ (chromaStores bgra bgraPitch nv12Pitch w h).map ByteStore.write ↔
      ∃ y < h / 2, ∃ k < (w + 1) / 2,
        a = (h + y) * nv12Pitch + 2 * k ∧ v = clipByte (chromaU bgra bgraPitch (2 * k) y) ∨
        a = (h + y) * nv12Pitch + (2 * k + 1) ∧
          v = clipByte (chromaV bgra bgraPitch (2 * k) y) := by
  have hhalf (k : Nat) : (2 * k) >>> 1 = k := by simp [Nat.shiftRight_eq_div_pow]
  simp only [chromaStores, List.map_flatMap, List.map_cons, List.map_nil, List.mem_flatMap,
    List.mem_range, List.mem_cons, List.not_mem_nil, or_false, ByteStore.write, Prod.mk.injEq,
    hhalf, Nat.add_mul, Nat.add_zero]

/-- A byte that is stored is a luma byte or one of a chroma pair. -/
theorem mem_bgraToNv12_iff {a : Nat} {v : UInt8} :
    (a, v) ∈ (bgraToNv12 bgra bgraPitch nv12Pitch w h).map ByteStore.write ↔
      (a, v) ∈ (lumaStores bgra bgraPitch nv12Pitch w h).map ByteStore.write ∨
        (a, v) ∈ (chromaStores bgra bgraPitch nv12Pitch w h).map ByteStore.write := by
  rw [bgraToNv12, List.map_append, List.mem_append]

section

variable (hw : w ≤ nv12Pitch) (hpairs : 2 * ((w + 1) / 2) ≤ nv12Pitch)
include hw hpairs

/-- The luma bytes are not stored over. -/
theorem nv12After_luma {x y : Nat} (hx : x < w) (hy : y < h) :
    nv12After bgra bgraPitch nv12Pitch w h nv12 (y * nv12Pitch + x) =
      clipByte (luma bgra bgraPitch x y) := by
  apply storeAll_of_mem
  · exact mem_bgraToNv12_iff.mpr (.inl (mem_lumaStores_iff.mpr ⟨y, hy, x, hx, rfl, rfl⟩))
  · intro v' hv
    rcases mem_bgraToNv12_iff.mp hv with hv | hv
    · obtain ⟨y', -, x', hx', haddr, rfl⟩ := mem_lumaStores_iff.mp hv
      obtain ⟨rfl, rfl⟩ := raster_inj (by omega) (by omega) haddr
      rfl
    · obtain ⟨y', -, k', hk', ⟨haddr, -⟩ | ⟨haddr, -⟩⟩ := mem_chromaStores_iff.mp hv
      all_goals
        have hrow := raster_inj (by omega) (by omega) haddr
        omega

/-- What is stored in a chroma row is a chroma byte of its pixel rows. -/
theorem chroma_of_mem {y i : Nat} {v : UInt8} (hi : i < nv12Pitch)
    (hv : ((h + y) * nv12Pitch + i, v) ∈
      (bgraToNv12 bgra bgraPitch nv12Pitch w h).map ByteStore.write) :
    ∃ k < (w + 1) / 2, i = 2 * k ∧ v = clipByte (chromaU bgra bgraPitch (2 * k) y) ∨
      i = 2 * k + 1 ∧ v = clipByte (chromaV bgra bgraPitch (2 * k) y) := by
  rcases mem_bgraToNv12_iff.mp hv with hv | hv
  · obtain ⟨y', hy', x, hx, haddr, -⟩ := mem_lumaStores_iff.mp hv
    have hrow := raster_inj hi (by omega) haddr
    omega
  · obtain ⟨y', -, k, hk, ⟨haddr, hv'⟩ | ⟨haddr, hv'⟩⟩ := mem_chromaStores_iff.mp hv
    all_goals
      obtain ⟨hrow, rfl⟩ := raster_inj hi (by omega) haddr
      obtain rfl : y = y' := by omega
      exact ⟨k, hk, by simp [hv']⟩

/-- A chroma pair stands in row `h` and the rows after it. -/
theorem nv12After_chroma {k y : Nat} (hk : k < (w + 1) / 2) (hy : y < h / 2) :
    nv12After bgra bgraPitch nv12Pitch w h nv12 ((h + y) * nv12Pitch + 2 * k) =
        clipByte (chromaU bgra bgraPitch (2 * k) y) ∧
      nv12After bgra bgraPitch nv12Pitch w h nv12 ((h + y) * nv12Pitch + (2 * k + 1)) =
        clipByte (chromaV bgra bgraPitch (2 * k) y) := by
  constructor
  · apply storeAll_of_mem
    · exact mem_bgraToNv12_iff.mpr (.inr (mem_chromaStores_iff.mpr ⟨y, hy, k, hk, .inl ⟨rfl, rfl⟩⟩))
    · intro v' hv
      obtain ⟨k', -, ⟨heq, rfl⟩ | ⟨heq, -⟩⟩ := chroma_of_mem hw hpairs (by omega) hv
      · rw [show k' = k by omega]
      · omega
  · apply storeAll_of_mem
    · exact mem_bgraToNv12_iff.mpr (.inr (mem_chromaStores_iff.mpr ⟨y, hy, k, hk, .inr ⟨rfl, rfl⟩⟩))
    · intro v' hv
      obtain ⟨k', -, ⟨heq, -⟩ | ⟨heq, rfl⟩⟩ := chroma_of_mem hw hpairs (by omega) hv
      · omega
      · rw [show k' = k by omega]

/-- The rows behind the chroma rows keep what they held. -/
theorem nv12After_behind {r c : Nat} (hr : h + h / 2 ≤ r) (hc : c < nv12Pitch) :
    nv12After bgra bgraPitch nv12Pitch w h nv12 (r * nv12Pitch + c) = nv12 (r * nv12Pitch + c) := by
  apply storeAll_of_not_mem
  intro v hv
  rcases mem_bgraToNv12_iff.mp hv with hv | hv
  · obtain ⟨y, hy, x, hx, haddr, -⟩ := mem_lumaStores_iff.mp hv
    have hrow := raster_inj hc (by omega) haddr
    omega
  · obtain ⟨y, hy, k, hk, ⟨haddr, -⟩ | ⟨haddr, -⟩⟩ := mem_chromaStores_iff.mp hv
    all_goals
      have hrow := raster_inj hc (by omega) haddr
      omega

end

end

/-! ## what is read -/

/-- `a` is a byte of one of the pixels of a picture of `w` columns and `h` rows. -/
def Visible (pitch w h a : Nat) : Prop := ∃ y < h, ∃ i < 4 * w, a = y * pitch + i

/-- The right column of the last blocks is one of the picture's: there is no odd
column, or no block, or what is read instead is the start of the next row, or `4 * x`
has wrapped around. -/
def BlocksVisible (pitch w h : Nat) : Prop :=
  w % 2 = 0 ∨ h < 2 ∨ pitch = 4 * w ∧ h % 2 = 1 ∨ 2 ^ 30 < w

section

variable {bgra : Nat → UInt8} {bgraPitch nv12Pitch w h x y : Nat} {P : Nat → Prop}

/-- All channels of a pixel at `p`. -/
def Channels (P : Nat → Prop) (p : Nat) : Prop := P p ∧ P (p + 1) ∧ P (p + 2)

theorem forall_channelsOf_iff {pixels : List Nat} :
    (∀ a ∈ channelsOf pixels, P a) ↔ ∀ p ∈ pixels, Channels P p := by
  simp only [channelsOf, List.mem_flatMap, Channels]
  grind

/-- What is read: each pixel, and both columns of each block in both rows. -/
theorem forall_reads_iff :
    (∀ s ∈ bgraToNv12 bgra bgraPitch nv12Pitch w h, ∀ a ∈ s.reads, P a) ↔
      (∀ y < h, ∀ x < w, Channels P (y * bgraPitch + 4 * x % 2 ^ 32)) ∧
        ∀ y < h / 2, ∀ k < (w + 1) / 2, ∀ r < 2,
          Channels P ((2 * y + r) * bgraPitch + 4 * (2 * k) % 2 ^ 32) ∧
            Channels P ((2 * y + r) * bgraPitch + 4 * (2 * k) % 2 ^ 32 + 4) := by
  have hrows (Q : Nat → Prop) : (∀ r < 2, Q r) ↔ Q 0 ∧ Q 1 := by
    grind
  simp only [bgraToNv12, List.forall_mem_append, lumaStores, chromaStores, List.forall_mem_flatMap,
    List.forall_mem_map, List.forall_mem_cons, List.not_mem_nil, false_imp_iff, implies_true,
    and_true, and_self, forall_channelsOf_iff, List.mem_range, hrows, block, pixelAt, Nat.add_mul,
    Nat.zero_mul, Nat.one_mul, Nat.add_zero]
  simp only [and_assoc]

variable {i : Nat}

theorem channels_visible (hy : y < h) (hi : i + 2 < 4 * w) :
    Channels (Visible bgraPitch w h) (y * bgraPitch + i) :=
  ⟨⟨y, hy, i, by omega, rfl⟩, ⟨y, hy, i + 1, by omega, by omega⟩, ⟨y, hy, i + 2, hi, by omega⟩⟩

/-- One column to the right is the start of the next row, if anything. -/
theorem channels_visible_right_iff (hpitch : 4 * w ≤ bgraPitch) (hw : 0 < w) :
    Channels (Visible bgraPitch w h) (y * bgraPitch + 4 * w) ↔
      bgraPitch = 4 * w ∧ y + 1 < h := by
  constructor
  · intro hchannels
    obtain ⟨y', hy', i, hi, heq⟩ := hchannels.1
    have hnext : bgraPitch = 4 * w := by
      by_cases hlt : 4 * w < bgraPitch
      · have hcolumn := raster_inj hlt (by omega) heq
        omega
      · omega
    rw [← hnext, ← Nat.succ_mul, ← Nat.add_zero (y.succ * bgraPitch)] at heq
    have hrow := raster_inj (by omega) (by omega) heq
    exact ⟨hnext, by omega⟩
  · intro hnext
    obtain ⟨hnext, hy⟩ := hnext
    rw [← hnext, ← Nat.succ_mul, ← Nat.add_zero (y.succ * bgraPitch)]
    exact channels_visible hy (by omega)

/-- **What is read**: `BgraToNv12` keeps to the pixels of the picture exactly when its
last blocks do. -/
theorem reads_visible_iff (hpitch : 4 * w ≤ bgraPitch) :
    (∀ s ∈ bgraToNv12 bgra bgraPitch nv12Pitch w h, ∀ a ∈ s.reads, Visible bgraPitch w h a) ↔
      BlocksVisible bgraPitch w h := by
  rw [forall_reads_iff]
  constructor
  · intro hreads
    by_cases hlast : w % 2 = 0 ∨ h < 2 ∨ 2 ^ 30 < w
    · grind [BlocksVisible]
    · have hright := (hreads.2 (h / 2 - 1) (by omega) (w / 2) (by omega) 1 (by omega)).2
      rw [Nat.add_assoc, show 4 * (2 * (w / 2)) % 2 ^ 32 + 4 = 4 * w by omega,
        channels_visible_right_iff hpitch (by omega)] at hright
      exact .inr (.inr (.inl ⟨hright.1, by omega⟩))
  · intro hlast
    refine ⟨fun y hy x hx => channels_visible hy (by omega), fun y hy k hk r hr => ?_⟩
    refine ⟨channels_visible (by omega) (by omega), ?_⟩
    rw [Nat.add_assoc]
    by_cases hinside : 4 * (2 * k) % 2 ^ 32 + 4 + 2 < 4 * w
    · exact channels_visible (by omega) hinside
    · have hodd : bgraPitch = 4 * w ∧ h % 2 = 1 ∧ w ≤ 2 ^ 30 := by
        unfold BlocksVisible at hlast
        omega
      rw [show 4 * (2 * k) % 2 ^ 32 + 4 = 4 * w by omega,
        channels_visible_right_iff hpitch (by omega)]
      exact ⟨hodd.1, by omega⟩

end

/-! ## the layout the encoders hand on -/

/-- A side rounded up to a multiple of 16, `(n + 15) & ~15u`. -/
def encSide (n : UInt32) : UInt32 := (n + 15) &&& ~~~15

/-- Bytes of an NV12 buffer of rounded sides; the product is taken in 64 bits. -/
def nv12Bytes (encSize : UInt32 × UInt32) : Nat :=
  encSize.1.toNat * encSize.2.toNat * 3 % 2 ^ 64 / 2

/-- Where the consumers of the buffer look, QSV by the surface's `U` pointer and AMF
by the rows of an `encW` x `encH` NV12 texture: luma row `y` at `y * encW`, and the
chroma row of pixel rows `2 * y` and `2 * y + 1` at `encW * encH + y * encW`. -/
structure Layout (bgra : Nat → UInt8) (bgraPitch w h encW encH : Nat) (nv12 : Nat → UInt8) :
    Prop where
  luma : ∀ y < h, ∀ x < w, nv12 (y * encW + x) = clipByte (luma bgra bgraPitch x y)
  chroma : ∀ y < h / 2, ∀ k < (w + 1) / 2,
    nv12 (encW * encH + y * encW + 2 * k) = clipByte (chromaU bgra bgraPitch (2 * k) y) ∧
      nv12 (encW * encH + y * encW + (2 * k + 1)) = clipByte (chromaV bgra bgraPitch (2 * k) y)

theorem toNat_encSide (n : UInt32) : (encSide n).toNat = (n.toNat + 15) % 2 ^ 32 / 16 * 16 := by
  rw [encSide, UInt32.toNat_and, UInt32.toNat_add]
  exact and_highMask (k := 4) (m := 28) (Nat.mod_lt _ (by decide))

/-- The sum wraps around above the last multiple of 16. -/
theorem toNat_encSide_cases {n : UInt32} (hn : 0 < n) :
    (encSide n).toNat = 0 ∧ 2 ^ 32 - 16 < n.toNat ∨
      (encSide n).toNat = (n.toNat + 15) / 16 * 16 ∧ n.toNat ≤ 2 ^ 32 - 16 := by
  have hpos : 0 < n.toNat := hn
  have hlt := n.toNat_lt
  have henc := toNat_encSide n
  omega

/-- A frame with a single bright byte, the blue of the first block of a row pair, has
another chroma there than a black one. -/
theorem chromaU_point (bgraPitch y : Nat) :
    clipByte (chromaU (fun a => if a = 2 * y * bgraPitch then 255 else 0) bgraPitch 0 y) ≠
      clipByte (chromaU (fun _ => 0) bgraPitch 0 y) := by
  have hblack (c : Nat) : blockSum (fun _ => 0) bgraPitch 0 y c = 0 := by
    simp [blockSum, block, channel]
  generalize hrow : 2 * y * bgraPitch = row
  have hchannel (p c : Nat) :
      channel (fun a => if a = row then 255 else 0) p c = if p + c = row then 255 else 0 := by
    simp only [channel]
    split <;> rfl
  have hblue : blockSum (fun a => if a = row then 255 else 0) bgraPitch 0 y 0 =
      if bgraPitch = 0 then 510 else 255 := by
    simp only [blockSum, block, pixelAt, hrow, List.map_cons, List.map_nil, List.sum_cons,
      List.sum_nil, hchannel]
    grind
  have hother (c : Nat) (hc : c ≠ 0) :
      blockSum (fun a => if a = row then 255 else 0) bgraPitch 0 y c = 0 := by
    simp only [blockSum, block, pixelAt, hrow, List.map_cons, List.map_nil, List.sum_cons,
      List.sum_nil, hchannel]
    grind
  simp only [chromaU, hblack, hblue, hother 1 (by decide), hother 2 (by decide)]
  split <;> decide

/-- With rows added below the frame, the last chroma row is read where no store goes. -/
theorem not_layout_of_lt {w h encW encH : Nat} (hw : 0 < w) (hfit : w ≤ encW)
    (hpairs : 2 * ((w + 1) / 2) ≤ encW) (hrows : h < encH) (hh : 2 ≤ h) (bgraPitch : Nat)
    (nv12 : Nat → UInt8) :
    ¬ ∀ bgra, Layout bgra bgraPitch w h encW encH (nv12After bgra bgraPitch encW w h nv12) := by
  intro hlayout
  have hkept (bgra) : nv12 ((encH + (h / 2 - 1)) * encW + 0) =
      clipByte (chromaU bgra bgraPitch 0 (h / 2 - 1)) := by
    have hread := ((hlayout bgra).chroma (h / 2 - 1) (by omega) 0 (by omega)).1
    rw [Nat.mul_comm encW, ← Nat.add_mul] at hread
    exact (nv12After_behind hfit hpairs (by omega) (by omega)).symm.trans hread
  exact chromaU_point bgraPitch _ ((hkept _).symm.trans (hkept _))

/-- Where a side has wrapped around to 0 the two planes begin at the same byte, of
which a black frame asks for both. -/
theorem not_layout_of_area_zero {w h encW encH : Nat} (hw : 0 < w) (hh : 2 ≤ h)
    (harea : encW * encH = 0) (bgraPitch : Nat) (nv12 : Nat → UInt8) :
    ¬ Layout (fun _ => 0) bgraPitch w h encW encH nv12 := by
  intro hlayout
  have hluma := hlayout.luma 0 (by omega) 0 hw
  have hchroma := (hlayout.chroma 0 (by omega) 0 (by omega)).1
  have hblack (c : Nat) : blockSum (fun _ => 0) bgraPitch 0 0 c = 0 := by
    simp [blockSum, block, channel]
  simp only [harea, Nat.zero_mul, Nat.mul_zero, Nat.add_zero] at hluma hchroma
  rw [hluma] at hchroma
  simp only [luma, channel, chromaU, hblack] at hchroma
  contradiction

/-- A single row has luma only. -/
theorem layout_of_single {w encW encH : Nat} (bgra : Nat → UInt8) (bgraPitch : Nat)
    (nv12 : Nat → UInt8) :
    Layout bgra bgraPitch w 1 encW encH (nv12After bgra bgraPitch encW w 1 nv12) where
  luma y hy x hx := by
    obtain rfl : y = 0 := by omega
    apply storeAll_of_mem
    · exact mem_bgraToNv12_iff.mpr (.inl (mem_lumaStores_iff.mpr ⟨0, hy, x, hx, rfl, rfl⟩))
    · intro v' hv
      rcases mem_bgraToNv12_iff.mp hv with hv | hv
      · obtain ⟨y', hy', x', -, haddr, rfl⟩ := mem_lumaStores_iff.mp hv
        obtain rfl : y' = 0 := by omega
        rw [Nat.add_left_cancel haddr]
      · obtain ⟨y', hy', -⟩ := mem_chromaStores_iff.mp hv
        contradiction
  chroma y hy := by contradiction

/-- **The chroma plane**: the buffer has the layout its consumers read, whatever the
frame, exactly when the frame has no chroma row, or no rows are added to its height and
its rounded width does not wrap around. -/
theorem layout_bgraToNv12_iff {w h : UInt32} (hw : 0 < w) (hh : 0 < h) (bgraPitch : Nat)
    (nv12 : Nat → UInt8) :
    (∀ bgra, Layout bgra bgraPitch w.toNat h.toNat (encSide w).toNat (encSide h).toNat
        (nv12After bgra bgraPitch (encSide w).toNat w.toNat h.toNat nv12)) ↔
      h.toNat = 1 ∨ 16 ∣ h.toNat ∧ w.toNat ≤ 2 ^ 32 - 16 := by
  have hW := toNat_encSide_cases hw
  have hH := toNat_encSide_cases hh
  have hlt := h.toNat_lt
  have hwpos : 0 < w.toNat := hw
  have hhpos : 0 < h.toNat := hh
  generalize (encSide w).toNat = encW at *
  generalize (encSide h).toNat = encH at *
  by_cases hone : h.toNat = 1
  · rw [hone]
    simpa using fun bgra => layout_of_single bgra bgraPitch nv12
  · have htwo : 2 ≤ h.toNat := by omega
    have hzero : encW * encH = 0 → ¬ ∀ bgra, Layout bgra bgraPitch w.toNat h.toNat encW encH
        (nv12After bgra bgraPitch encW w.toNat h.toNat nv12) := fun harea hlayout =>
      not_layout_of_area_zero hwpos htwo harea bgraPitch _ (hlayout _)
    rcases hW with ⟨hW, hwrap⟩ | ⟨hW, hwide⟩
    · exact iff_of_false (hzero (by rw [hW, Nat.zero_mul])) (by omega)
    · rcases hH with ⟨hH, hwrap⟩ | ⟨hH, -⟩
      · exact iff_of_false (hzero (by rw [hH, Nat.mul_zero])) (by omega)
      · have hfit : w.toNat ≤ encW := by omega
        have hpairs : 2 * ((w.toNat + 1) / 2) ≤ encW := by omega
        constructor
        · intro hlayout
          apply Decidable.byContradiction
          intro hnot
          exact not_layout_of_lt hwpos hfit hpairs (by omega) htwo bgraPitch nv12 hlayout
        · intro hheight bgra
          constructor
          · intro y hy x hx
            exact nv12After_luma hfit hpairs hx hy
          · intro y hy k hk
            have hsame : encH = h.toNat := by omega
            rw [Nat.mul_comm encW, ← Nat.add_mul, hsame]
            exact nv12After_chroma hfit hpairs hk hy

/-- 1920 x 1088 frames need no added rows. -/
theorem layout_bgraToNv12_1088 :
    (∀ bgra, Layout bgra 7680 1920 1088 1920 1088
        (nv12After bgra 7680 1920 1920 1088 fun _ => 0x80)) ↔
      1088 = 1 ∨ 16 ∣ 1088 ∧ 1920 ≤ 2 ^ 32 - 16 :=
  layout_bgraToNv12_iff (w := 1920) (h := 1088) (by decide) (by decide) 7680 _

/-- 1920 x 1080 frames have their chroma eight rows too early. -/
theorem not_layout_1080 : ¬ ∀ bgra, Layout bgra 7680 1920 1080 1920 1088
    (nv12After bgra 7680 1920 1920 1080 fun _ => 0x80) :=
  not_layout_of_lt (by decide) (by decide) (by decide) (by decide) (by decide) 7680 _

end TwinScreen.Host
