import Mathlib.Data.List.Basic
import TwinScreen.Host.Color

/-!
# TwinScreen.Host.ColorRange

The bytes that `BgraToNv12` stores: the range they are in, and which bytes of the
source they come from.

* `limitedRange_nv12After` — the stored values are in the limited range of BT.601.
* `keepsToPicture_iff` — for which sizes the output is a function of the picture.
-/

namespace TwinScreen.Host

open Lib

/-! ## the values -/

section

variable {bgra : Nat → UInt8} {bgraPitch nv12Pitch w h x y : Nat}

theorem channel_bounds (bgra : Nat → UInt8) (pixel c : Nat) :
    0 ≤ channel bgra pixel c ∧ channel bgra pixel c ≤ 255 := by
  have hlt := (bgra (pixel + c)).toNat_lt
  unfold channel
  omega

/-- A value that fits a byte is not clipped. -/
theorem toNat_clipByte {v : Int} (hlow : 0 ≤ v) (hhigh : v ≤ 255) :
    ((clipByte v).toNat : Int) = v := by
  have hsize : v.toNat < UInt8.size := by
    rw [UInt8.size]
    omega
  rw [clipByte, if_neg (by omega), if_neg (by omega), UInt8.toNat_ofNat_of_lt' hsize]
  omega

theorem luma_bounds (bgra : Nat → UInt8) (bgraPitch x y : Nat) :
    16 ≤ luma bgra bgraPitch x y ∧ luma bgra bgraPitch x y ≤ 235 := by
  have hb := channel_bounds bgra (pixelAt (y * bgraPitch) x) 0
  have hg := channel_bounds bgra (pixelAt (y * bgraPitch) x) 1
  have hr := channel_bounds bgra (pixelAt (y * bgraPitch) x) 2
  simp only [luma, Int.shiftRight_eq_div_pow]
  omega

theorem blockSum_bounds (bgra : Nat → UInt8) (bgraPitch x y c : Nat) :
    0 ≤ blockSum bgra bgraPitch x y c ∧ blockSum bgra bgraPitch x y c ≤ 1020 := by
  have h (p : Nat) := channel_bounds bgra p c
  simp only [blockSum, block, List.map_cons, List.map_nil, List.sum_cons, List.sum_nil]
  grind

theorem chromaU_bounds (bgra : Nat → UInt8) (bgraPitch x y : Nat) :
    16 ≤ chromaU bgra bgraPitch x y ∧ chromaU bgra bgraPitch x y ≤ 240 := by
  have hb := blockSum_bounds bgra bgraPitch x y 0
  have hg := blockSum_bounds bgra bgraPitch x y 1
  have hr := blockSum_bounds bgra bgraPitch x y 2
  simp only [chromaU, Int.shiftRight_eq_div_pow]
  omega

theorem chromaV_bounds (bgra : Nat → UInt8) (bgraPitch x y : Nat) :
    16 ≤ chromaV bgra bgraPitch x y ∧ chromaV bgra bgraPitch x y ≤ 240 := by
  have hb := blockSum_bounds bgra bgraPitch x y 0
  have hg := blockSum_bounds bgra bgraPitch x y 1
  have hr := blockSum_bounds bgra bgraPitch x y 2
  simp only [chromaV, Int.shiftRight_eq_div_pow]
  omega

/-- Every pixel of a block has the channels `b`, `g` and `r`. -/
def BlockIs (bgra : Nat → UInt8) (bgraPitch x y : Nat) (b g r : UInt8) : Prop :=
  ∀ p ∈ block bgraPitch x y, bgra p = b ∧ bgra (p + 1) = g ∧ bgra (p + 2) = r

/-- Every pixel of a block is grey. -/
def BlockGrey (bgra : Nat → UInt8) (bgraPitch x y : Nat) : Prop :=
  ∀ p ∈ block bgraPitch x y, bgra p = bgra (p + 1) ∧ bgra (p + 1) = bgra (p + 2)

theorem blockSum_congr {bgra bgra' : Nat → UInt8} {c c' : Nat}
    (h : ∀ p ∈ block bgraPitch x y, bgra (p + c) = bgra' (p + c')) :
    blockSum bgra bgraPitch x y c = blockSum bgra' bgraPitch x y c' := by
  have hmap : (block bgraPitch x y).map (channel bgra · c) =
      (block bgraPitch x y).map (channel bgra' · c') := by
    apply List.map_congr_left
    intro p hp
    rw [channel, channel, h p hp]
  rw [blockSum, blockSum, hmap]

theorem blockSum_const {c : Nat} {v : UInt8} (h : ∀ p ∈ block bgraPitch x y, bgra (p + c) = v) :
    blockSum bgra bgraPitch x y c = 4 * v.toNat := by
  simp only [block, List.forall_mem_cons, List.not_mem_nil, false_imp_iff, implies_true] at h
  simp only [blockSum, block, List.map_cons, List.map_nil, List.sum_cons, List.sum_nil, channel]
  grind

/-- The weights of each chroma come to zero. -/
theorem chroma_of_grey (h : BlockGrey bgra bgraPitch x y) :
    chromaU bgra bgraPitch x y = 128 ∧ chromaV bgra bgraPitch x y = 128 := by
  have hbg : blockSum bgra bgraPitch x y 0 = blockSum bgra bgraPitch x y 1 :=
    blockSum_congr fun p hp => (h p hp).1
  have hgr : blockSum bgra bgraPitch x y 1 = blockSum bgra bgraPitch x y 2 :=
    blockSum_congr fun p hp => (h p hp).2
  simp only [chromaU, chromaV, Int.shiftRight_eq_div_pow]
  omega

/-- Four equal pixels round as one: the sum and the offset are four times as much. -/
theorem chroma_of_blockIs {b g r : UInt8} (h : BlockIs bgra bgraPitch x y b g r) :
    chromaU bgra bgraPitch x y =
        128 + ((112 * b.toNat - 74 * g.toNat - 38 * r.toNat + 128 : Int) >>> (8 : Nat)) ∧
      chromaV bgra bgraPitch x y =
        128 + ((112 * r.toNat - 94 * g.toNat - 18 * b.toNat + 128 : Int) >>> (8 : Nat)) := by
  have hb : blockSum bgra bgraPitch x y 0 = 4 * b.toNat := blockSum_const fun p hp => (h p hp).1
  have hg : blockSum bgra bgraPitch x y 1 = 4 * g.toNat := blockSum_const fun p hp => (h p hp).2.1
  have hr : blockSum bgra bgraPitch x y 2 = 4 * r.toNat := blockSum_const fun p hp => (h p hp).2.2
  simp only [chromaU, chromaV, hb, hg, hr, Int.shiftRight_eq_div_pow]
  omega

end

/-! ## the limited range -/

/-- A store of a value in a range of bytes, which is not clipped. -/
def StoresWithin (low high : Int) (s : ByteStore) : Prop :=
  low ≤ s.value ∧ s.value ≤ high ∧ ((clipByte s.value).toNat : Int) = s.value

/-- What is promised of the bytes of a picture: luma from 16 to 235 and chroma from 16 to
240, never clipped; a grey block has no chroma, and a block of one colour has the chroma
of a single pixel. -/
structure LimitedRange (bgra : Nat → UInt8) (bgraPitch nv12Pitch w h : Nat)
    (nv12 : Nat → UInt8) : Prop where
  luma : ∀ s ∈ lumaStores bgra bgraPitch nv12Pitch w h, StoresWithin 16 235 s
  chroma : ∀ s ∈ chromaStores bgra bgraPitch nv12Pitch w h, StoresWithin 16 240 s
  grey : ∀ y < h / 2, ∀ k < w / 2, BlockGrey bgra bgraPitch (2 * k) y →
    nv12 ((h + y) * nv12Pitch + 2 * k) = 128 ∧ nv12 ((h + y) * nv12Pitch + (2 * k + 1)) = 128
  flat : ∀ y < h / 2, ∀ k < w / 2, ∀ b g r, BlockIs bgra bgraPitch (2 * k) y b g r →
    ((nv12 ((h + y) * nv12Pitch + 2 * k)).toNat : Int) =
        128 + ((112 * b.toNat - 74 * g.toNat - 38 * r.toNat + 128 : Int) >>> (8 : Nat)) ∧
      ((nv12 ((h + y) * nv12Pitch + (2 * k + 1))).toNat : Int) =
        128 + ((112 * r.toNat - 94 * g.toNat - 18 * b.toNat + 128 : Int) >>> (8 : Nat))

section

variable (bgra : Nat → UInt8) (bgraPitch nv12Pitch w h : Nat)

theorem storesWithin_of_bounds {s : ByteStore} {low high : Int} (hlow : 0 ≤ low)
    (hhigh : high ≤ 255) (h : low ≤ s.value ∧ s.value ≤ high) : StoresWithin low high s :=
  ⟨h.1, h.2, toNat_clipByte (by omega) (by omega)⟩

theorem lumaStores_within :
    ∀ s ∈ lumaStores bgra bgraPitch nv12Pitch w h, StoresWithin 16 235 s := by
  simp only [lumaStores, List.forall_mem_flatMap, List.forall_mem_map]
  intro y _ x _
  exact storesWithin_of_bounds (by decide) (by decide) (luma_bounds bgra bgraPitch x y)

theorem chromaStores_within :
    ∀ s ∈ chromaStores bgra bgraPitch nv12Pitch w h, StoresWithin 16 240 s := by
  simp only [chromaStores, List.forall_mem_flatMap, List.forall_mem_cons, List.not_mem_nil,
    false_imp_iff, implies_true, and_true]
  intro y _ k _
  constructor
  · exact storesWithin_of_bounds (by decide) (by decide) (chromaU_bounds bgra bgraPitch (2 * k) y)
  · exact storesWithin_of_bounds (by decide) (by decide) (chromaV_bounds bgra bgraPitch (2 * k) y)

variable {bgra bgraPitch nv12Pitch w h}

/-- **Limited range**: a picture of even width is stored in the range of BT.601 without
clipping, with its greys and its flat blocks exact. -/
theorem limitedRange_nv12After (hw : w % 2 = 0) (hpitch : w ≤ nv12Pitch)
    (nv12 : Nat → UInt8) :
    LimitedRange bgra bgraPitch nv12Pitch w h
      (nv12After bgra bgraPitch nv12Pitch w h nv12) where
  luma := lumaStores_within bgra bgraPitch nv12Pitch w h
  chroma := chromaStores_within bgra bgraPitch nv12Pitch w h
  grey := by
    intro y hy k hk hgrey
    obtain ⟨hU, hV⟩ := @nv12After_chroma bgra bgraPitch nv12Pitch w h nv12 hpitch (by omega) k y
      (by omega) hy
    obtain ⟨hu, hv⟩ := chroma_of_grey hgrey
    rw [hU, hV, hu, hv]
    decide
  flat := by
    intro y hy k hk b g r hflat
    obtain ⟨hU, hV⟩ := @nv12After_chroma bgra bgraPitch nv12Pitch w h nv12 hpitch (by omega) k y
      (by omega) hy
    obtain ⟨hu, hv⟩ := chroma_of_blockIs hflat
    have hUbounds := chromaU_bounds bgra bgraPitch (2 * k) y
    have hVbounds := chromaV_bounds bgra bgraPitch (2 * k) y
    rw [hU, hV, toNat_clipByte (by omega) (by omega), toNat_clipByte (by omega) (by omega)]
    exact ⟨hu, hv⟩

theorem limitedRange_nv12After_640 :
    (640 % 2 = 0 ∧ 640 ≤ 640) ∧
      LimitedRange (fun a => UInt8.ofNat a) 2560 640 640 480
        (nv12After (fun a => UInt8.ofNat a) 2560 640 640 480 fun _ => 0x80) :=
  ⟨by decide, limitedRange_nv12After (by decide) (by decide) _⟩

end

/-! ## a function of the picture -/

/-- A chroma pair is stored for every two by two block that has a pixel of the picture. -/
def PairPerBlock (nv12Pitch w h : Nat) (stores : List ByteStore) : Prop :=
  ∀ y < (h + 1) / 2, ∀ k < (w + 1) / 2, ∀ c < 2,
    ∃ s ∈ stores, s.offset = (h + y) * nv12Pitch + (2 * k + c)

/-- Only pixels of the picture are read, every block has its chroma, and what is stored
depends on the picture alone. -/
structure KeepsToPicture (bgraPitch nv12Pitch w h : Nat) : Prop where
  reads : ∀ bgra, ∀ s ∈ bgraToNv12 bgra bgraPitch nv12Pitch w h, ∀ a ∈ s.reads,
    Visible bgraPitch w h a
  pairs : ∀ bgra, PairPerBlock nv12Pitch w h (bgraToNv12 bgra bgraPitch nv12Pitch w h)
  depends : ∀ bgra bgra', (∀ a, Visible bgraPitch w h a → bgra a = bgra' a) →
    bgraToNv12 bgra bgraPitch nv12Pitch w h = bgraToNv12 bgra' bgraPitch nv12Pitch w h

section

variable {bgra bgra' : Nat → UInt8} {bgraPitch nv12Pitch w h x y : Nat}

theorem channel_congr {p c : Nat} (h : bgra (p + c) = bgra' (p + c)) :
    channel bgra p c = channel bgra' p c := by
  rw [channel, channel, h]

theorem luma_congr (h : ∀ a ∈ channelsOf [pixelAt (y * bgraPitch) x], bgra a = bgra' a) :
    luma bgra bgraPitch x y = luma bgra' bgraPitch x y := by
  have hpixel := forall_channelsOf_iff.mp h (pixelAt (y * bgraPitch) x) (by simp)
  have hb := channel_congr (p := pixelAt (y * bgraPitch) x) (c := 0) hpixel.1
  have hg := channel_congr hpixel.2.1
  have hr := channel_congr hpixel.2.2
  simp only [luma, hb, hg, hr]

theorem chroma_congr (h : ∀ a ∈ channelsOf (block bgraPitch x y), bgra a = bgra' a) :
    chromaU bgra bgraPitch x y = chromaU bgra' bgraPitch x y ∧
      chromaV bgra bgraPitch x y = chromaV bgra' bgraPitch x y := by
  have hpixels := forall_channelsOf_iff.mp h
  have hb : blockSum bgra bgraPitch x y 0 = blockSum bgra' bgraPitch x y 0 :=
    blockSum_congr fun p hp => (hpixels p hp).1
  have hg : blockSum bgra bgraPitch x y 1 = blockSum bgra' bgraPitch x y 1 :=
    blockSum_congr fun p hp => (hpixels p hp).2.1
  have hr : blockSum bgra bgraPitch x y 2 = blockSum bgra' bgraPitch x y 2 :=
    blockSum_congr fun p hp => (hpixels p hp).2.2
  simp only [chromaU, chromaV, hb, hg, hr, and_self]

/-- The stores depend on what they read. -/
theorem bgraToNv12_congr
    (heq : ∀ s ∈ bgraToNv12 bgra bgraPitch nv12Pitch w h, ∀ a ∈ s.reads, bgra a = bgra' a) :
    bgraToNv12 bgra bgraPitch nv12Pitch w h = bgraToNv12 bgra' bgraPitch nv12Pitch w h := by
  simp only [bgraToNv12, List.forall_mem_append, lumaStores, chromaStores,
    List.forall_mem_flatMap, List.forall_mem_map, List.forall_mem_cons, List.not_mem_nil,
    false_imp_iff, implies_true, and_true, and_self] at heq
  rw [bgraToNv12, bgraToNv12]
  congr 1
  · apply List.flatMap_congr
    intro y hy
    apply List.map_congr_left
    intro x hx
    rw [luma_congr (heq.1 y hy x hx)]
  · apply List.flatMap_congr
    intro y hy
    apply List.flatMap_congr
    intro k hk
    have hchroma := chroma_congr (heq.2 y hy k hk)
    simp only [hchroma.1, hchroma.2]

/-- What is stored is stored as a byte somewhere. -/
theorem exists_offset_iff {a : Nat} {stores : List ByteStore} :
    (∃ s ∈ stores, s.offset = a) ↔ ∃ v, (a, v) ∈ stores.map ByteStore.write := by
  simp only [List.mem_map, ByteStore.write, Prod.mk.injEq]
  grind

variable (bgra) in
/-- There is a pair for each block exactly when no row is left over. -/
theorem pairPerBlock_iff (hw : 0 < w) (hpitch : w ≤ nv12Pitch)
    (hpairs : 2 * ((w + 1) / 2) ≤ nv12Pitch) :
    PairPerBlock nv12Pitch w h (bgraToNv12 bgra bgraPitch nv12Pitch w h) ↔ h % 2 = 0 := by
  simp only [PairPerBlock, exists_offset_iff]
  constructor
  · intro hpair
    apply Decidable.byContradiction
    intro hodd
    obtain ⟨v, hv⟩ := hpair (h / 2) (by omega) 0 (by omega) 0 (by omega)
    rcases mem_bgraToNv12_iff.mp hv with hv | hv
    · obtain ⟨y, hy, x, hx, haddr, -⟩ := mem_lumaStores_iff.mp hv
      have hrow := raster_inj (by omega) (by omega) haddr
      omega
    · obtain ⟨y, hy, k, hk, ⟨haddr, -⟩ | ⟨haddr, -⟩⟩ := mem_chromaStores_iff.mp hv
      all_goals
        have hrow := raster_inj (by omega) (by omega) haddr
        omega
  · intro heven y hy k hk c hc
    have hrow : y < h / 2 := by omega
    obtain rfl | rfl : c = 0 ∨ c = 1 := by omega
    · exact ⟨_, mem_bgraToNv12_iff.mpr (.inr (mem_chromaStores_iff.mpr
        ⟨y, hrow, k, hk, .inl ⟨rfl, rfl⟩⟩))⟩
    · exact ⟨_, mem_bgraToNv12_iff.mpr (.inr (mem_chromaStores_iff.mpr
        ⟨y, hrow, k, hk, .inr ⟨rfl, rfl⟩⟩))⟩

end

/-- **A function of the picture**: with a source row of at least `4 * w` bytes and the
width rounded up to 16 as the destination's, `BgraToNv12` keeps to the picture exactly
when both sides are even. -/
theorem keepsToPicture_iff {bgraPitch w h : UInt32} (hw : 0 < w) (hh : 0 < h)
    (hpitch : 4 * w.toNat ≤ bgraPitch.toNat) :
    KeepsToPicture bgraPitch.toNat (encSide w).toNat w.toNat h.toNat ↔
      w.toNat % 2 = 0 ∧ h.toNat % 2 = 0 := by
  have hpos : 0 < w.toNat := hw
  have hrows : 0 < h.toNat := hh
  have hlt := bgraPitch.toNat_lt
  have hside := toNat_encSide_cases hw
  have hpair (bgra : Nat → UInt8) : PairPerBlock (encSide w).toNat w.toNat h.toNat
      (bgraToNv12 bgra bgraPitch.toNat (encSide w).toNat w.toNat h.toNat) ↔ h.toNat % 2 = 0 :=
    pairPerBlock_iff bgra hpos (by omega) (by omega)
  have hread (bgra : Nat → UInt8) : (∀ s ∈ bgraToNv12 bgra bgraPitch.toNat (encSide w).toNat
      w.toNat h.toNat, ∀ a ∈ s.reads, Visible bgraPitch.toNat w.toNat h.toNat a) ↔
      BlocksVisible bgraPitch.toNat w.toNat h.toNat :=
    reads_visible_iff hpitch
  constructor
  · intro hkeeps
    have heven := (hpair _).mp (hkeeps.pairs fun _ => 0)
    have hblocks := (hread _).mp (hkeeps.reads fun _ => 0)
    unfold BlocksVisible at hblocks
    omega
  · intro heven
    have hvisible (bgra) := (hread bgra).mpr (.inl heven.1)
    constructor
    · exact hvisible
    · exact fun bgra => (hpair bgra).mpr heven.2
    · intro bgra bgra' hsame
      apply bgraToNv12_congr
      intro s hs a ha
      exact hsame a (hvisible bgra s hs a ha)

theorem keepsToPicture_1080 :
    (0 < (1920 : UInt32) ∧ 0 < (1080 : UInt32) ∧ 4 * 1920 ≤ 7680) ∧
      (KeepsToPicture 7680 1920 1920 1080 ↔ 1920 % 2 = 0 ∧ 1080 % 2 = 0) :=
  ⟨by decide, @keepsToPicture_iff 7680 1920 1080 (by decide) (by decide) (by decide)⟩

/-- The last chroma row of a picture of 1366 x 769 is not written, and the last blocks of
one of 1365 x 768 are read past its right edge. -/
theorem odd_sides_not_kept :
    ¬ KeepsToPicture 5464 1376 1366 769 ∧ ¬ KeepsToPicture 5464 1376 1365 768 := by
  constructor
  · intro hkeeps
    have heven := (pairPerBlock_iff (fun _ => 0) (by decide) (by decide) (by decide)).mp
      (hkeeps.pairs fun _ => 0)
    contradiction
  · intro hkeeps
    have hblocks := (reads_visible_iff (by decide)).mp (hkeeps.reads fun _ => 0)
    unfold BlocksVisible at hblocks
    omega

end TwinScreen.Host
