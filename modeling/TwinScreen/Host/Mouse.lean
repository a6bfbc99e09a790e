import Mathlib.Tactic.Linarith
import TwinScreen.Host.Inject

/-!
# TwinScreen.Host.Mouse

Where `SendInput` puts the mouse for what `InjectMouse` asks: its coordinates are
65536ths of the virtual screen, but without MOUSEEVENTF_VIRTUALDESK Windows reads them as
65536ths of the primary monitor.

* `virtual_exact` — on the virtual screen every pixel would be hit.
* `mouseExact_iff` — on which desktops every pixel is hit.
-/

namespace TwinScreen.Host

open Lib

/-! ## Windows -/

def mouseeventfVirtualdesk : UInt32 := 0x4000

/-- The virtual screen, and the primary monitor in it, whose corner is the origin. -/
structure Desktop where
  screen : VirtualScreen
  primaryW : Int
  primaryH : Int
  small : screen.cx < 65536 ∧ screen.cy < 65536
  primary : 0 < primaryW ∧ 0 < primaryH
  left : screen.x ≤ 0 ∧ primaryW ≤ screen.x + screen.cx
  top : screen.y ≤ 0 ∧ primaryH ≤ screen.y + screen.cy

/-- Where `SendInput` moves the mouse, for an absolute move. -/
def Desktop.cursor (d : Desktop) (i : MouseInput) : Int × Int :=
  if i.flags &&& mouseeventfVirtualdesk ≠ 0 then
    (d.screen.x + i.dx * d.screen.cx / 65536, d.screen.y + i.dy * d.screen.cy / 65536)
  else
    (i.dx * d.primaryW / 65536, i.dy * d.primaryH / 65536)

/-- The injector's monitor, of this size, lies on the desktop. -/
structure Desktop.Captures (d : Desktop) (inj : InputInjector) (w h : Int) : Prop where
  x : d.screen.x ≤ inj.offsetX ∧ inj.offsetX + w ≤ d.screen.x + d.screen.cx
  y : d.screen.y ≤ inj.offsetY ∧ inj.offsetY + h ≤ d.screen.y + d.screen.cy

/-! ## one axis -/

/-- A coordinate of an axis that starts at `origin`. -/
theorem normalized_eq {abs origin extent : Int} (h : origin ≤ abs) :
    normalized abs origin extent = (abs - origin) * 65536 / extent + 1 := by
  rw [normalized, Int.tdiv_eq_ediv_of_nonneg (by omega)]

/-- **On its own axis a normalised coordinate is exact.** -/
theorem virtual_exact {origin extent abs : Int} (hext : extent < 65536)
    (h : origin ≤ abs ∧ abs < origin + extent) :
    origin + normalized abs origin extent * extent / 65536 = abs := by
  rw [normalized_eq h.1]
  have hpos : 0 < extent := by omega
  generalize hd : abs - origin = d
  have hlow := Int.lt_ediv_add_one_mul_self (d * 65536) hpos
  have hhigh := Int.ediv_mul_le (d * 65536) (show extent ≠ 0 by omega)
  have hq : (d * 65536 / extent + 1) * extent / 65536 = d := by
    generalize d * 65536 / extent = q at hlow hhigh ⊢
    have hexp : (q + 1) * extent = q * extent + extent := by ring
    omega
  omega

/-- A coordinate stays below 65536, and the cursor on the axis it is read on. -/
theorem normalized_lt {origin extent abs : Int} (hext : extent < 65536)
    (h : origin ≤ abs ∧ abs < origin + extent) :
    0 < normalized abs origin extent ∧ normalized abs origin extent < 65536 := by
  rw [normalized_eq h.1]
  have hpos : 0 < extent := by omega
  have hnonneg := Int.ediv_nonneg (show 0 ≤ (abs - origin) * 65536 by omega) hpos.le
  have hhigh : (abs - origin) * 65536 / extent < 65535 := by
    apply Int.ediv_lt_of_lt_mul hpos
    omega
  omega

theorem read_lt {n extent : Int} (hn : 0 < n ∧ n < 65536) (hext : 0 < extent) :
    0 ≤ n * extent / 65536 ∧ n * extent / 65536 < extent := by
  have hlt : n * extent < 65536 * extent := mul_lt_mul_of_pos_right hn.2 hext
  have hpos : 0 < n * extent := mul_pos hn.1 hext
  omega

/-! ## the mouse -/

/-- No flag of a mouse injection is the virtual desk's. -/
theorem mouse_virtualdesk (buttons : UInt8) (up : Prop) [Decidable up] :
    (mouseeventfMove ||| mouseeventfAbsolute |||
      (if up then buttonFlags buttons mouseeventfLeftup mouseeventfRightup mouseeventfMiddleup
        else buttonFlags buttons mouseeventfLeftdown mouseeventfRightdown
          mouseeventfMiddledown)) &&& mouseeventfVirtualdesk = 0 := by
  unfold buttonFlags
  by_cases hup : up <;>
    by_cases hl : buttons &&& spBtnLeft = 0 <;> by_cases hr : buttons &&& spBtnRight = 0 <;>
    by_cases hm : buttons &&& spBtnMiddle = 0 <;>
    simp only [hup, hl, hr, hm, ne_eq, not_true_eq_false, not_false_eq_true, if_true, if_false] <;>
    decide

/-- `InjectMouse` scales to the virtual screen, and does not say so. -/
theorem injectMouse_eq (inj : InputInjector) {scr : VirtualScreen} (h : 0 < scr.cx ∧ 0 < scr.cy)
    (x y : UInt16) (buttons type : UInt8) :
    ∃ i, injectMouse inj scr x y buttons type = some (.mouse i) ∧
      i.dx = normalized (inj.offsetX + x.toNat) scr.x scr.cx ∧
      i.dy = normalized (inj.offsetY + y.toNat) scr.y scr.cy ∧
      i.flags &&& mouseeventfVirtualdesk = 0 := by
  rw [injectMouse, if_neg (by omega)]
  exact ⟨_, rfl, rfl, rfl, mouse_virtualdesk buttons (type = spInputUp)⟩

/-- The virtual screen holds the primary monitor. -/
theorem Desktop.screen_pos (d : Desktop) : 0 < d.screen.cx ∧ 0 < d.screen.cy := by
  have hprimary := d.primary
  have hleft := d.left
  have htop := d.top
  omega

/-- The cursor goes to the pixel that an event names on the injector's monitor. -/
def Hits (d : Desktop) (inj : InputInjector) (x y : UInt16) (buttons type : UInt8) : Prop :=
  ∃ i, injectMouse inj d.screen x y buttons type = some (.mouse i) ∧
    d.cursor i = (inj.offsetX + x.toNat, inj.offsetY + y.toNat)

/-- A hit, axis by axis. -/
theorem hits_iff (d : Desktop) (inj : InputInjector) (x y : UInt16) (buttons type : UInt8) :
    Hits d inj x y buttons type ↔
      normalized (inj.offsetX + x.toNat) d.screen.x d.screen.cx * d.primaryW / 65536 =
          inj.offsetX + x.toNat ∧
        normalized (inj.offsetY + y.toNat) d.screen.y d.screen.cy * d.primaryH / 65536 =
          inj.offsetY + y.toNat := by
  obtain ⟨i, hi, hdx, hdy, hflags⟩ := injectMouse_eq inj d.screen_pos x y buttons type
  rw [Hits]
  simp only [hi, Option.some.injEq, Injection.mouse.injEq, exists_eq_left', Desktop.cursor, hdx,
    hdy, hflags, ne_eq, not_true_eq_false, if_false, Prod.mk.injEq]

/-- Every event on a captured monitor hits its pixel. -/
def MouseExact (d : Desktop) : Prop :=
  ∀ inj w h, d.Captures inj w h → ∀ x y : UInt16, (x.toNat : Int) < w → (y.toNat : Int) < h →
    ∀ buttons type, Hits d inj x y buttons type

/-- **No pixel off the primary monitor is hit.** -/
theorem not_hits_of_off_primary (d : Desktop) {inj : InputInjector} {w h : Int}
    (hcap : d.Captures inj w h) {x y : UInt16} (hx : (x.toNat : Int) < w)
    (hy : (y.toNat : Int) < h) (buttons type : UInt8)
    (hoff : d.primaryW ≤ inj.offsetX + x.toNat ∨ inj.offsetX + x.toNat < 0 ∨
      d.primaryH ≤ inj.offsetY + y.toNat ∨ inj.offsetY + y.toNat < 0) :
    ¬ Hits d inj x y buttons type := by
  have hnx := @normalized_lt d.screen.x d.screen.cx (inj.offsetX + x.toNat) d.small.1
    ⟨by have := hcap.x; omega, by have := hcap.x; omega⟩
  have hny := @normalized_lt d.screen.y d.screen.cy (inj.offsetY + y.toNat) d.small.2
    ⟨by have := hcap.y; omega, by have := hcap.y; omega⟩
  have hrx := read_lt hnx d.primary.1
  have hry := read_lt hny d.primary.2
  rw [hits_iff]
  omega

/-- **On which desktops every pixel is hit**: those whose virtual screen is the primary
monitor. -/
theorem mouseExact_iff (d : Desktop) :
    MouseExact d ↔ d.primaryW = d.screen.cx ∧ d.primaryH = d.screen.cy := by
  have hpos := d.screen_pos
  have hsmall := d.small
  have hleft := d.left
  have htop := d.top
  constructor
  · intro hexact
    -- the first and the last pixel of the virtual screen are on the primary monitor
    have hcap : d.Captures ⟨d.screen.x, d.screen.y, true, true⟩ d.screen.cx d.screen.cy :=
      ⟨⟨le_rfl, le_rfl⟩, le_rfl, le_rfl⟩
    have hon (x y : UInt16) (hx : (x.toNat : Int) < d.screen.cx)
        (hy : (y.toNat : Int) < d.screen.cy) :
        (0 ≤ d.screen.x + x.toNat ∧ d.screen.x + x.toNat < d.primaryW) ∧
          0 ≤ d.screen.y + y.toNat ∧ d.screen.y + y.toNat < d.primaryH := by
      have hmiss := not_hits_of_off_primary d hcap hx hy 0 spInputMove
      have hhit := hexact _ _ _ hcap x y hx hy 0 spInputMove
      simp only at hmiss
      by_contra hoff
      exact hmiss (by omega) hhit
    have hlast (n : Int) (h : 0 < n ∧ n < 65536) :
        ((UInt16.ofNat (n - 1).toNat).toNat : Int) = n - 1 := by
      rw [UInt16.toNat_ofNat_of_lt' (by show (n - 1).toNat < 65536; omega)]
      omega
    have hw := hlast d.screen.cx ⟨hpos.1, hsmall.1⟩
    have hh := hlast d.screen.cy ⟨hpos.2, hsmall.2⟩
    have hfirst := hon 0 0 hpos.1 hpos.2
    have hend := hon _ _ (by rw [hw]; omega) (by rw [hh]; omega)
    rw [hw, hh] at hend
    have hzero : ((0 : UInt16).toNat : Int) = 0 := rfl
    omega
  · intro hprimary inj w h hcap x y hx hy buttons type
    have hcx := hcap.x
    have hcy := hcap.y
    have hvx := @virtual_exact d.screen.x d.screen.cx (inj.offsetX + x.toNat) hsmall.1 (by omega)
    have hvy := @virtual_exact d.screen.y d.screen.cy (inj.offsetY + y.toNat) hsmall.2 (by omega)
    rw [hits_iff, hprimary.1, hprimary.2]
    omega

/-- Two monitors of 1920x1080 next to each other, the left one primary. -/
def twoMonitors : Desktop where
  screen := ⟨0, 0, 3840, 1080⟩
  primaryW := 1920
  primaryH := 1080
  small := by decide
  primary := by decide
  left := by decide
  top := by decide

/-- The first pixel of the right monitor is put in the middle of the left one. -/
theorem twoMonitors_misses :
    twoMonitors.Captures ⟨1920, 0, true, true⟩ 1920 1080 ∧
      ¬ Hits twoMonitors ⟨1920, 0, true, true⟩ 0 0 0 spInputMove ∧ ¬ MouseExact twoMonitors := by
  have hcap : twoMonitors.Captures ⟨1920, 0, true, true⟩ 1920 1080 := by
    constructor <;> decide
  have hmiss : ¬ Hits twoMonitors ⟨1920, 0, true, true⟩ 0 0 0 spInputMove := by
    rw [hits_iff]
    decide
  exact ⟨hcap, hmiss, fun h => hmiss (h _ _ _ hcap 0 0 (by decide) (by decide) 0 spInputMove)⟩

end TwinScreen.Host
