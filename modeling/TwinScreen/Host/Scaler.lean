import TwinScreen.Lib.Machine

/-!
# TwinScreen.Host.Scaler

`host/src/util/scaler.cpp`: the GPU downscaler.  Textures are known by a number
and their size; the outcomes of the D3D calls are inputs.

`scale_cases` lists what a call can do; among it that a new texture is left behind
without a view, under the old recorded size.  `scaledOr_scale_native` and
`sized_scale` follow the texture's size through a call, and `scaler_returns_iff`
says which runs of calls return only textures of the size asked for that are drawn
to.
-/

namespace TwinScreen.Host

open Lib

/-- Width and height. -/
abbrev Size := UInt32 × UInt32

/-- A texture. -/
structure Texture where
  id : Nat
  size : Size
  deriving DecidableEq

/-- The fields of `GpuScaler`; `rtv` is the texture that the view is of. -/
structure GpuScaler where
  ctx : Bool
  dst : Option Texture := none
  rtv : Option Texture := none
  dstSize : Size := (0, 0)
  /-- Number of textures created so far. -/
  created : Nat := 0
  deriving DecidableEq

/-- The outcomes of the `Create` calls in `Scale`. -/
structure ScaleEnv where
  texture : Bool
  renderTargetView : Bool
  shaderResourceView : Bool
  deriving DecidableEq

namespace GpuScaler

/-- The end of `Scale`: the view of the source, and the draw into `dst_`. -/
def draw (sc : GpuScaler) (env : ScaleEnv) : Option Texture × GpuScaler :=
  if env.shaderResourceView = false then (none, sc) else (sc.dst, sc)

/-- `Scale` with a source texture. -/
def scale (sc : GpuScaler) (env : ScaleEnv) (size : Size) : Option Texture × GpuScaler :=
  if sc.ctx = false ∨ size.1 = 0 ∨ size.2 = 0 then
    (none, sc)
  else if sc.dst = none ∨ sc.dstSize ≠ size then
    if env.texture = false then
      (none, { sc with dst := none })
    else
      let dst := some ⟨sc.created, size⟩
      let sc := { sc with dst := dst, rtv := none, created := sc.created + 1 }
      if env.renderTargetView = false then
        (none, sc)
      else
        draw { sc with rtv := dst, dstSize := size } env
  else
    draw sc env

/-- What a call hands to the encoder: its texture, or else the captured one. -/
def scaledOr (native : Size) (r : Option Texture × GpuScaler) : Size :=
  (r.1.map Texture.size).getD native

/-- The texture has its recorded size, or the native one. -/
def Sized (native : Size) (sc : GpuScaler) : Prop :=
  ∀ t, sc.dst = some t → t.size = sc.dstSize ∨ t.size = native

/-- The draw changes nothing, and gives `dst_` or nothing. -/
theorem draw_cases (sc : GpuScaler) (env : ScaleEnv) :
    (sc.draw env).2 = sc ∧ ((sc.draw env).1 = none ∨ (sc.draw env).1 = sc.dst) := by
  unfold draw
  split <;> simp

/-- What a call can do: fail and keep its texture, or lose it, or leave a new one
without a view under the old recorded size; or draw into a texture that was
there already, or is new. -/
theorem scale_cases (sc : GpuScaler) (env : ScaleEnv) (size : Size) :
    sc.scale env size = (none, sc) ∨
    sc.scale env size = (none, { sc with dst := none }) ∨
    (∃ sc' : GpuScaler, sc.scale env size = (none, sc') ∧ sc'.dst = some ⟨sc.created, size⟩) ∨
    (sc.dst ≠ none ∧ sc.dstSize = size ∧ sc.scale env size = sc.draw env) ∨
    ∃ sc' : GpuScaler, sc.scale env size = sc'.draw env ∧ sc'.dst = some ⟨sc.created, size⟩ ∧
      sc'.dstSize = size := by
  unfold scale
  split
  · exact .inl rfl
  · split
    · split
      · exact .inr (.inl rfl)
      · dsimp only
        split
        · exact .inr (.inr (.inl ⟨_, rfl, rfl⟩))
        · exact .inr (.inr (.inr (.inr ⟨_, rfl, rfl, rfl⟩)))
    · next hcreate =>
        obtain ⟨hdst, hsize⟩ : sc.dst ≠ none ∧ sc.dstSize = size := by simpa using hcreate
        exact .inr (.inr (.inr (.inl ⟨hdst, hsize, rfl⟩)))

/-- Asked for the native size, the encoder gets the native size. -/
theorem scaledOr_scale_native {native : Size} {sc : GpuScaler} (h : Sized native sc)
    (env : ScaleEnv) : scaledOr native (sc.scale env native) = native := by
  unfold scaledOr
  rcases scale_cases sc env native with hs | hs | ⟨sc', hs, -⟩ | ⟨-, hrec, hs⟩ | ⟨sc', hs, hdst, -⟩
  · rw [hs]; rfl
  · rw [hs]; rfl
  · rw [hs]; rfl
  · rw [hs]
    cases (draw_cases sc env).2 with
    | inl hnone => rw [hnone]; rfl
    | inr hsome =>
        rw [hsome]
        cases ht : sc.dst with
        | none => rfl
        | some t =>
            cases h t ht with
            | inl hsize => exact hsize.trans hrec
            | inr hsize => exact hsize
  · rw [hs]
    cases (draw_cases sc' env).2 with
    | inl hnone => rw [hnone]; rfl
    | inr hsome => rw [hsome, hdst]; rfl

/-- A call keeps the sizes right, unless it fails for a size that is not native. -/
theorem sized_scale {native size : Size} {sc : GpuScaler} (h : Sized native sc) {env : ScaleEnv}
    (hsize : scaledOr native (sc.scale env size) = size) : Sized native (sc.scale env size).2 := by
  unfold scaledOr at hsize
  rcases scale_cases sc env size with hs | hs | ⟨sc', hs, hdst⟩ | ⟨-, -, hs⟩ | ⟨sc', hs, hdst, hrec⟩
  · rw [hs]
    exact h
  · rw [hs]
    intro t ht
    cases ht
  · rw [hs] at hsize ⊢
    intro t ht
    rw [hdst] at ht
    cases ht
    exact .inr hsize.symm
  · rw [hs, (draw_cases sc env).1]
    exact h
  · rw [hs, (draw_cases sc' env).1]
    intro t ht
    rw [hdst] at ht
    cases ht
    exact .inl hrec.symm

/-! ## runs of calls -/

/-- A call of `Scale`: whether there is a source texture, the outcomes of the `Create`
calls, and the size asked for. -/
structure ScaleCall where
  src : Bool
  env : ScaleEnv
  size : Size
  deriving DecidableEq

/-- What a call comes to: the size asked for, the texture returned, and the view that
`rtv_` is left with. -/
structure ScaleReturn where
  asked : Size
  texture : Option Texture
  rtv : Option Texture
  deriving DecidableEq

/-- `Scale`; without a source it returns at once. -/
def call (sc : GpuScaler) (c : ScaleCall) : Option Texture × GpuScaler :=
  if c.src = false then (none, sc) else sc.scale c.env c.size

def calls : Machine GpuScaler ScaleCall ScaleReturn :=
  .reporting (fun sc c => (sc.call c).2) fun sc c => ⟨c.size, (sc.call c).1, (sc.call c).2.rtv⟩

/-- A texture that is returned has the size asked for, and `rtv_` is a view of it. -/
def Drawn (r : ScaleReturn) : Prop := ∀ t, r.texture = some t → t.size = r.asked ∧ r.rtv = some t

/-- The texture has a view and its recorded size, or it has no view. -/
def Viewed (sc : GpuScaler) : Prop :=
  ∀ t, sc.dst = some t → sc.rtv = none ∨ sc.rtv = some t ∧ t.size = sc.dstSize

/-- The call comes to the draw, with a texture left behind without a view while the
size recorded is the one asked for. -/
def DrawsUnviewed (sc : GpuScaler) (c : ScaleCall) : Prop :=
  (sc.ctx ∧ c.src ∧ c.size.1 ≠ 0 ∧ c.size.2 ≠ 0 ∧ c.env.shaderResourceView) ∧
    sc.dst ≠ none ∧ sc.rtv = none ∧ sc.dstSize = c.size

instance (sc : GpuScaler) (c : ScaleCall) : Decidable (DrawsUnviewed sc c) :=
  inferInstanceAs (Decidable (_ ∧ _))

theorem viewed_call {sc : GpuScaler} (h : Viewed sc) (c : ScaleCall) : Viewed (sc.call c).2 := by
  unfold call scale draw
  grind [Viewed]

theorem drawn_of_none (asked : Size) (rtv : Option Texture) : Drawn ⟨asked, none, rtv⟩ := by
  intro t ht
  contradiction

/-- A call returns a new texture with its view, or the one that was there, or nothing. -/
theorem drawn_call_iff {sc : GpuScaler} (h : Viewed sc) (c : ScaleCall) :
    Drawn ⟨c.size, (sc.call c).1, (sc.call c).2.rtv⟩ ↔ ¬ DrawsUnviewed sc c := by
  unfold call
  by_cases hsrc : c.src = false
  · rw [if_pos hsrc]
    exact iff_of_true (drawn_of_none _ _) (by simp [DrawsUnviewed, hsrc])
  rw [if_neg hsrc]
  unfold scale
  by_cases hguard : sc.ctx = false ∨ c.size.1 = 0 ∨ c.size.2 = 0
  · rw [if_pos hguard]
    exact iff_of_true (drawn_of_none _ _) (by grind [DrawsUnviewed])
  rw [if_neg hguard]
  by_cases hcreate : sc.dst = none ∨ sc.dstSize ≠ c.size
  · rw [if_pos hcreate]
    apply iff_of_true
    · unfold draw Drawn
      grind
    · grind [DrawsUnviewed]
  rw [if_neg hcreate]
  unfold draw
  by_cases hview : c.env.shaderResourceView = false
  · rw [if_pos hview]
    exact iff_of_true (drawn_of_none _ _) (by simp [DrawsUnviewed, hview])
  rw [if_neg hview]
  obtain ⟨t, ht⟩ := Option.ne_none_iff_exists'.mp (not_or.mp hcreate).1
  have hreuse : DrawsUnviewed sc c ↔ sc.rtv = none := by
    grind [DrawsUnviewed]
  rw [hreuse]
  constructor
  · intro hdrawn hnone
    have hview := (hdrawn t ht).2
    rw [hnone] at hview
    contradiction
  · intro hview t' ht'
    obtain ⟨hrtv, hsize⟩ := (h t' ht').resolve_left hview
    exact ⟨hsize.trans (Decidable.not_not.mp (not_or.mp hcreate).2), hrtv⟩

/-- **Reuse of the texture**: whatever the calls of a run ask for and whichever of the
`Create` calls fail, every texture returned has the size asked for and is the one drawn
to, exactly when no call draws with a texture that was left behind without a view. -/
theorem scaler_returns_iff (ctx : Bool) {cs : List ScaleCall} {sc : GpuScaler}
    {tr : List ScaleReturn} (hrun : calls.run { ctx := ctx } cs = some (sc, tr)) :
    (∀ r ∈ tr, Drawn r) ↔ calls.Along (fun sc c => ¬ DrawsUnviewed sc c) { ctx := ctx } cs := by
  have hlaw : ∀ sc c sc' o, Viewed sc → calls.step sc c = some (sc', o) →
      ((∀ r ∈ o, Drawn r) ↔ ¬ DrawsUnviewed sc c) := by
    intro sc c sc' o hviewed hstep
    cases hstep
    simpa using drawn_call_iff hviewed c
  have hinv : ∀ sc c sc' o, Viewed sc → ¬ DrawsUnviewed sc c → calls.step sc c = some (sc', o) →
      Viewed sc' := by
    intro sc c sc' o hviewed _ hstep
    cases hstep
    exact viewed_call hviewed c
  have hinit : Viewed { ctx := ctx } := by
    intro t ht
    contradiction
  exact Machine.forall_outputs_iff_along calls hlaw hinv hinit hrun

/-- A call whose `Create` calls succeed, but for the render target view if `rtv` says so. -/
def callFor (size : Size) (rtv : Bool) : ScaleCall := ⟨true, ⟨true, rtv, true⟩, size⟩

theorem scaler_returns_iff_changed :
    ∃ sc tr, calls.run { ctx := true } [callFor (1440, 810) true, callFor (960, 540) true,
        callFor (960, 540) true] = some (sc, tr) ∧
      ((∀ r ∈ tr, Drawn r) ↔ calls.Along (fun sc c => ¬ DrawsUnviewed sc c) { ctx := true }
        [callFor (1440, 810) true, callFor (960, 540) true, callFor (960, 540) true]) :=
  ⟨_, _, rfl, scaler_returns_iff true rfl⟩

/-- Back at the size before the failure, the failed texture is returned. -/
theorem failed_texture_returned :
    ¬ ∀ cs sc tr, calls.run { ctx := true } cs = some (sc, tr) → ∀ r ∈ tr, Drawn r := by
  intro hclaim
  have hrun := hclaim [callFor (1440, 810) true, callFor (960, 540) false, callFor (1440, 810) true]
    _ _ rfl ⟨(1440, 810), some ⟨1, (960, 540)⟩, none⟩ (by decide) ⟨1, (960, 540)⟩ rfl
  exact absurd hrun.1 (by decide)

end GpuScaler

end TwinScreen.Host
