import Mathlib.Tactic.Abel
import TwinScreen.Host.Setup
import TwinScreen.Lib.Custody

/-!
# TwinScreen.Host.AmfHandles

What the AMD encoder gets from Windows, D3D and the runtime and has to give back: the
library, the context, the component, and the textures and surfaces of the pool; and the
buffer it allocates.

* `released_iff` — in which runs the handles are given back and a failed `Start` keeps nothing.
-/

namespace TwinScreen.Host.Amf

open Lib Lib.Attempt

/-- What the encoder gets, and has to give back. -/
inductive AmfHandle
  | library (h : Handle)
  | object (h : Handle)
  deriving DecidableEq

def AmfCall.receipt : AmfCall → Receipt AmfHandle
  | .loadLibrary (some dll) => .acquires (.library dll)
  | .freeLibrary dll => .releases (.library dll)
  | .createContext (some ctx) => .acquires (.object ctx)
  | .createComponent (some encoder) => .acquires (.object encoder)
  | .createTexture _ (some texture) => .acquires (.object texture)
  | .createSurface _ (some surface) => .acquires (.object surface)
  | .release handle => .releases (.object handle)
  | _ => .neither

/-- In the order in which `Stop` gives them back. -/
def AmfEncoder.held (s : AmfEncoder) : Multiset AmfHandle :=
  (s.surfaces.map AmfHandle.object : Multiset AmfHandle) +
    ((s.nv12Tex.map AmfHandle.object : Multiset AmfHandle) +
      (carried .object s.encoder + (carried .object s.ctx + carried .library s.amfDll)))

/-- What the handles depend on. -/
def AmfEncoder.objects (s : AmfEncoder) :
    Option Handle × Option Handle × Option Handle × List Handle × List Handle :=
  (s.amfDll, s.ctx, s.encoder, s.surfaces, s.nv12Tex)

def custody : Custodian AmfEncoder AmfInput AmfCall AmfHandle where
  exec := exec
  receipt := AmfCall.receipt
  held := AmfEncoder.held
  Tries s
    | .start _ _ _ _ => True
    | .resize _ _ _ => s.encoder.isSome
    | _ => False

variable {s : AmfEncoder}

theorem held_of_objects {s' : AmfEncoder} (h : s'.objects = s.objects) : s'.held = s.held := by
  simp only [AmfEncoder.objects, Prod.mk.injEq] at h
  obtain ⟨hdll, hctx, hencoder, hsurfaces, htextures⟩ := h
  rw [AmfEncoder.held, hdll, hctx, hencoder, hsurfaces, htextures, AmfEncoder.held]

/-- An encoder that holds none of its objects. -/
def Cleared (s : AmfEncoder) : Prop := s.objects = (none, none, none, [], [])

theorem Cleared.held (h : Cleared s) : s.held = 0 :=
  held_of_objects (s := {}) h

/-! ## `Stop` -/

theorem lossless_stop (queries : List QueryResult) :
    Lossless AmfCall.receipt AmfEncoder.held (stop queries) (fun _ => Cleared) (fun _ => False)
      s := by
  have hdrain : Wp (fun k : AmfCall => k.receipt = .neither) (forSome s.encoder fun encoder => do
      issue (.drain encoder)
      issueAll (queries.map fun result => .queryOutput encoder result)
      issue (.terminate encoder)) (fun _ s' => s' = s) (fun _ => False) s := by
    cases s.encoder <;> simp [AmfCall.receipt]
  intro lost
  rw [stop, seen_bind, seen_state]
  apply seen_bind_of_total ((hdrain.seen (fun k hk g => outstanding_neither hk g) _).mono
    (fun _ _ _ h => h) fun _ _ h => h.1)
  rintro _ _ _ ⟨rfl, rfl⟩
  simp only [AmfEncoder.held, add_assoc]
  rw [seen_bind, seen_issueAll_release, seen_bind, seen_issueAll_release, seen_bind,
    seen_forSome_release, seen_bind, seen_forSome_release, seen_bind, seen_forSome_release]
  · rw [seen_update]
    exact ⟨rfl, by simp⟩
  all_goals exact fun _ => rfl

/-! ## `Start` -/

/-- A library that is there already is lost to one that has the entry point. -/
theorem accounts_loadRuntime (dll : Option Handle) (exported : Bool) :
    Accounts AmfCall.receipt AmfEncoder.held (loadRuntime dll exported)
      (fun _ s' more => more = carried .library s.amfDll ∧ s'.amfDll.isSome ∧ s'.ctx = s.ctx ∧
        s'.encoder = s.encoder)
      (fun s' more => more = 0 ∧ s'.objects = s.objects) s := by
  intro lost
  cases dll with
  | none => simp [loadRuntime, outstanding, AmfCall.receipt]
  | some dll =>
      cases exported with
      | false =>
          simp [loadRuntime, outstanding, AmfCall.receipt, AmfEncoder.held, AmfEncoder.objects]
      | true =>
          simp [loadRuntime, outstanding, AmfCall.receipt, AmfEncoder.held,
            ← Multiset.singleton_add]
          abel

/-- The context and the component are stored over those there are. -/
theorem accounts_createComponent (device : Handle) (env : StartEnv) :
    Accounts AmfCall.receipt AmfEncoder.held (createComponent device env)
      (fun _ s' more => s'.amfDll = s.amfDll ∧ (s.ctx = none → s.encoder = none → more = 0))
      (fun _ more => s.ctx = none → s.encoder = none → more = 0) s := by
  apply accounts_issue_bind rfl
  apply accounts_check_bind (fun _ => ?_) fun _ _ _ => rfl
  apply accounts_update_bind rfl
  apply accounts_get_bind (f := .object) (d := carried .object s.ctx) rfl (fun _ => rfl) _
    fun _ _ => rfl
  · intro ctx
    apply accounts_issue_bind rfl
    apply accounts_check_bind (fun _ => ?_) fun _ hctx _ => by simp [hctx]
    apply accounts_get (f := .object) (d := carried .object s.encoder) rfl (fun _ => rfl)
    · intro encoder
      simp only [AmfEncoder.held, carried_some]
      abel
    · exact fun hctx _ => by simp [hctx]
    · exact fun encoder => ⟨rfl, fun hctx hencoder => by simp [hctx, hencoder]⟩
  · intro ctx
    simp only [AmfEncoder.held, carried_some]
    abel

/-- What is got for the pool is stored in it. -/
theorem lossless_fillPool (env : StartEnv) (indices : List Nat) :
    Lossless AmfCall.receipt AmfEncoder.held (fillPool env indices)
      (fun _ s' => s'.amfDll = s.amfDll) (fun _ => True) s := by
  induction indices generalizing s with
  | nil => exact fun lost => ⟨rfl, rfl⟩
  | cons i rest ih =>
      have htextures (lost : Multiset AmfHandle) (texture : Handle) :
          AmfHandle.object texture ::ₘ (s.held + lost) =
            { s with nv12Tex := s.nv12Tex ++ [texture] }.held + lost := by
        simp only [AmfEncoder.held, List.map_append, ← Multiset.coe_add, List.map_singleton,
          Multiset.coe_singleton, ← Multiset.singleton_add]
        abel
      have hsurfaces (lost : Multiset AmfHandle) (s : AmfEncoder) (surface : Handle) :
          AmfHandle.object surface ::ₘ (s.held + lost) =
            { s with surfaces := s.surfaces ++ [surface] }.held + lost := by
        simp only [AmfEncoder.held, List.map_append, ← Multiset.coe_add, List.map_singleton,
          Multiset.coe_singleton, ← Multiset.singleton_add]
        abel
      intro lost
      rw [fillPool]
      cases htexture : env.texture i with
      | none => simp [outstanding, AmfCall.receipt]
      | some texture =>
          cases hsurface : env.surface i with
          | none => simp [outstanding, AmfCall.receipt, htextures]
          | some surface =>
              simp only [seen_bind, seen_state, seen_issue, seen_outcome, seen_update, outstanding,
                AmfCall.receipt]
              rw [htextures, hsurfaces]
              exact ih lost

theorem keeps_setProperty (property : AmfProperty) (ok : Bool) :
    Keeps (fun k => k.receipt = .neither) AmfEncoder.objects (setProperty property ok) := by
  cases property <;> cases ok <;>
    simp [Keeps, setProperty, AmfCall.receipt, AmfEncoder.apply, AmfEncoder.objects]

theorem keeps_setProperties (taken : AmfProperty → Bool) (properties : List AmfProperty) :
    Keeps (fun k => k.receipt = .neither) AmfEncoder.objects (setProperties taken properties) := by
  induction properties with
  | nil => exact keeps_pure _
  | cons property rest ih => exact (keeps_setProperty property _).bind fun _ => ih

theorem keeps_setBitrate (bitrate : UInt32) (target peak : Bool) :
    Keeps (fun k => k.receipt = .neither) AmfEncoder.objects (setBitrate bitrate target peak) :=
  keeps_state.bind fun _ => (keeps_check _).bind fun _ => (keeps_setProperty _ _).bind fun _ =>
    (keeps_check _).bind fun _ => (keeps_setProperty _ _).bind fun _ =>
      (keeps_check _).bind fun _ => (keeps_update _).mpr fun _ => rfl

theorem neither_of_isWork (k : AmfCall) (h : k.IsWork) : k.receipt = .neither := by
  cases k <;> first | rfl | exact h.elim

/-- `Start` from the properties on. -/
theorem lossless_configure (env : StartEnv) :
    Lossless AmfCall.receipt AmfEncoder.held (configure env) (fun _ s' => s'.amfDll = s.amfDll)
      (fun _ => True) s := by
  apply lossless_state_bind
  have hproperties := (keeps_setProperties env.property s.properties).lossless
    (fun _ _ => held_of_objects) s
  apply lossless_bind (hproperties.mono (fun _ _ h => h) fun _ _ => trivial)
  intro _ s₁ h₁
  have hdll : s₁.amfDll = s.amfDll := congrArg Prod.fst h₁
  have hinit (g : Option (Multiset AmfHandle)) : outstanding AmfCall.receipt g
      (.initComponent s.encoder s.encSize env.initComponent) = g := outstanding_neither rfl g
  intro lost
  simp only [seen_bind, seen_issue, hinit, seen_check, seen_update]
  split
  · split
    · have hpool := lossless_fillPool
        (s := { s₁ with nv12 := allocated (nv12Bytes s.encSize) env.nv12 }) env
        (List.range kSurfacePool)
      exact hpool.mono (fun _ _ h => h.trans hdll) (fun _ h => h) lost
    · exact ⟨trivial, rfl⟩
  · exact ⟨trivial, trivial⟩

/-- `Start` once the runtime is loaded: what there was is lost, and a failure clears all. -/
theorem accounts_orStop (device : Handle) (env : StartEnv) :
    Accounts AmfCall.receipt AmfEncoder.held (orCleanUp (build device env) (stop env.queries))
      (fun _ s' more => s'.amfDll = s.amfDll ∧ (s.ctx = none → s.encoder = none → more = 0))
      (fun s' more => Cleared s' ∧ (s.ctx = none → s.encoder = none → more = 0)) s := by
  have hbuild : Accounts AmfCall.receipt AmfEncoder.held (build device env)
      (fun _ s' more => s'.amfDll = s.amfDll ∧ (s.ctx = none → s.encoder = none → more = 0))
      (fun _ more => s.ctx = none → s.encoder = none → more = 0) s := by
    apply accounts_bind (accounts_createComponent device env)
    rintro _ s₁ more ⟨hdll, hmore⟩
    apply (lossless_configure env).accounts.mono
    · rintro _ s' _ ⟨hdll', rfl⟩
      rw [zero_add]
      exact ⟨hdll'.trans hdll, hmore⟩
    · rintro s' _ ⟨-, rfl⟩
      rwa [zero_add]
  apply accounts_orCleanUp hbuild
  intro s₁ more hmore
  apply (lossless_stop env.queries).accounts.mono
  · rintro _ s' _ ⟨hcleared, rfl⟩
    rw [zero_add]
    exact ⟨hcleared, hmore⟩
  · exact fun _ _ h => h.1.elim

/-- `Start` leaves the handles it finds alone when there is no runtime, and else loses the
library. -/
theorem accounts_start (size : Size) (fps bitrate : UInt32) (env : StartEnv) :
    Accounts AmfCall.receipt AmfEncoder.held (start size fps bitrate env)
      (fun _ s' more => s'.amfDll.isSome ∧ ∃ rest, more = rest + carried .library s.amfDll ∧
        (s.ctx = none → s.encoder = none → rest = 0))
      (fun s' more => (s'.objects = s.objects ∧ more = 0) ∨
        (Cleared s' ∧ ∃ rest, more = rest + carried .library s.amfDll ∧
          (s.ctx = none → s.encoder = none → rest = 0))) s := by
  apply accounts_update_bind rfl
  apply accounts_state_bind
  apply accounts_outcome_bind (.inl ⟨rfl, rfl⟩)
  intro device
  apply accounts_bind ((accounts_loadRuntime env.dll env.exported).mono (fun _ _ _ h => h)
    fun _ _ h => .inl h.symm)
  rintro _ s₁ _ ⟨rfl, hdll, hctx, hencoder⟩
  apply (accounts_orStop device env).mono
  · rintro _ s' rest ⟨hsame, hrest⟩
    rw [hctx, hencoder] at hrest
    exact ⟨by rw [hsame]; exact hdll, rest, rfl, hrest⟩
  · rintro s' rest ⟨hcleared, hrest⟩
    rw [hctx, hencoder] at hrest
    exact .inr ⟨hcleared, rest, rfl, hrest⟩

/-- What there is came with the library. -/
def RuntimeInv (s : AmfEncoder) : Prop := s.amfDll = none → Cleared s

theorem RuntimeInv.of_objects {s' : AmfEncoder} (hs : RuntimeInv s) (h : s'.objects = s.objects) :
    RuntimeInv s' := by
  intro hnone
  have hdll : s'.amfDll = s.amfDll := congrArg Prod.fst h
  exact h.trans (hs (hdll.symm.trans hnone))

/-- `Start` without a library, or after a `Stop`. -/
theorem lossless_start (h : Cleared s) (size : Size) (fps bitrate : UInt32) (env : StartEnv) :
    Lossless AmfCall.receipt AmfEncoder.held (start size fps bitrate env) (fun _ => RuntimeInv)
      Cleared s := by
  have hdll : s.amfDll = none := congrArg Prod.fst h
  have hctx : s.ctx = none := congrArg (fun o => o.2.1) h
  have hencoder : s.encoder = none := congrArg (fun o => o.2.2.1) h
  apply Accounts.lossless
  apply (accounts_start size fps bitrate env).mono
  · rintro _ s' _ ⟨hsome, rest, rfl, hrest⟩
    refine ⟨fun hnone => by simp [hnone] at hsome, ?_⟩
    rw [hrest hctx hencoder, hdll]
    rfl
  · rintro s' _ (⟨hsame, rfl⟩ | ⟨hcleared, rest, rfl, hrest⟩)
    · exact ⟨hsame.trans h, rfl⟩
    · refine ⟨hcleared, ?_⟩
      rw [hrest hctx hencoder, hdll]
      rfl

/-- A `Resize` is a `Start` of an encoder that has been stopped. -/
theorem lossless_resize (s : AmfEncoder) (size : Size) (queries : List QueryResult)
    (env : StartEnv) :
    Lossless AmfCall.receipt AmfEncoder.held (resize size queries env) (fun _ => RuntimeInv)
      (fun s' => if s.encoder.isSome then Cleared s' else s' = s) s := by
  apply lossless_restart (lossless_stop queries)
  exact fun s₁ h₁ => lossless_start h₁ size s₁.fps s₁.bitrate env

/-! ## every call -/

/-- `Start` finds no library loaded. -/
def Tidy (s : AmfEncoder) : AmfInput → Prop
  | .start _ _ _ _ => s.amfDll = none
  | _ => True

/-- The inputs that neither load nor unload a library. -/
def AmfInput.Works : AmfInput → Prop
  | .setD3D11Device _ | .encode _ _ | .setBitrate _ _ _ | .requestKeyframe => True
  | .start _ _ _ _ | .resize _ _ _ | .stop _ => False

theorem lossless_exec {i : AmfInput} (hi : i.Works) :
    Lossless AmfCall.receipt AmfEncoder.held (exec i) (fun _ s' => s'.objects = s.objects)
      (fun s' => s'.objects = s.objects) s := by
  cases i with
  | encode frame env =>
      have hencode : Keeps (fun k => k.receipt = .neither) AmfEncoder.objects (encode frame env) :=
        (keeps_encode (fun _ _ _ _ _ _ => rfl) frame env).weaken neither_of_isWork
      exact (hencode.bind fun _ => keeps_pure ()).lossless (fun _ _ => held_of_objects) s
  | setBitrate bitrate target peak =>
      exact (keeps_setBitrate bitrate target peak).lossless (fun _ _ => held_of_objects) s
  | setD3D11Device device => exact fun lost => ⟨rfl, rfl⟩
  | requestKeyframe => exact fun lost => ⟨rfl, rfl⟩
  | _ => exact hi.elim

theorem accounts_exec (s : AmfEncoder) (i : AmfInput) :
    Accounts AmfCall.receipt AmfEncoder.held (exec i) (fun _ _ _ => True) (fun _ _ => True) s := by
  by_cases hi : i.Works
  · exact (lossless_exec hi).accounts.forget
  · cases i with
    | start size fps bitrate env => exact (accounts_start size fps bitrate env).forget
    | resize size queries env => exact (lossless_resize s size queries env).accounts.forget
    | stop queries => exact (lossless_stop queries).accounts.forget
    | _ => exact absurd trivial hi

/-- A tidy step loses nothing, and a `Start` that fails keeps nothing. -/
theorem lossless_exec_tidy (h : RuntimeInv s) {i : AmfInput} (hok : Tidy s i) :
    Lossless AmfCall.receipt AmfEncoder.held (exec i) (fun _ => RuntimeInv)
      (fun s' => RuntimeInv s' ∧ (custody.Tries s i → s'.held = 0)) s := by
  by_cases hi : i.Works
  · apply (lossless_exec hi).mono fun _ _ h' => h.of_objects h'
    intro s' h'
    refine ⟨h.of_objects h', fun htries => ?_⟩
    cases i <;> first | exact htries.elim | exact hi.elim
  · cases i with
    | start size fps bitrate env =>
        apply (lossless_start (h hok) size fps bitrate env).mono fun _ _ h' => h'
        exact fun s' h' => ⟨fun _ => h', fun _ => h'.held⟩
    | resize size queries env =>
        apply (lossless_resize s size queries env).mono fun _ _ h' => h'
        intro s' h'
        split at h'
        case isTrue => exact ⟨fun _ => h', fun _ => h'.held⟩
        case isFalse hidle =>
          rw [h']
          exact ⟨h, fun htries => absurd htries hidle⟩
    | stop queries =>
        exact (lossless_stop queries).mono (fun _ s' h' _ => h') fun _ h' => h'.elim
    | _ => exact absurd trivial hi

/-- A `Start` of an encoder with a library loses it, or fails with it. -/
theorem accounts_exec_untidy {i : AmfInput} (hnot : ¬ Tidy s i) :
    Accounts AmfCall.receipt AmfEncoder.held (exec i) (fun _ _ more => more ≠ 0)
      (fun s' more => more = 0 → custody.Tries s i ∧ s'.held ≠ 0) s := by
  cases i with
  | start size fps bitrate env =>
      have hdll : carried AmfHandle.library s.amfDll ≠ 0 := by
        rw [ne_eq, carried_eq_zero_iff]
        exact hnot
      have hheld : s.held ≠ 0 := by
        intro hzero
        simp only [AmfEncoder.held, add_eq_zero] at hzero
        exact hdll hzero.2.2.2.2
      apply (accounts_start size fps bitrate env).mono
      · rintro _ _ _ ⟨-, rest, rfl, -⟩ hzero
        exact hdll (add_eq_zero.mp hzero).2
      · rintro s' _ (⟨hsame, rfl⟩ | ⟨-, rest, rfl, -⟩) hzero
        · rw [held_of_objects hsame]
          exact ⟨trivial, hheld⟩
        · exact absurd (add_eq_zero.mp hzero).2 hdll
  | _ => exact absurd trivial hnot

theorem rules (queries : List QueryResult) :
    custody.Rules (.stop queries) (fun _ => True) RuntimeInv Tidy where
  accounts i s _ := accounts_exec s i
  inv _ _ := trivial
  keeps _ _ h hok := lossless_exec_tidy h hok
  loses _ _ _ hnot := accounts_exec_untidy hnot
  empties _ _ := (lossless_stop queries).mono (fun _ _ h' => h'.held) fun _ h' => h'

/-- A second `Stop` does nothing. -/
theorem stop_stop (queries queries' : List QueryResult) (s : AmfEncoder) :
    stop queries' (stop queries s).2.1 = (some (), (stop queries s).2.1, []) := by
  rcases s with ⟨dll, amfInit, factory, ctx, encoder, _⟩
  cases dll <;> cases ctx <;> cases encoder <;> rfl

/-! ## the buffer -/

def NoBuffers (s : AmfEncoder) : Prop := s.nv12 = 0

/-- `Start` comes to its buffer. -/
@[mk_iff]
structure StartEnv.Reaches (env : StartEnv) (s : AmfEncoder) : Prop where
  device : s.device.isSome
  dll : env.dll.isSome
  exported : env.exported = true
  creates : env.Creates
  initComponent : env.initComponent = true

/-- A `Start` that fails leaves no buffer when it does not come to it and finds none, or
does not get it. -/
@[mk_iff]
structure BuffersTidy (s : AmfEncoder) (size : Size) (env : StartEnv) : Prop where
  before : ¬ env.Reaches s → NoBuffers s
  pool : env.Reaches s → allocated (nv12Bytes (encSide size.1, encSide size.2)) env.nv12 ≠ 0 →
    env.Fills (List.range kSurfacePool)

theorem keepsNv12_setProperties (taken : AmfProperty → Bool) (properties : List AmfProperty) :
    Keeps (fun _ => True) AmfEncoder.nv12 (setProperties taken properties) := by
  induction properties with
  | nil => exact keeps_pure _
  | cons property rest ih =>
      have hproperty : Keeps (fun _ => True) AmfEncoder.nv12
          (setProperty property (taken property)) := by
        cases property <;> cases taken _ <;> simp [Keeps, setProperty, AmfEncoder.apply]
      exact hproperty.bind fun _ => ih

theorem wp_stop_buffers (queries : List QueryResult) :
    Wp (fun _ => True) (stop queries) (fun _ s' => s'.device = s.device ∧ s'.nv12 = s.nv12)
      (fun _ => False) s := by
  simp [stop]
  split <;> simp

/-- The buffer is got before the pool is filled, and stays when that fails. -/
theorem wp_configure_buffers (env : StartEnv) :
    Wp (fun _ => True) (configure env) (fun _ _ => env.Configures s.encSize)
      (fun s' => if env.initComponent then
          s'.nv12 = allocated (nv12Bytes s.encSize) env.nv12 ∧
            (s'.nv12 ≠ 0 → ¬ env.Fills (List.range kSurfacePool))
        else s'.nv12 = s.nv12) s := by
  rw [configure, wp_bind, wp_state]
  apply wp_bind_of (P := fun _ s' => s'.nv12 = s.nv12)
  · have hproperties := (wp_setProperties env.property s.properties).and
      (keepsNv12_setProperties env.property s.properties s)
    exact hproperties.mono (fun _ _ h => h.2) fun _ h => h.1.elim
  · intro _ s₁ hnv12
    simp only [wp_bind, wp_issue, wp_check, wp_update, true_and, bne_iff_ne]
    split
    case isTrue hinit =>
      split
      case isTrue hbytes =>
        have hsame := setup_fillPool (v := AmfEncoder.nv12) (fun _ _ _ => rfl) env
          (List.range kSurfacePool) { s₁ with nv12 := allocated (nv12Bytes s.encSize) env.nv12 }
        have hpool := (wp_fillPool env (List.range kSurfacePool)).and hsame
        apply hpool.mono
        · exact fun _ _ h => ⟨hinit, hbytes, h.1⟩
        · exact fun _ h => ⟨h.2, fun _ => h.1⟩
      case isFalse hbytes =>
        exact fun hne => absurd hne hbytes
    case isFalse hinit => exact hnv12

/-- A failure once the runtime is loaded: the buffer is a new one if it came to that. -/
theorem wp_build_buffers (device : Handle) (env : StartEnv) :
    Wp (fun _ => True) (build device env)
      (fun _ _ => env.Creates ∧ env.initComponent = true ∧ env.Fills (List.range kSurfacePool))
      (fun s' => (env.Creates → env.initComponent = true →
          s'.nv12 = allocated (nv12Bytes s.encSize) env.nv12 ∧
            (s'.nv12 ≠ 0 → ¬ env.Fills (List.range kSurfacePool))) ∧
        (¬ (env.Creates ∧ env.initComponent = true) → s'.nv12 = s.nv12)) s := by
  have hcreate := (wp_createComponent (s := s) device env).and
    (setup_createComponent (v := AmfEncoder.nv12) (fun _ _ _ _ => rfl) device env s)
  rw [build, wp_bind]
  apply hcreate.mono
  · rintro _ s₁ ⟨⟨hcreates, hsize⟩, hnv12⟩
    have hconfigure := wp_configure_buffers (s := s₁) env
    rw [hsize, hnv12] at hconfigure
    apply hconfigure.mono
    · exact fun _ _ h => ⟨hcreates, h.initComponent, h.pool⟩
    · intro s₂ h
      split at h
      case isTrue hinit => exact ⟨fun _ _ => h, fun hnot => absurd ⟨hcreates, hinit⟩ hnot⟩
      case isFalse hinit => exact ⟨fun _ h' => absurd h' hinit, fun _ => h⟩
  · rintro s₁ ⟨hcreates, hnv12⟩
    exact ⟨fun h => absurd h hcreates, fun _ => hnv12⟩

theorem wp_start_buffers (s : AmfEncoder) (size : Size) (fps bitrate : UInt32) (env : StartEnv) :
    Wp (fun _ => True) (start size fps bitrate env) (fun _ _ => BuffersTidy s size env)
      (fun s' => NoBuffers s' ↔ BuffersTidy s size env) s := by
  have hbefore (hnot : ¬ env.Reaches s) {s' : AmfEncoder} (h : s'.nv12 = s.nv12) :
      NoBuffers s' ↔ BuffersTidy s size env := by
    rw [buffersTidy_iff, NoBuffers, NoBuffers, h]
    simp [hnot]
  have hstop {s₁ : AmfEncoder} (h : NoBuffers s₁ ↔ BuffersTidy s size env) :
      Wp (fun _ => True) (stop env.queries) (fun _ s' => NoBuffers s' ↔ BuffersTidy s size env)
        (fun s' => NoBuffers s' ↔ BuffersTidy s size env) s₁ :=
    (wp_stop_buffers env.queries).mono (fun _ _ hsame => by rw [NoBuffers, hsame.2]; exact h)
      fun _ h => h.elim
  simp only [start, loadRuntime, wp_bind, wp_update, wp_state, wp_outcome, wp_issue,
    wp_orCleanUp, wp_check, true_and]
  cases hdevice : s.device with
  | none => exact hbefore (fun h => by simpa [hdevice] using h.device) rfl
  | some device =>
      cases hdll : env.dll with
      | none => exact hbefore (fun h => by simpa [hdll] using h.dll) rfl
      | some dll =>
          cases hexported : env.exported with
          | false => exact hbefore (fun h => by simpa [hexported] using h.exported) rfl
          | true =>
              have hreaches (hcreates : env.Creates) (hinit : env.initComponent = true) :
                  env.Reaches s :=
                ⟨by simp [hdevice], by simp [hdll], hexported, hcreates, hinit⟩
              dsimp only
              rw [if_pos rfl]
              apply (wp_build_buffers device env).mono
              · rintro _ _ ⟨hcreates, hinit, hpool⟩
                exact ⟨fun hnot => absurd (hreaches hcreates hinit) hnot, fun _ _ => hpool⟩
              · rintro s₁ ⟨hnew, hsame⟩
                apply hstop
                by_cases hr : env.Creates ∧ env.initComponent = true
                · obtain ⟨hnv12, hpool⟩ := hnew hr.1 hr.2
                  dsimp only at hnv12
                  rw [buffersTidy_iff, NoBuffers, ← hnv12]
                  simp only [hreaches hr.1 hr.2, not_true, false_imp_iff, true_and, forall_const]
                  exact ⟨fun hnone hne => absurd hnone hne, fun hfills =>
                    Classical.byContradiction fun hne => hpool hne (hfills hne)⟩
                · exact hbefore (fun h => hr ⟨h.creates, h.initComponent⟩) (hsame hr)

/-- A step leaves no buffer when its `Start` fails. -/
def BuffersFreed (s : AmfEncoder) : AmfInput → Prop
  | .start size _ _ env => BuffersTidy s size env
  | .resize size _ env => s.encoder.isSome → BuffersTidy s size env
  | _ => True

theorem failsInto_noBuffers_iff (s : AmfEncoder) (i : AmfInput) :
    custody.FailsInto NoBuffers s i ↔ BuffersFreed s i := by
  cases i with
  | start size fps bitrate env =>
      exact (forall_prop_of_true trivial).trans
        (gaveUp_imp_iff_of (wp_start_buffers s size fps bitrate env))
  | resize size queries env =>
      apply forall_congr'
      intro hready
      have hsome : s.encoder.isSome = true := hready
      refine gaveUp_imp_iff_of (x := resize size queries env) ?_
      rw [resize, wp_bind, wp_state, wp_bind, wp_check, if_pos hsome, wp_bind]
      apply (wp_stop_buffers queries).mono _ fun _ h => h.elim
      rintro _ s₁ ⟨hdevice, hnv12⟩
      have hsame : BuffersTidy s size env ↔ BuffersTidy s₁ size env := by
        simp only [buffersTidy_iff, StartEnv.reaches_iff, NoBuffers, hdevice, hnv12]
      rw [wp_bind, wp_state, hsame]
      exact wp_start_buffers s₁ size s₁.fps s₁.bitrate env
  | _ => exact iff_of_true (fun htries => htries.elim) trivial

/-- **AMF**: over a run of calls with any outcomes, a `Start` that fails keeps no object and no
buffer, and after the destructor's `Stop` all objects have been given back, none twice, exactly
when no `Start` finds a library and each that fails has no buffer to keep. -/
theorem released_iff (queries : List QueryResult) (inputs : List AmfInput) :
    custody.Released (.stop queries) NoBuffers {} inputs ↔
      amfEncoder.Along (fun s i => Tidy s i ∧ BuffersFreed s i) {} inputs :=
  (rules queries).released_iff_along failsInto_noBuffers_iff (stop_stop queries queries)
    fun _ => rfl

end TwinScreen.Host.Amf
