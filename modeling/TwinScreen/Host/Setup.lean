import Mathlib.Tactic.MkIffOfInductiveProp
import TwinScreen.Host.Resize

/-!
# TwinScreen.Host.Setup

The calls of the hardware encoders that handle no picture, and the operations that
issue no others: `Start`, `Stop`, `Resize`, `SetBitrate`, and the first part of
NVENC's `Encode`.  None of them takes a keyframe request back.
-/

namespace TwinScreen.Host

open Lib Lib.Attempt

/-! ## NVENC -/

namespace Nvenc

/-- A call that submits no picture. -/
def NvCall.IsSetup : NvCall → Prop
  | .encodePicture _ _ _ _ => False
  | _ => True

/-- What is missing for an `Encode` is got. -/
@[mk_iff]
structure Prepares (s : NvEncoder) (env : EncodeEnv) : Prop where
  session : s.device = none → env.openSession.isSome
  configured : s.configured = false → env.initializeEncoder = true
  registeredInput : s.registeredInput = none → env.register.isSome
  bitstreamBuffer : s.bitstreamBuffer = none → env.createBitstream.isSome

theorem setup_prepare (s : NvEncoder) (frame : Frame) (env : EncodeEnv) :
    Wp NvCall.IsSetup (prepare frame env)
      (fun _ s' => Prepares s env ∧ s'.keyframeRequested = s.keyframeRequested)
      (fun s' => ¬ Prepares s env ∧ s'.keyframeRequested = s.keyframeRequested) s := by
  simp only [prepares_iff]
  simp [prepare, openSession, configure, registerInput, createBitstream, NvCall.IsSetup]
  cases env.openSession <;> cases env.register <;> cases env.createBitstream <;> simp <;> grind

theorem setup_stop : Keeps NvCall.IsSetup NvEncoder.keyframeRequested stop := by
  simp [Keeps, stop, NvCall.IsSetup]

theorem setup_setBitrate (bitrate : UInt32) (ok : Bool) :
    Keeps NvCall.IsSetup NvEncoder.keyframeRequested (setBitrate bitrate ok) := by
  simp [Keeps, setBitrate, NvCall.IsSetup]

/-- `Start` ends with a request, whatever comes of it. -/
theorem setup_start (s : NvEncoder) (size : Size) (fps bitrate : UInt32) (env : LoadEnv) :
    Wp NvCall.IsSetup (start size fps bitrate env) (fun _ s' => s'.keyframeRequested = true)
      (fun s' => s'.keyframeRequested = true) s := by
  simp [start, loadApi, NvCall.IsSetup]

/-- Everything but an `Encode`. -/
theorem setup_exec (s : NvEncoder) {i : NvInput} (hi : ∀ frame env, i ≠ .encode frame env) :
    Wp NvCall.IsSetup (exec i)
      (fun _ s' => s.keyframeRequested = true → s'.keyframeRequested = true)
      (fun s' => s.keyframeRequested = true → s'.keyframeRequested = true) s := by
  cases i with
  | encode frame env => exact absurd rfl (hi frame env)
  | requestKeyframe => simp [exec]
  | start size fps bitrate env =>
      exact (setup_start s size fps bitrate env).mono (fun _ _ h _ => h) fun _ h _ => h
  | resize size env =>
      simp only [exec, resize, wp_bind, wp_state, wp_check]
      split
      · exact (setup_stop s).mono (fun _ s₁ _ => (setup_start s₁ size s₁.fps s₁.bitrate env).mono
          (fun _ _ h _ => h) fun _ h _ => h) fun _ h => h.trans
      · exact fun h => h
  | setBitrate bitrate ok =>
      exact (setup_setBitrate bitrate ok s).mono (fun _ _ h => h.trans) fun _ h => h.trans
  | stop => exact (setup_stop s).mono (fun _ _ h => h.trans) fun _ h => h.trans

end Nvenc

/-! ## Quick Sync -/

namespace Qsv

/-- A call that copies, converts and submits nothing. -/
def QsvCall.IsSetup : QsvCall → Prop
  | .copyResource _ _ | .map _ _ | .bgraToNv12 _ _ _ | .encodeFrame _ _ _ => False
  | _ => True

/-- The library and the function pointers are all that loading a runtime changes. -/
theorem setup_loadFrom {δ : Type} {v : QsvEncoder → δ} (hresolve : ∀ s r, v (s.resolve r) = v s)
    (hstore : ∀ s encReset qsvDll, v { s with encReset, qsvDll } = v s)
    (runtime : String → Runtime) (names : List String) :
    Keeps QsvCall.IsSetup v (loadFrom runtime names) := by
  induction names with
  | nil => exact keeps_check false
  | cons name names ih =>
      apply (keeps_issue trivial).bind
      intro _
      cases (runtime name).dll with
      | none => exact ih
      | some dll =>
          apply ((keeps_update _).mpr fun s => hresolve s _).bind
          intro _
          split
          · exact (keeps_update _).mpr fun s => hstore s _ _
          · exact (keeps_issue trivial).bind fun _ => ih

theorem setup_stop : Keeps QsvCall.IsSetup QsvEncoder.keyframeRequested stop := by
  simp [Keeps, stop, unloadRuntime, QsvCall.IsSetup]

theorem setup_setBitrate (bitrate : UInt32) (status : MfxStatus) :
    Keeps QsvCall.IsSetup QsvEncoder.keyframeRequested (setBitrate bitrate status) := by
  simp [Keeps, setBitrate, QsvCall.IsSetup]

/-- `Start` ends with a request, whatever comes of it. -/
theorem setup_start (s : QsvEncoder) (size : Size) (fps bitrate : UInt32) (env : StartEnv) :
    Wp QsvCall.IsSetup (start size fps bitrate env) (fun _ s' => s'.keyframeRequested = true)
      (fun s' => s'.keyframeRequested = true) s := by
  simp only [start, wp_bind, wp_update]
  apply (setup_loadFrom (v := QsvEncoder.keyframeRequested) (fun _ _ => rfl) (fun _ _ _ => rfl)
    env.runtime kCandidates _).mono
  · intro _ s₁ hrequested
    simp [initSession, configure, unloadRuntime, stop, QsvCall.IsSetup, hrequested]
  · exact fun _ hrequested => hrequested

/-- Everything but an `Encode`. -/
theorem setup_exec (s : QsvEncoder) {i : QsvInput} (hi : ∀ frame env, i ≠ .encode frame env) :
    Wp QsvCall.IsSetup (exec i)
      (fun _ s' => s.keyframeRequested = true → s'.keyframeRequested = true)
      (fun s' => s.keyframeRequested = true → s'.keyframeRequested = true) s := by
  cases i with
  | encode frame env => exact absurd rfl (hi frame env)
  | requestKeyframe => simp [exec]
  | start size fps bitrate env =>
      exact (setup_start s size fps bitrate env).mono (fun _ _ h _ => h) fun _ h _ => h
  | resize size env =>
      simp only [exec, resize, wp_bind, wp_state, wp_check]
      split
      · exact (setup_stop s).mono (fun _ s₁ _ => (setup_start s₁ size s₁.fps s₁.bitrate env).mono
          (fun _ _ h _ => h) fun _ h _ => h) fun _ h => h.trans
      · exact fun h => h
  | setBitrate bitrate status =>
      exact (setup_setBitrate bitrate status s).mono (fun _ _ h => h.trans) fun _ h => h.trans
  | stop => exact (setup_stop s).mono (fun _ _ h => h.trans) fun _ h => h.trans

end Qsv

/-! ## AMF -/

namespace Amf

/-- A call that copies, converts and submits nothing, and does not ask for an IDR. -/
def AmfCall.IsSetup : AmfCall → Prop
  | .copyResource _ _ | .map _ _ | .bgraToNv12 _ _ _ | .submitInput _ _ => False
  | .setProperty _ property _ => property ≠ .forceIdr
  | _ => True

theorem setup_setProperty {property : AmfProperty} (h : property ≠ .forceIdr) (ok : Bool) :
    Keeps AmfCall.IsSetup AmfEncoder.keyframeRequested (setProperty property ok) := by
  cases property <;> cases ok <;> simp_all [Keeps, setProperty, AmfCall.IsSetup, AmfEncoder.apply]

theorem setup_setProperties (taken : AmfProperty → Bool) {properties : List AmfProperty}
    (h : ∀ p ∈ properties, p ≠ .forceIdr) :
    Keeps AmfCall.IsSetup AmfEncoder.keyframeRequested (setProperties taken properties) := by
  induction properties with
  | nil => simp [Keeps, setProperties]
  | cons property rest ih =>
      apply (setup_setProperty (h property (by simp)) (taken property)).bind
      exact fun _ => ih fun p hp => h p (by simp [hp])

theorem setup_setBitrate (bitrate : UInt32) (target peak : Bool) :
    Keeps AmfCall.IsSetup AmfEncoder.keyframeRequested (setBitrate bitrate target peak) := by
  have htarget :=
    setup_setProperty (show AmfProperty.targetBitrate bitrate.toNat ≠ .forceIdr by simp)
  have hpeak :=
    setup_setProperty (show AmfProperty.peakBitrate (bitrate.toNat * 12 / 10) ≠ .forceIdr by simp)
  exact keeps_state.bind fun s => (keeps_check _).bind fun _ => (htarget target).bind fun _ =>
    (keeps_check _).bind fun _ => (hpeak peak).bind fun _ => (keeps_check _).bind fun _ => by simp

/-- The pool is all that filling it changes. -/
theorem setup_fillPool {δ : Type} {v : AmfEncoder → δ}
    (hv : ∀ s textures surfaces, v { s with nv12Tex := textures, surfaces } = v s) (env : StartEnv)
    (indices : List Nat) : Keeps AmfCall.IsSetup v (fillPool env indices) := by
  induction indices with
  | nil => exact keeps_pure _
  | cons i rest ih =>
      exact keeps_state.bind fun s => (keeps_issue trivial).bind fun _ =>
        (keeps_outcome _).bind fun texture => ((keeps_update _).mpr fun t => hv t _ _).bind fun _ =>
          (keeps_issue trivial).bind fun _ => (keeps_outcome _).bind fun surface =>
            (keeps_issue trivial).bind fun _ => ((keeps_update _).mpr fun t => hv t _ _).bind
              fun _ => ih

theorem setup_stop (queries : List QueryResult) :
    Keeps AmfCall.IsSetup AmfEncoder.keyframeRequested (stop queries) := by
  simp [Keeps, stop, AmfCall.IsSetup]
  intro s
  split <;> simp

theorem setup_createComponent {δ : Type} {v : AmfEncoder → δ}
    (hv : ∀ s factory ctx encoder, v { s with factory, ctx, encoder } = v s) (device : Handle)
    (env : StartEnv) : Keeps AmfCall.IsSetup v (createComponent device env) :=
  (keeps_issue trivial).bind fun _ => (keeps_check _).bind fun _ =>
    ((keeps_update _).mpr fun t => hv t _ _ _).bind fun _ => (keeps_issue trivial).bind fun _ =>
      (keeps_outcome _).bind fun _ => ((keeps_update _).mpr fun t => hv t _ _ _).bind fun _ =>
        (keeps_issue trivial).bind fun _ => (keeps_check _).bind fun _ =>
          (keeps_issue trivial).bind fun _ => (keeps_outcome _).bind fun _ =>
            (keeps_update _).mpr fun t => hv t _ _ _

theorem setup_loadRuntime {δ : Type} {v : AmfEncoder → δ}
    (hv : ∀ s amfInit amfDll, v { s with amfInit, amfDll } = v s) (dll : Option Handle)
    (exported : Bool) : Keeps AmfCall.IsSetup v (loadRuntime dll exported) :=
  (keeps_issue trivial).bind fun _ => (keeps_outcome _).bind fun _ =>
    ((keeps_update _).mpr fun t => hv t _ _).bind fun _ =>
      ((keeps_check _).orCleanUp (keeps_issue trivial)).bind fun _ =>
        (keeps_update _).mpr fun t => hv t _ _

theorem setup_configure (env : StartEnv) :
    Keeps AmfCall.IsSetup AmfEncoder.keyframeRequested (configure env) := by
  apply keeps_state.bind
  intro s
  apply (setup_setProperties env.property (by simp [AmfEncoder.properties])).bind
  intro _
  exact (keeps_issue trivial).bind fun _ => (keeps_check _).bind fun _ =>
    Keeps.bind (by simp) fun _ => (keeps_check _).bind fun _ =>
      setup_fillPool (fun _ _ _ => rfl) env _

/-- `Start` ends with a request, whatever comes of it. -/
theorem setup_start (s : AmfEncoder) (size : Size) (fps bitrate : UInt32) (env : StartEnv) :
    Wp AmfCall.IsSetup (start size fps bitrate env) (fun _ s' => s'.keyframeRequested = true)
      (fun s' => s'.keyframeRequested = true) s := by
  have hbuild (device : Handle) : Keeps AmfCall.IsSetup AmfEncoder.keyframeRequested
      (orCleanUp (build device env) (stop env.queries)) := by
    have hcreate := setup_createComponent (v := AmfEncoder.keyframeRequested)
      (fun _ _ _ _ => rfl) device env
    exact (hcreate.bind fun _ => setup_configure env).orCleanUp (setup_stop env.queries)
  have hrest : Keeps AmfCall.IsSetup AmfEncoder.keyframeRequested (do
      let s ← state
      let device ← outcome s.device
      loadRuntime env.dll env.exported
      orCleanUp (build device env) (stop env.queries)) :=
    keeps_state.bind fun s => (keeps_outcome _).bind fun device =>
      (setup_loadRuntime (fun _ _ _ => rfl) env.dll env.exported).bind fun _ => hbuild device
  rw [start, wp_bind, wp_update]
  exact hrest _

/-- An output that is read changes nothing. -/
theorem setup_readOutput (s : AmfEncoder) (result : QueryResult) :
    Wp AmfCall.IsSetup (readOutput result) (fun _ s' => s' = s) (fun s' => s' = s) s := by
  simp [readOutput, AmfCall.IsSetup]
  split <;> simp

/-- Everything but an `Encode`. -/
theorem setup_exec (s : AmfEncoder) {i : AmfInput} (hi : ∀ frame env, i ≠ .encode frame env) :
    Wp AmfCall.IsSetup (exec i)
      (fun _ s' => s.keyframeRequested = true → s'.keyframeRequested = true)
      (fun s' => s.keyframeRequested = true → s'.keyframeRequested = true) s := by
  cases i with
  | encode frame env => exact absurd rfl (hi frame env)
  | setD3D11Device device => simp [exec]
  | requestKeyframe => simp [exec]
  | start size fps bitrate env =>
      exact (setup_start s size fps bitrate env).mono (fun _ _ h _ => h) fun _ h _ => h
  | resize size queries env =>
      simp only [exec, resize, wp_bind, wp_state, wp_check]
      split
      · exact (setup_stop queries s).mono (fun _ s₁ _ =>
          (setup_start s₁ size s₁.fps s₁.bitrate env).mono (fun _ _ h _ => h) fun _ h _ => h)
          fun _ h => h.trans
      · exact fun h => h
  | setBitrate bitrate target peak =>
      exact (setup_setBitrate bitrate target peak s).mono (fun _ _ h => h.trans) fun _ h => h.trans
  | stop queries => exact (setup_stop queries s).mono (fun _ _ h => h.trans) fun _ h => h.trans

/-! ### Encode -/

/-- A call that gets nothing and gives nothing back. -/
def AmfCall.IsWork : AmfCall → Prop
  | .createStaging _ _ | .copyResource _ _ | .map _ _ | .bgraToNv12 _ _ _ | .updateSubresource _ _
  | .setProperty _ _ _ | .submitInput _ _ | .queryOutput _ _ => True
  | _ => False

section

variable {δ : Type} {v : AmfEncoder → δ}

theorem keeps_readOutput (result : QueryResult) : Keeps AmfCall.IsWork v (readOutput result) := by
  apply keeps_state.bind
  intro s
  apply (keeps_issue trivial).bind
  intro _
  cases result with
  | buffer bytes => exact (keeps_check _).bind fun _ => (keeps_check _).bind fun _ => keeps_pure _
  | _ => exact keeps_outcome none

theorem keeps_submitFrom (surface : Option Handle) (env : EncodeEnv) (tries : Nat) :
    Keeps AmfCall.IsWork v (submitFrom surface env tries) := by
  induction tries with
  | zero => exact keeps_pure _
  | succ tries ih =>
      apply (keeps_issue trivial).bind
      intro _
      split
      · exact (keeps_readOutput _).ignore.bind fun _ => ih
      · exact keeps_pure _

variable (hv : ∀ s device dctx staging keyframeRequested surfaceIndex,
  v { s with device, dctx, staging, keyframeRequested, surfaceIndex } = v s)
include hv

theorem keeps_copyFrameToNv12 (frame : Frame) (env : CopyEnv) :
    Keeps AmfCall.IsWork v (copyFrameToNv12 frame env) := by
  have hwork : copyCalls.Meet AmfCall.IsWork := by constructor <;> exact fun _ _ => trivial
  have hkeep : copyCalls.Keep v :=
    keep_copyCalls fun s _ _ _ => hv s _ _ _ s.keyframeRequested s.surfaceIndex
  have hcopy : Keeps AmfCall.IsWork v (copyCalls.copyFrameToNv12 frame env) := fun s =>
    (CopyCalls.wp_copyFrameToNv12 hwork hkeep s frame env).mono (fun _ _ h => h.2) fun _ h => h.2
  exact hcopy.bind fun _ => keeps_state.bind fun _ => keeps_issue trivial

/-- An `Encode` changes no more than what it draws the frame with. -/
theorem keeps_encode (frame : Frame) (env : EncodeEnv) :
    Keeps AmfCall.IsWork v (encode frame env) := by
  have hidr : Keeps AmfCall.IsWork v (setProperty .forceIdr env.forceIdr) :=
    keeps_state.bind fun s => (keeps_issue trivial).bind fun _ =>
      (keeps_update _).mpr fun s => by simp [AmfEncoder.apply]
  have hrequest : ∀ s : AmfEncoder, v { s with keyframeRequested := false } = v s :=
    fun s => hv s s.device s.dctx s.staging _ s.surfaceIndex
  have hindex : ∀ s : AmfEncoder,
      v { s with surfaceIndex := (s.surfaceIndex + 1) % s.surfaces.length } = v s :=
    fun s => hv s s.device s.dctx s.staging s.keyframeRequested _
  apply keeps_state.bind
  intro s
  apply (keeps_check _).bind
  intro _
  apply (keeps_copyFrameToNv12 hv frame env.copy).bind
  intro _
  apply ((hidr.bind fun _ => (keeps_update _).mpr hrequest).whenever _).bind
  intro _
  apply ((keeps_update _).mpr hindex).bind
  intro _
  apply (keeps_submitFrom _ env kTries).bind
  intro result
  exact (keeps_check _).bind fun _ => keeps_readOutput env.output

end

end Amf

end TwinScreen.Host
