import TwinScreen.Host.Color
import TwinScreen.Host.Encoder
import TwinScreen.Host.Nal
import TwinScreen.Lib.Attempt
import TwinScreen.Lib.Machine

/-!
# TwinScreen.Host.Amf

`host/src/encode/amf.cpp`: the AMD VCE encoder.  As for the others, the calls into
Windows, D3D and the runtime are recorded and their outcomes are inputs.
-/

namespace TwinScreen.Host.Amf

open Lib Lib.Attempt

/-! ## state -/

/-- The fields of `AmfEncoder`; of the staging texture its size is known, of `nv12_`
how many bytes it has.  The two rates are properties that the component holds. -/
structure AmfEncoder where
  amfDll : Option Handle := none
  amfInit : Bool := false
  factory : Bool := false
  ctx : Option Handle := none
  encoder : Option Handle := none
  surfaces : List Handle := []
  surfaceIndex : Nat := 0
  device : Option Handle := none
  dctx : Bool := false
  staging : Option Size := none
  nv12Tex : List Handle := []
  nv12 : Nat := 0
  size : Size := (0, 0)
  fps : UInt32 := 30
  bitrate : UInt32 := 0
  encSize : Size := (0, 0)
  keyframeRequested : Bool := true
  targetBitrate : Option Nat := none
  peakBitrate : Option Nat := none
  deriving DecidableEq

/-- The results of `SubmitInput` that the code tells apart. -/
inductive SubmitResult
  | ok
  | inputFull
  | other
  deriving DecidableEq

/-- What `QueryOutput` and the reading of its data give: nothing yet, an error, no
data, something that is no buffer, or the bytes of a buffer. -/
inductive QueryResult
  | again
  | failed
  | noData
  | noBuffer
  | buffer (bytes : List UInt8)
  deriving DecidableEq

/-- The properties that are set with a value of the encoder's. -/
inductive AmfProperty
  | targetBitrate (v : Nat)
  | peakBitrate (v : Nat)
  | frameRate (num : UInt32)
  | idrPeriod (v : UInt32)
  | headerInsertionSpacing (v : UInt32)
  | forceIdr
  deriving DecidableEq

/-- The calls with their arguments and outcomes; `release` is that of a smart
pointer. -/
inductive AmfCall
  | loadLibrary (dll : Option Handle)
  | freeLibrary (dll : Handle)
  | amfInit (ok : Bool)
  | createContext (ctx : Option Handle)
  | initDX11 (device : Handle) (ok : Bool)
  | createComponent (encoder : Option Handle)
  | setProperty (encoder : Option Handle) (property : AmfProperty) (ok : Bool)
  | initComponent (encoder : Option Handle) (encSize : Size) (ok : Bool)
  | createTexture (encSize : Size) (texture : Option Handle)
  | createSurface (texture : Handle) (surface : Option Handle)
  | setCrop (surface : Handle) (size : Size)
  | drain (encoder : Handle)
  | queryOutput (encoder : Option Handle) (result : QueryResult)
  | terminate (encoder : Handle)
  | release (handle : Handle)
  | createStaging (size : Size) (ok : Bool)
  | copyResource (dst : Option Size) (src : Texture)
  | map (staging : Option Size) (rowPitch : Option Nat)
  | bgraToNv12 (rowPitch : Nat) (nv12Pitch : UInt32) (size : Size)
  | updateSubresource (texture : Option Handle) (rowPitch : UInt32)
  | submitInput (surface : Option Handle) (result : SubmitResult)
  deriving DecidableEq

def kSurfacePool : Nat := 3

/-! ## the runtime -/

/-- `LoadRuntime`; the library is stored only once it has the entry point. -/
def loadRuntime (dll : Option Handle) (exported : Bool) : Attempt AmfEncoder AmfCall Unit := do
  issue (.loadLibrary dll)
  let handle ← outcome dll
  update fun s => { s with amfInit := exported }
  orCleanUp (check exported) (issue (.freeLibrary handle))
  update fun s => { s with amfDll := some handle }

/-- `Stop`; `queries` are the results that its drain loop meets and drops. -/
def stop (queries : List QueryResult) : Attempt AmfEncoder AmfCall Unit := do
  let s ← state
  forSome s.encoder fun encoder => do
    issue (.drain encoder)
    issueAll (queries.map fun result => .queryOutput encoder result)
    issue (.terminate encoder)
  issueAll (s.surfaces.map .release)
  issueAll (s.nv12Tex.map .release)
  forSome s.encoder fun encoder => issue (.release encoder)
  forSome s.ctx fun ctx => issue (.release ctx)
  forSome s.amfDll fun dll => issue (.freeLibrary dll)
  update fun s => { s with
    surfaces := []
    nv12Tex := []
    encoder := none
    ctx := none
    amfDll := none
    amfInit := false
    factory := false
    targetBitrate := none
    peakBitrate := none }

/-! ## Start -/

/-- The outcomes of `Start`'s calls; `property` tells which properties are taken, and
the pool's textures and surfaces go by their index. -/
structure StartEnv where
  dll : Option Handle
  exported : Bool
  amfInit : Bool
  ctx : Option Handle
  initDX11 : Bool
  component : Option Handle
  property : AmfProperty → Bool
  initComponent : Bool
  nv12 : Bool
  texture : Nat → Option Handle
  surface : Nat → Option Handle
  queries : List QueryResult

/-- What the component holds of a property. -/
def AmfEncoder.apply (s : AmfEncoder) : AmfProperty → AmfEncoder
  | .targetBitrate v => { s with targetBitrate := some v }
  | .peakBitrate v => { s with peakBitrate := some v }
  | _ => s

/-- `SetProperty`; a property that is not taken changes nothing. -/
def setProperty (property : AmfProperty) (ok : Bool) : Attempt AmfEncoder AmfCall Unit := do
  let s ← state
  issue (.setProperty s.encoder property ok)
  update fun s => if ok then s.apply property else s

/-- The properties `Start` sets to values of the encoder's, in order; it does not look
at the results. -/
def AmfEncoder.properties (s : AmfEncoder) : List AmfProperty :=
  [.targetBitrate s.bitrate.toNat, .peakBitrate (s.bitrate.toNat * 12 / 10), .frameRate s.fps,
    .idrPeriod (s.fps * 2), .headerInsertionSpacing (s.fps * 2)]

def setProperties (taken : AmfProperty → Bool) : List AmfProperty → Attempt AmfEncoder AmfCall Unit
  | [] => pure ()
  | property :: rest => do
      setProperty property (taken property)
      setProperties taken rest

/-- The loop that fills the surface pool, over the indices that are left. -/
def fillPool (env : StartEnv) : List Nat → Attempt AmfEncoder AmfCall Unit
  | [] => pure ()
  | i :: rest => do
      let s ← state
      issue (.createTexture s.encSize (env.texture i))
      let texture ← outcome (env.texture i)
      update fun s => { s with nv12Tex := s.nv12Tex ++ [texture] }
      issue (.createSurface texture (env.surface i))
      let surface ← outcome (env.surface i)
      issue (.setCrop surface s.size)
      update fun s => { s with surfaces := s.surfaces ++ [surface] }
      fillPool env rest

/-- `Start` from `AMFInit` to `CreateComponent`. -/
def createComponent (device : Handle) (env : StartEnv) : Attempt AmfEncoder AmfCall Unit := do
  issue (.amfInit env.amfInit)
  check env.amfInit
  update fun s => { s with factory := true }
  issue (.createContext env.ctx)
  let ctx ← outcome env.ctx
  update fun s => { s with ctx := some ctx }
  issue (.initDX11 device env.initDX11)
  check env.initDX11
  issue (.createComponent env.component)
  let encoder ← outcome env.component
  update fun s => { s with encoder := some encoder }

/-- `Start` from the properties on: `Init`, the buffer, and the surface pool. -/
def configure (env : StartEnv) : Attempt AmfEncoder AmfCall Unit := do
  let s ← state
  setProperties env.property s.properties
  issue (.initComponent s.encoder s.encSize env.initComponent)
  check env.initComponent
  update fun t => { t with nv12 := allocated (nv12Bytes s.encSize) env.nv12 }
  check (allocated (nv12Bytes s.encSize) env.nv12 != 0)
  fillPool env (List.range kSurfacePool)

def build (device : Handle) (env : StartEnv) : Attempt AmfEncoder AmfCall Unit := do
  createComponent device env
  configure env

def start (size : Size) (fps bitrate : UInt32) (env : StartEnv) :
    Attempt AmfEncoder AmfCall Unit := do
  update fun s => { s with
    size
    fps := fpsOr30 fps
    bitrate
    keyframeRequested := true
    encSize := (encSide size.1, encSide size.2) }
  let s ← state
  let device ← outcome s.device
  loadRuntime env.dll env.exported
  orCleanUp (build device env) (stop env.queries)

/-! ## Encode -/

/-- The fields and calls of `CopyFrameToNv12`. -/
def copyCalls : CopyCalls AmfEncoder AmfCall where
  getDevice device s := if !s.dctx then { s with device := some device, dctx := true } else s
  staging := AmfEncoder.staging
  setStaging size s := { s with staging := some size }
  createStaging := .createStaging
  copyResource := .copyResource
  map := .map
  bgraToNv12 rowPitch s := .bgraToNv12 rowPitch s.encSize.1 s.size
  staging_getDevice device s := by split <;> rfl
  staging_setStaging size s := rfl

/-- A copy changes the device, its context and the staging texture alone. -/
theorem keep_copyCalls {δ : Type} {v : AmfEncoder → δ}
    (hv : ∀ s device dctx staging, v { s with device, dctx, staging } = v s) : copyCalls.Keep v where
  getDevice device s := by
    simp only [copyCalls]
    split
    · exact hv s (some device) true s.staging
    · rfl
  setStaging size s := hv s s.device s.dctx (some size)

/-- `CopyFrameToNv12`, which ends with the upload of the buffer. -/
def copyFrameToNv12 (frame : Frame) (env : CopyEnv) : Attempt AmfEncoder AmfCall Unit := do
  copyCalls.copyFrameToNv12 frame env
  let s ← state
  issue (.updateSubresource s.nv12Tex[s.surfaceIndex]? s.encSize.1)

def readOutput (result : QueryResult) : Attempt AmfEncoder AmfCall EncodedFrame := do
  let s ← state
  issue (.queryOutput s.encoder result)
  match result with
  | .buffer bytes => do
      check !bytes.isEmpty
      check !(frameOf bytes).nals.isEmpty
      pure (frameOf bytes)
  | _ => outcome none

/-- The outcomes of `Encode`'s calls: by the number of the try, the result of
`SubmitInput` and that of the `QueryOutput` made when the queue is full; and the last
`QueryOutput`. -/
structure EncodeEnv where
  copy : CopyEnv
  forceIdr : Bool
  submit : Nat → SubmitResult
  whileFull : Nat → QueryResult
  output : QueryResult

def kTries : Nat := 30

/-- The submission loop with so many tries left. -/
def submitFrom (surface : Option Handle) (env : EncodeEnv) :
    Nat → Attempt AmfEncoder AmfCall SubmitResult
  | 0 => pure .inputFull
  | tries + 1 => do
      let n := kTries - (tries + 1)
      issue (.submitInput surface (env.submit n))
      if env.submit n = .inputFull then
        ignore (readOutput (env.whileFull n))
        submitFrom surface env tries
      else
        pure (env.submit n)

def encode (frame : Frame) (env : EncodeEnv) : Attempt AmfEncoder AmfCall EncodedFrame := do
  let s ← state
  check s.encoder.isSome
  copyFrameToNv12 frame env.copy
  whenever s.keyframeRequested do
    setProperty .forceIdr env.forceIdr
    update fun s => { s with keyframeRequested := false }
  update fun s => { s with surfaceIndex := (s.surfaceIndex + 1) % s.surfaces.length }
  let result ← submitFrom s.surfaces[s.surfaceIndex % s.surfaces.length]? env kTries
  check (result == .ok)
  readOutput env.output

/-! ## Resize and SetBitrate -/

/-- `Resize`: the component is given up before the new one is made. -/
def resize (size : Size) (queries : List QueryResult) (env : StartEnv) :
    Attempt AmfEncoder AmfCall Unit := do
  let s ← state
  check s.encoder.isSome
  stop queries
  let s ← state
  start size s.fps s.bitrate env

def setBitrate (bitrate : UInt32) (target peak : Bool) : Attempt AmfEncoder AmfCall Unit := do
  let s ← state
  check s.encoder.isSome
  setProperty (.targetBitrate bitrate.toNat) target
  check target
  setProperty (.peakBitrate (bitrate.toNat * 12 / 10)) peak
  check peak
  update fun s => { s with bitrate }

/-! ## runs -/

/-- The calls on an encoder with the outcomes they meet; `stop` is the destructor's. -/
inductive AmfInput
  | setD3D11Device (device : Option Handle)
  | start (size : Size) (fps bitrate : UInt32) (env : StartEnv)
  | encode (frame : Frame) (env : EncodeEnv)
  | setBitrate (bitrate : UInt32) (target peak : Bool)
  | requestKeyframe
  | resize (size : Size) (queries : List QueryResult) (env : StartEnv)
  | stop (queries : List QueryResult)

def exec : AmfInput → Attempt AmfEncoder AmfCall Unit
  | .setD3D11Device device => update fun s => { s with device }
  | .start size fps bitrate env => start size fps bitrate env
  | .encode frame env => do
      let _ ← encode frame env
  | .setBitrate bitrate target peak => setBitrate bitrate target peak
  | .requestKeyframe => update fun s => { s with keyframeRequested := true }
  | .resize size queries env => resize size queries env
  | .stop queries => stop queries

/-- An encoder from its construction on; the outputs are the calls it issues. -/
def amfEncoder : Machine AmfEncoder AmfInput AmfCall where
  step s i := some (exec i s).2

/-! ## a Resize that fails -/

/-- No call of `Encode` fails, and its output has a NAL. -/
structure EncodeEnv.Working (env : EncodeEnv) : Prop where
  createStaging : env.copy.createStaging = true
  map : env.copy.map.isSome
  forceIdr : env.forceIdr = true
  submit : env.submit 0 = .ok
  output : ∃ bytes, env.output = .buffer bytes ∧ (frameOf bytes).nals ≠ []

/-- The encoder as its callers see it. -/
def view : EncoderView AmfEncoder where
  size := AmfEncoder.size
  fps := AmfEncoder.fps
  bitrate := AmfEncoder.bitrate
  encodes s := ∀ frame env, EncodeEnv.Working env →
    Wp (fun _ => True) (encode frame env) (fun _ s' => s'.encoder.isSome) (fun _ => False) s

/-- The textures and surfaces of the pool are got. -/
def StartEnv.Fills (env : StartEnv) (indices : List Nat) : Prop :=
  ∀ i ∈ indices, (env.texture i).isSome ∧ (env.surface i).isSome

/-- The factory, the context and the component are got. -/
structure StartEnv.Creates (env : StartEnv) : Prop where
  amfInit : env.amfInit = true
  ctx : env.ctx.isSome
  initDX11 : env.initDX11 = true
  component : env.component.isSome

/-- The component takes its size, the buffer is got, and the pool is filled. -/
structure StartEnv.Configures (env : StartEnv) (encSize : Size) : Prop where
  initComponent : env.initComponent = true
  nv12 : allocated (nv12Bytes encSize) env.nv12 ≠ 0
  pool : env.Fills (List.range kSurfacePool)

/-- No step of `Start` fails for this size. -/
structure StartEnv.Works (env : StartEnv) (size : Size) : Prop where
  dll : env.dll.isSome
  exported : env.exported = true
  creates : env.Creates
  configures : env.Configures (encSide size.1, encSide size.2)

section

variable {s : AmfEncoder}

/-- The properties change no more than what the component holds of them. -/
theorem wp_setProperties (taken : AmfProperty → Bool) (properties : List AmfProperty) :
    Wp (fun _ => True) (setProperties taken properties) (fun _ _ => True) (fun _ => False) s := by
  induction properties generalizing s with
  | nil => simp [setProperties]
  | cons property rest ih => simpa [setProperties, setProperty] using ih

theorem wp_fillPool (env : StartEnv) (indices : List Nat) :
    Wp (fun _ => True) (fillPool env indices) (fun _ _ => env.Fills indices)
      (fun _ => ¬ env.Fills indices) s := by
  induction indices generalizing s with
  | nil => simp [fillPool, StartEnv.Fills]
  | cons i rest ih =>
      have hcons : env.Fills (i :: rest) ↔
          ((env.texture i).isSome ∧ (env.surface i).isSome) ∧ env.Fills rest := by
        simp [StartEnv.Fills]
      simp only [hcons]
      cases htexture : env.texture i with
      | none => simp [fillPool, htexture]
      | some texture =>
          cases hsurface : env.surface i with
          | none => simp [fillPool, htexture, hsurface]
          | some surface => simpa [fillPool, htexture, hsurface] using ih

theorem wp_createComponent (device : Handle) (env : StartEnv) :
    Wp (fun _ => True) (createComponent device env)
      (fun _ s' => env.Creates ∧ s'.encSize = s.encSize) (fun _ => ¬ env.Creates) s := by
  simp [createComponent]
  grind [StartEnv.Creates]

theorem wp_configure (env : StartEnv) :
    Wp (fun _ => True) (configure env) (fun _ _ => env.Configures s.encSize)
      (fun _ => ¬ env.Configures s.encSize) s := by
  rw [configure, wp_bind, wp_state]
  apply wp_bind_of (P := fun _ _ => True)
  · exact (wp_setProperties env.property s.properties).mono (fun _ _ h => h) fun _ h => h.elim
  · intro _ s₁ _
    simp only [wp_bind, wp_issue, wp_check, wp_update, true_and, bne_iff_ne]
    split
    case isTrue hinit =>
      split
      case isTrue hnv12 =>
        apply (wp_fillPool env (List.range kSurfacePool)).mono
        · exact fun _ _ hpool => ⟨hinit, hnv12, hpool⟩
        · exact fun _ hpool h => hpool h.pool
      case isFalse hnv12 => exact fun h => hnv12 h.nv12
    case isFalse hinit => exact fun h => hinit h.initComponent

theorem wp_stop (queries : List QueryResult) :
    Wp (fun _ => True) (stop queries)
      (fun _ s' => s'.encoder = none ∧ s'.device = s.device) (fun _ => False) s := by
  simp [stop]
  split <;> trivial

/-- `Start` after a `Stop` works, or leaves the encoder without a component. -/
theorem wp_start (h : s.encoder = none) (size : Size) (fps bitrate : UInt32) (env : StartEnv) :
    Wp (fun _ => True) (start size fps bitrate env)
      (fun _ _ => s.device.isSome ∧ env.Works size)
      (fun s' => ¬ (s.device.isSome ∧ env.Works size) ∧ s'.encoder = none) s := by
  have hdown (hfails : ¬ env.Works size) (s₁ : AmfEncoder) : Wp (fun _ => True) (stop env.queries)
      (fun _ s' => ¬ (s.device.isSome ∧ env.Works size) ∧ s'.encoder = none)
      (fun s' => ¬ (s.device.isSome ∧ env.Works size) ∧ s'.encoder = none) s₁ :=
    (wp_stop env.queries).mono (fun _ _ h' => ⟨fun hworks => hfails hworks.2, h'.1⟩)
      fun _ h' => h'.elim
  simp only [start, loadRuntime, build, wp_bind, wp_update, wp_state, wp_outcome, wp_issue,
    wp_orCleanUp, wp_check, true_and]
  cases hdevice : s.device with
  | none => simp [h]
  | some device =>
      cases hdll : env.dll with
      | none => exact ⟨fun hworks => by simpa [hdll] using hworks.2.dll, h⟩
      | some dll =>
          cases hexported : env.exported with
          | false => exact ⟨fun hworks => by simpa [hexported] using hworks.2.exported, h⟩
          | true =>
              rw [hdevice] at hdown
              apply (wp_createComponent device env).mono
              · rintro _ s₁ ⟨hcreates, hsize⟩
                apply (wp_configure env).mono
                · intro _ s₂ hconfigures
                  rw [hsize] at hconfigures
                  exact ⟨rfl, by simp [hdll], hexported, hcreates, hconfigures⟩
                · intro s₂ hconfigures
                  rw [hsize] at hconfigures
                  exact hdown (fun hworks => hconfigures hworks.configures) s₂
              · exact fun s₁ hcreates => hdown (fun hworks => hcreates hworks.creates) s₁

/-- Outcomes of a working `Encode`: an access unit of one IDR slice. -/
def workingEncode : EncodeEnv :=
  ⟨⟨true, some 7680⟩, true, fun _ => .ok, fun _ => .again, .buffer [0, 0, 1, 0x65]⟩

theorem working_workingEncode : workingEncode.Working := by
  constructor
  case output => exact ⟨[0, 0, 1, 0x65], rfl, by decide⟩
  all_goals decide

/-- An encoder yields frames exactly when it has its component. -/
theorem encodes_iff : view.encodes s ↔ s.encoder.isSome := by
  constructor
  · intro hencodes
    have hfirst := hencodes ⟨⟨0, (1920, 1080)⟩, 7⟩ workingEncode working_workingEncode
    simp [encode] at hfirst
    grind
  · rintro hencoder frame env hworking
    obtain ⟨rowPitch, hmap⟩ := Option.isSome_iff_exists.mp hworking.map
    obtain ⟨bytes, hbytes, hnals⟩ := hworking.output
    have houtput : bytes ≠ [] := by
      rintro rfl
      exact hnals (by decide)
    simp [encode, copyFrameToNv12, CopyCalls.copyFrameToNv12, copyCalls, submitFrom, kTries,
      readOutput, setProperty, hencoder, hmap, hbytes, houtput, hnals, hworking.createStaging,
      hworking.forceIdr, hworking.submit, AmfEncoder.apply]
    split <;> simp [hencoder]

/-- A `Resize` never fails and leaves an encoder that yields frames: it has none to
start with, or has given its component up. -/
theorem resize_keeps_iff (size : Size) (queries : List QueryResult) (env : StartEnv) :
    ((resize size queries env s).1 = none → view.Kept s (resize size queries env s).2.1) ↔
      s.encoder.isSome ∧ s.device.isSome ∧ env.Works size := by
  apply gaveUp_imp_iff
  simp only [resize, wp_bind, wp_state, wp_check]
  split
  case isTrue hready =>
    apply (wp_stop queries).mono _ fun _ h => h.elim
    rintro _ s₁ ⟨hnone, hdevice⟩
    rw [← hdevice, wp_bind, wp_state]
    apply (wp_start hnone size s₁.fps s₁.bitrate env).mono
    · exact fun _ _ hworks => ⟨hready, hworks⟩
    · rintro s' ⟨hfails, hdown⟩
      have hgone : ¬ s'.encoder.isSome := by simp [hdown]
      exact ⟨fun h => hfails h.2, fun hkept => hgone (encodes_iff.mp hkept.2.2.2)⟩
  case isFalse hready =>
    exact ⟨fun h => hready h.1, fun hkept => hready (encodes_iff.mp hkept.2.2.2)⟩

end

end TwinScreen.Host.Amf
