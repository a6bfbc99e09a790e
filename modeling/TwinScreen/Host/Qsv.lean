import TwinScreen.Host.Color
import TwinScreen.Host.Encoder
import TwinScreen.Host.Nal
import TwinScreen.Lib.Attempt
import TwinScreen.Lib.Machine

/-!
# TwinScreen.Host.Qsv

`host/src/encode/qsv.cpp`: the Quick Sync encoder.  As for NVENC, the calls into
Windows, D3D and the runtime are recorded and their outcomes are inputs.
-/

namespace TwinScreen.Host.Qsv

open Lib Lib.Attempt

/-! ## state -/

/-- What the encoder sets of `mfxVideoParam`. -/
structure MfxParam where
  targetKbps : UInt16 := 0
  maxKbps : UInt16 := 0
  bufferSizeInKB : UInt16 := 0
  gopPicSize : UInt16 := 0
  width : UInt16 := 0
  height : UInt16 := 0
  cropW : UInt16 := 0
  cropH : UInt16 := 0
  frameRateExtN : UInt16 := 0
  deriving DecidableEq

/-- The fields of `QsvEncoder`.  Of a function pointer it is known whether it is set,
of a buffer how many bytes it has, of the staging texture its size. -/
structure QsvEncoder where
  qsvDll : Option Handle := none
  session : Option Handle := none
  configured : Bool := false
  mfxInitEx : Bool := false
  mfxClose : Bool := false
  encInit : Bool := false
  encReset : Bool := false
  encClose : Bool := false
  encFrame : Bool := false
  syncOp : Bool := false
  size : Size := (0, 0)
  fps : UInt32 := 30
  bitrate : UInt32 := 0
  encSize : Size := (0, 0)
  keyframeRequested : Bool := true
  device : Option Handle := none
  ctx : Bool := false
  staging : Option Size := none
  nv12 : Nat := 0
  bs : Nat := 0
  param : MfxParam := {}
  userParam : MfxParam := {}
  deriving DecidableEq

/-- The statuses the code tells apart. -/
inductive MfxStatus
  | errNone
  | errMoreData
  | wrnInExecution
  | wrnIncompatibleVideoParam
  | other
  deriving DecidableEq

/-- The calls with their arguments and outcomes. -/
inductive QsvCall
  | loadLibrary (name : String) (dll : Option Handle)
  | freeLibrary (dll : Handle)
  | initEx (major : Nat) (session : Option Handle)
  | close (session : Handle)
  | encodeInit (session : Option Handle) (param : MfxParam) (status : MfxStatus)
  | encodeReset (session : Option Handle) (param : MfxParam) (status : MfxStatus)
  | encodeClose (session : Handle)
  | createStaging (size : Size) (ok : Bool)
  | copyResource (dst : Option Size) (src : Texture)
  | map (staging : Option Size) (rowPitch : Option Nat)
  | bgraToNv12 (rowPitch : Nat) (nv12Pitch : UInt32) (size : Size)
  | encodeFrame (session : Option Handle) (forceIdr : Bool) (status : MfxStatus)
  | syncOperation (session : Option Handle) (status : MfxStatus)
  deriving DecidableEq

/-! ## the runtime -/

/-- A runtime library: its handle, and which of the exports it has. -/
structure Runtime where
  dll : Option Handle
  initEx : Bool
  close : Bool
  encInit : Bool
  encClose : Bool
  encFrame : Bool
  syncOp : Bool
  encReset : Bool
  deriving DecidableEq

/-- The required exports. -/
def Runtime.complete (r : Runtime) : Bool :=
  r.initEx && r.close && r.encInit && r.encClose && r.encFrame && r.syncOp

/-- The chain of `Resolve` calls: each stores what it finds, and the first that finds
nothing is the last. -/
def QsvEncoder.resolve (s : QsvEncoder) (r : Runtime) : QsvEncoder :=
  { s with
    mfxInitEx := r.initEx
    mfxClose := if r.initEx then r.close else s.mfxClose
    encInit := if r.initEx && r.close then r.encInit else s.encInit
    encClose := if r.initEx && r.close && r.encInit then r.encClose else s.encClose
    encFrame := if r.initEx && r.close && r.encInit && r.encClose then r.encFrame else s.encFrame
    syncOp :=
      if r.initEx && r.close && r.encInit && r.encClose && r.encFrame then r.syncOp else s.syncOp }

def kCandidates : List String := ["libmfxhw64.dll", "libmfx64.dll", "vpl.dll"]

/-- The loop of `LoadRuntime` over the candidates that are left. -/
def loadFrom (runtime : String → Runtime) : List String → Attempt QsvEncoder QsvCall Unit
  | [] => check false
  | name :: names => do
      let r := runtime name
      issue (.loadLibrary name r.dll)
      match r.dll with
      | none => loadFrom runtime names
      | some dll =>
          update fun s => s.resolve r
          if r.complete then
            update fun s => { s with encReset := r.encReset, qsvDll := some dll }
          else
            issue (.freeLibrary dll)
            loadFrom runtime names

def loadRuntime (runtime : String → Runtime) : Attempt QsvEncoder QsvCall Unit :=
  loadFrom runtime kCandidates

def unloadRuntime : Attempt QsvEncoder QsvCall Unit := do
  let s ← state
  forSome s.qsvDll fun dll => issue (.freeLibrary dll)
  update fun s => { s with
    qsvDll := none
    mfxInitEx := false
    mfxClose := false
    encInit := false
    encReset := false
    encClose := false
    encFrame := false
    syncOp := false }

/-! ## sessions -/

/-- `InitSession`: version 1.0, and then 0.0 for the runtimes that reject it. -/
def initSession (first second : Option Handle) : Attempt QsvEncoder QsvCall Unit := do
  issue (.initEx 1 first)
  whenever first.isNone (issue (.initEx 0 second))
  update fun s => { s with session := first.or second }
  check (first.or second).isSome

/-- The rate control fields for a bitrate. -/
def MfxParam.withBitrate (p : MfxParam) (bitrate fps : UInt32) : MfxParam :=
  { p with
    targetKbps := (bitrate / 1000).toUInt16
    maxKbps := (bitrate * 12 / 10 / 1000).toUInt16
    bufferSizeInKB := (max 1 (bitrate / fps / 1000)).toUInt16 }

/-- The parameters `Configure` makes. -/
def QsvEncoder.makeParam (s : QsvEncoder) : MfxParam :=
  { gopPicSize := (s.fps * 2).toUInt16
    width := s.encSize.1.toUInt16
    height := s.encSize.2.toUInt16
    cropW := s.size.1.toUInt16
    cropH := s.size.2.toUInt16
    frameRateExtN := s.fps.toUInt16 : MfxParam }.withBitrate s.bitrate s.fps

/-- Bytes of the bitstream buffer. -/
def bsBytes (bitrate fps : UInt32) (encSize : Size) : Nat :=
  max (bitrate.toNat / fps.toNat * 4) (encSize.1.toNat * encSize.2.toNat / 2)

/-! ## Configure -/

/-- The outcomes of `Configure`'s calls: of `MFXVideoENCODE_Init`, and of the two
allocations. -/
structure ConfigureEnv where
  encodeInit : MfxStatus
  nv12 : Bool
  bs : Bool
  deriving DecidableEq

/-- The statuses with which `Configure` goes on. -/
def MfxStatus.initialized (st : MfxStatus) : Bool :=
  st == .errNone || st == .wrnIncompatibleVideoParam

def configure (env : ConfigureEnv) : Attempt QsvEncoder QsvCall Unit := do
  update fun s => { s with encSize := (encSide s.size.1, encSide s.size.2) }
  let s ← state
  issue (.encodeInit s.session s.makeParam env.encodeInit)
  check env.encodeInit.initialized
  update fun s => { s with userParam := s.makeParam, param := s.makeParam, configured := true }
  update fun s => { s with nv12 := allocated (nv12Bytes s.encSize) env.nv12 }
  check (allocated (nv12Bytes s.encSize) env.nv12 != 0)
  update fun s => { s with bs := allocated (bsBytes s.bitrate s.fps s.encSize) env.bs }
  check (allocated (bsBytes s.bitrate s.fps s.encSize) env.bs != 0)

/-! ## Start and Stop -/

def stop : Attempt QsvEncoder QsvCall Unit := do
  let s ← state
  whenever s.encClose (forSome s.session fun session => issue (.encodeClose session))
  whenever s.mfxClose (forSome s.session fun session => issue (.close session))
  update fun s => { s with session := none, configured := false }
  unloadRuntime

/-- The outcomes of `Start`'s calls. -/
structure StartEnv where
  runtime : String → Runtime
  initEx : Option Handle
  initExRetry : Option Handle
  configure : ConfigureEnv

def start (size : Size) (fps bitrate : UInt32) (env : StartEnv) :
    Attempt QsvEncoder QsvCall Unit := do
  update fun s => { s with size, fps := fpsOr30 fps, bitrate, keyframeRequested := true }
  loadRuntime env.runtime
  orCleanUp (initSession env.initEx env.initExRetry) unloadRuntime
  orCleanUp (configure env.configure) stop

/-! ## Encode -/

/-- The fields and calls of `CopyFrameToNv12`. -/
def copyCalls : CopyCalls QsvEncoder QsvCall where
  getDevice device s := if s.device.isNone then { s with device := some device, ctx := true } else s
  staging := QsvEncoder.staging
  setStaging size s := { s with staging := some size }
  createStaging := .createStaging
  copyResource := .copyResource
  map := .map
  bgraToNv12 rowPitch s := .bgraToNv12 rowPitch s.encSize.1 s.size
  staging_getDevice device s := by split <;> rfl
  staging_setStaging size s := rfl

/-- A copy changes the device, its context and the staging texture alone. -/
theorem keep_copyCalls {δ : Type} {v : QsvEncoder → δ}
    (hv : ∀ s device ctx staging, v { s with device, ctx, staging } = v s) : copyCalls.Keep v where
  getDevice device s := by
    simp only [copyCalls]
    split
    · exact hv s (some device) true s.staging
    · rfl
  setStaging size s := hv s s.device s.ctx (some size)

/-- `CopyFrameToNv12`. -/
def copyFrameToNv12 (frame : Frame) (env : CopyEnv) : Attempt QsvEncoder QsvCall Unit :=
  copyCalls.copyFrameToNv12 frame env

/-- The outcomes of `Encode`'s calls: the status of `EncodeFrameAsync`, whether it
gives a sync point, the status of `SyncOperation`, and the bytes in the bitstream. -/
structure EncodeEnv where
  copy : CopyEnv
  encodeFrame : MfxStatus
  syncPoint : Bool
  syncOperation : MfxStatus
  output : List UInt8
  deriving DecidableEq

def encode (frame : Frame) (env : EncodeEnv) : Attempt QsvEncoder QsvCall EncodedFrame := do
  let s ← state
  check (s.session.isSome && s.configured)
  copyFrameToNv12 frame env.copy
  update fun s => { s with keyframeRequested := false }
  issue (.encodeFrame s.session s.keyframeRequested env.encodeFrame)
  check (env.encodeFrame == .errNone || env.encodeFrame == .wrnInExecution)
  whenever env.syncPoint do
    issue (.syncOperation s.session env.syncOperation)
    check (env.syncOperation == .errNone)
  check !env.output.isEmpty
  check !(frameOf env.output).nals.isEmpty
  pure (frameOf env.output)

/-! ## Resize and SetBitrate -/

/-- `Resize`: the session is given up before the new one is begun. -/
def resize (size : Size) (env : StartEnv) : Attempt QsvEncoder QsvCall Unit := do
  let s ← state
  check (s.session.isSome && s.configured)
  stop
  let s ← state
  start size s.fps s.bitrate env

def setBitrate (bitrate : UInt32) (status : MfxStatus) : Attempt QsvEncoder QsvCall Unit := do
  let s ← state
  check (s.session.isSome && s.configured && s.encReset)
  let par := s.userParam.withBitrate bitrate s.fps
  issue (.encodeReset s.session par status)
  check (status == .errNone)
  update fun s => { s with param := par, bitrate }

/-! ## runs -/

/-- The calls on an encoder with the outcomes they meet; `stop` is the destructor's. -/
inductive QsvInput
  | start (size : Size) (fps bitrate : UInt32) (env : StartEnv)
  | encode (frame : Frame) (env : EncodeEnv)
  | setBitrate (bitrate : UInt32) (status : MfxStatus)
  | requestKeyframe
  | resize (size : Size) (env : StartEnv)
  | stop

def exec : QsvInput → Attempt QsvEncoder QsvCall Unit
  | .start size fps bitrate env => start size fps bitrate env
  | .encode frame env => do
      let _ ← encode frame env
  | .setBitrate bitrate status => setBitrate bitrate status
  | .requestKeyframe => update fun s => { s with keyframeRequested := true }
  | .resize size env => resize size env
  | .stop => stop

/-- An encoder from its construction on; the outputs are the calls it issues. -/
def qsvEncoder : Machine QsvEncoder QsvInput QsvCall where
  step s i := some (exec i s).2

/-! ## a Resize that fails -/

/-- No call of `Encode` fails, and its output has a NAL. -/
structure EncodeEnv.Working (env : EncodeEnv) : Prop where
  createStaging : env.copy.createStaging = true
  map : env.copy.map.isSome
  encodeFrame : env.encodeFrame = .errNone
  syncOperation : env.syncOperation = .errNone
  output : (frameOf env.output).nals ≠ []

/-- The encoder as its callers see it. -/
def view : EncoderView QsvEncoder where
  size := QsvEncoder.size
  fps := QsvEncoder.fps
  bitrate := QsvEncoder.bitrate
  encodes s := ∀ frame env, EncodeEnv.Working env →
    Wp (fun _ => True) (encode frame env) (fun _ s' => s'.configured = true) (fun _ => False) s

/-- A candidate that is found and has the required exports. -/
def Runtime.usable (r : Runtime) : Prop := r.dll.isSome ∧ r.complete = true

/-- One of the candidates is usable. -/
def Loadable (runtime : String → Runtime) (names : List String) : Prop :=
  ∃ name ∈ names, (runtime name).usable

/-- No step of `Start` fails for these parameters: one candidate is usable, one of the
two `MFXInitEx` gives a session, the parameters are taken, and both buffers are got. -/
structure StartEnv.Works (env : StartEnv) (size : Size) (fps bitrate : UInt32) : Prop where
  runtime : Loadable env.runtime kCandidates
  initEx : (env.initEx.or env.initExRetry).isSome
  encodeInit : env.configure.encodeInit.initialized = true
  nv12 : allocated (nv12Bytes (encSide size.1, encSide size.2)) env.configure.nv12 ≠ 0
  bs : allocated (bsBytes bitrate (fpsOr30 fps) (encSide size.1, encSide size.2))
    env.configure.bs ≠ 0

section

variable {s : QsvEncoder}

theorem loadable_cons (runtime : String → Runtime) (name : String) (names : List String) :
    Loadable runtime (name :: names) ↔ (runtime name).usable ∨ Loadable runtime names := by
  simp [Loadable]

/-- The candidates are tried in order; only the runtime changes, whatever comes of it. -/
theorem wp_loadFrom (runtime : String → Runtime) (names : List String) :
    Wp (fun _ => True) (loadFrom runtime names)
      (fun _ s' => Loadable runtime names ∧ s'.size = s.size ∧ s'.fps = s.fps ∧
        s'.bitrate = s.bitrate ∧ s'.nv12 = s.nv12 ∧ s'.bs = s.bs)
      (fun s' => ¬ Loadable runtime names ∧ s'.session = s.session ∧ s'.nv12 = s.nv12 ∧
        s'.bs = s.bs) s := by
  induction names generalizing s with
  | nil => simp [loadFrom, Loadable]
  | cons name names ih =>
      simp only [loadFrom, wp_bind, wp_issue, true_and, loadable_cons]
      cases hdll : (runtime name).dll with
      | none =>
          have hnot : ¬ (runtime name).usable := by simp [Runtime.usable, hdll]
          simp only [hnot, false_or]
          exact ih
      | some dll =>
          simp only [wp_bind, wp_update]
          by_cases hcomplete : (runtime name).complete = true
          · have husable : (runtime name).usable := ⟨by simp [hdll], hcomplete⟩
            simp [hcomplete, husable, QsvEncoder.resolve]
          · have hnot : ¬ (runtime name).usable := fun husable => hcomplete husable.2
            rw [if_neg hcomplete, wp_bind, wp_issue]
            simp only [hnot, false_or]
            exact ⟨trivial, ih⟩

theorem wp_stop : Wp (fun _ => True) stop
    (fun _ s' => s'.session = none ∧ s'.fps = s.fps ∧ s'.bitrate = s.bitrate)
    (fun _ => False) s := by
  simp [stop, unloadRuntime]

/-- `Start` after a `Stop` works, or leaves the encoder without a session. -/
theorem wp_start (h : s.session = none) (size : Size) (fps bitrate : UInt32) (env : StartEnv) :
    Wp (fun _ => True) (start size fps bitrate env) (fun _ _ => env.Works size fps bitrate)
      (fun s' => ¬ env.Works size fps bitrate ∧ s'.session = none) s := by
  simp only [start, wp_bind, wp_update]
  apply (wp_loadFrom env.runtime kCandidates).mono
  · rintro _ s₁ ⟨hruntime, hsize, hfps, hbitrate, -, -⟩
    dsimp only at hsize hfps hbitrate
    simp [initSession, configure, unloadRuntime, stop, hsize, hfps, hbitrate]
    grind [StartEnv.Works, Option.isSome_iff_ne_none]
  · rintro s₁ ⟨hruntime, hsession, -, -⟩
    exact ⟨fun hworks => hruntime hworks.runtime, hsession.trans h⟩

/-- Outcomes of a working `Encode`: an access unit of one IDR slice. -/
def workingEncode : EncodeEnv := ⟨⟨true, some 7680⟩, .errNone, true, .errNone, [0, 0, 1, 0x65]⟩

theorem working_workingEncode : workingEncode.Working := by
  constructor <;> decide

/-- An encoder yields frames exactly when it has a session and is configured. -/
theorem encodes_iff : view.encodes s ↔ s.session.isSome ∧ s.configured = true := by
  constructor
  · intro hencodes
    have hfirst := hencodes ⟨⟨0, (1920, 1080)⟩, 7⟩ workingEncode working_workingEncode
    simp [encode] at hfirst
    grind
  · rintro ⟨hsession, hconfigured⟩ frame env hworking
    obtain ⟨rowPitch, hmap⟩ := Option.isSome_iff_exists.mp hworking.map
    have houtput : env.output ≠ [] := by
      intro hempty
      apply hworking.output
      rw [hempty]
      decide
    simp [encode, copyFrameToNv12, CopyCalls.copyFrameToNv12, copyCalls, hsession, hconfigured,
      hmap, houtput, hworking.createStaging, hworking.encodeFrame, hworking.syncOperation,
      hworking.output]
    split <;> simp [hconfigured]

/-- A `Resize` never fails and leaves an encoder that yields frames: it has none to
start with, or has given its session up. -/
theorem resize_keeps_iff (size : Size) (env : StartEnv) :
    ((resize size env s).1 = none → view.Kept s (resize size env s).2.1) ↔
      s.session.isSome ∧ s.configured = true ∧ env.Works size s.fps s.bitrate := by
  apply gaveUp_imp_iff
  simp only [resize, wp_bind, wp_state, wp_check, Bool.and_eq_true]
  split
  case isTrue hready =>
    apply wp_stop.mono _ fun _ h => h.elim
    rintro _ s₁ ⟨hsession, hfps, hbitrate⟩
    rw [← hfps, ← hbitrate, wp_bind, wp_state]
    apply (wp_start hsession size s₁.fps s₁.bitrate env).mono
    · exact fun _ _ hworks => ⟨hready.1, hready.2, hworks⟩
    · rintro s' ⟨hfails, hnone⟩
      have hdown : ¬ (s'.session.isSome ∧ s'.configured = true) := by simp [hnone]
      exact ⟨fun h => hfails h.2.2, fun hkept => hdown (encodes_iff.mp hkept.2.2.2)⟩
  case isFalse hready =>
    exact ⟨fun h => hready ⟨h.1, h.2.1⟩, fun hkept => hready (encodes_iff.mp hkept.2.2.2)⟩

end

end TwinScreen.Host.Qsv
