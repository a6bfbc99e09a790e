import TwinScreen.Host.Encoder
import TwinScreen.Host.Nal
import TwinScreen.Lib.Attempt
import TwinScreen.Lib.Machine

/-!
# TwinScreen.Host.Nvenc

`host/src/encode/nvenc.cpp`: the NVENC encoder.  Every call into Windows and the
driver is recorded with its arguments, and its outcome is an input.

* `no_null_session_iff` — when no call is issued for a session that is not there.
-/

namespace TwinScreen.Host

open Lib Lib.Attempt

namespace Nvenc

/-! ## state -/

/-- What `Configure` and `SetBitrate` write of `NV_ENC_CONFIG`. -/
structure NvConfig where
  gopLength : UInt32 := 0
  idrPeriod : UInt32 := 0
  averageBitRate : UInt32 := 0
  maxBitRate : UInt32 := 0
  vbvBufferSize : UInt32 := 0
  vbvInitialDelay : UInt32 := 0
  deriving DecidableEq

/-- `NV_ENC_INITIALIZE_PARAMS`; its `encodeConfig` always points to `config_`. -/
structure NvInitParams where
  encodeSize : Size := (0, 0)
  frameRateNum : UInt32 := 0
  deriving DecidableEq

/-- The fields of `NvEncoder`; `api` is `api_ != nullptr`. -/
structure NvEncoder where
  size : Size := (0, 0)
  fps : UInt32 := 30
  bitrate : UInt32 := 0
  keyframeRequested : Bool := true
  nvencDll : Option Handle := none
  device : Option Handle := none
  encoder : Option Handle := none
  api : Bool := false
  registeredInput : Option Handle := none
  bitstreamBuffer : Option Handle := none
  frameIndex : UInt32 := 0
  configured : Bool := false
  initParams : NvInitParams := {}
  config : NvConfig := {}
  deriving DecidableEq

/-- The calls into Windows and the driver, with their arguments and outcomes. -/
inductive NvCall
  | loadLibrary (dll : Option Handle)
  | freeLibrary (dll : Handle)
  | openSession (device : Handle) (session : Option Handle)
  | initializeEncoder (session : Option Handle) (params : NvInitParams) (config : NvConfig) (ok : Bool)
  | register (session : Option Handle) (texture : Texture) (size : Size) (resource : Option Handle)
  | createBitstream (session : Option Handle) (size : UInt32) (buffer : Option Handle)
  | mapInput (session resource mapped : Option Handle)
  | encodePicture (session : Option Handle) (frameIdx : UInt32) (forceIdr ok : Bool)
  | lockBitstream (session buffer : Option Handle) (ok : Bool)
  | unlockBitstream (session buffer : Option Handle)
  | unmapInput (session : Option Handle) (mapped : Handle)
  | reconfigure (session : Option Handle) (params : NvInitParams) (config : NvConfig) (ok : Bool)
  | unregister (session : Option Handle) (resource : Handle)
  | destroyBitstream (session : Option Handle) (buffer : Handle)
  | destroyEncoder (session : Handle)
  deriving DecidableEq

/-- The session a call takes, if it takes one. -/
def NvCall.session : NvCall → Option (Option Handle)
  | .loadLibrary _ | .freeLibrary _ | .openSession _ _ => none
  | .initializeEncoder s _ _ _ | .register s _ _ _ | .createBitstream s _ _ | .mapInput s _ _
  | .encodePicture s _ _ _ | .lockBitstream s _ _ | .unlockBitstream s _ | .unmapInput s _
  | .reconfigure s _ _ _ | .unregister s _ | .destroyBitstream s _ => some s
  | .destroyEncoder s => some (some s)

/-! ## operations -/

/-- The outcomes of `LoadApi`'s calls: the library, whether it has the entry point,
and whether that gives a function list. -/
structure LoadEnv where
  dll : Option Handle
  create : Bool
  list : Bool
  deriving DecidableEq

def loadApi (env : LoadEnv) : Attempt NvEncoder NvCall Unit := do
  update fun s => { s with nvencDll := env.dll }
  issue (.loadLibrary env.dll)
  check env.dll.isSome
  check env.create
  check env.list
  update fun s => { s with api := true }

/-- `OpenSession`; a failing call leaves `encoder_` as it is. -/
def openSession (device : Handle) (session : Option Handle) : Attempt NvEncoder NvCall Unit := do
  update fun s => { s with device := some device }
  issue (.openSession device session)
  let handle ← outcome session
  update fun s => { s with encoder := some handle }

/-- The parameters `Configure` makes. -/
def NvEncoder.makeParams (s : NvEncoder) : NvInitParams where
  encodeSize := s.size
  frameRateNum := s.fps

/-- The rate control fields for a bitrate.  A zero `fps_` traps in C++. -/
def NvConfig.withBitrate (c : NvConfig) (bitrate fps : UInt32) : NvConfig :=
  { c with
    averageBitRate := bitrate
    maxBitRate := bitrate * 12 / 10
    vbvBufferSize := bitrate / fps
    vbvInitialDelay := bitrate / fps }

def configure (ok : Bool) : Attempt NvEncoder NvCall Unit := do
  update fun s => { s with config :=
    { s.config with gopLength := s.fps * 2, idrPeriod := s.fps * 2 }.withBitrate s.bitrate s.fps }
  let s ← state
  issue (.initializeEncoder s.encoder s.makeParams s.config ok)
  check ok
  update fun s => { s with initParams := s.makeParams, configured := true }

def registerInput (frame : Frame) (resource : Option Handle) : Attempt NvEncoder NvCall Unit := do
  let s ← state
  issue (.register s.encoder frame.texture s.size resource)
  let handle ← outcome resource
  update fun s => { s with registeredInput := some handle }

/-- The size asked for by `CreateBitstream`. -/
def NvEncoder.bitstreamSize (s : NvEncoder) : UInt32 :=
  max (s.bitrate / s.fps * 4) (s.size.1 * s.size.2 / 2)

def createBitstream (buffer : Option Handle) : Attempt NvEncoder NvCall Unit := do
  let s ← state
  issue (.createBitstream s.encoder s.bitstreamSize buffer)
  let handle ← outcome buffer
  update fun s => { s with bitstreamBuffer := some handle }

def start (size : Size) (fps bitrate : UInt32) (env : LoadEnv) : Attempt NvEncoder NvCall Unit := do
  update fun s => { s with size, fps, bitrate, keyframeRequested := true }
  loadApi env

/-- `Stop`; without the API it does nothing. -/
def stop : Attempt NvEncoder NvCall Unit := do
  let s ← state
  whenever s.api do
    forSome s.registeredInput fun resource => issue (.unregister s.encoder resource)
    forSome s.bitstreamBuffer fun buffer => issue (.destroyBitstream s.encoder buffer)
    forSome s.encoder fun session => issue (.destroyEncoder session)
    forSome s.nvencDll fun dll => issue (.freeLibrary dll)
    update fun s => { s with
      registeredInput := none
      bitstreamBuffer := none
      encoder := none
      api := false
      nvencDll := none
      configured := false }

/-- What `nvEncLockBitstream` gives: whether the picture is an IDR, and the NALs that the
loop of `Encode` reads in its length-prefixed container. -/
structure NvOutput where
  idr : Bool
  nals : List (List UInt8)
  deriving DecidableEq

/-- The outcomes of `Encode`'s calls. -/
structure EncodeEnv where
  openSession : Option Handle
  initializeEncoder : Bool
  register : Option Handle
  createBitstream : Option Handle
  mapInput : Option Handle
  encodePicture : Bool
  lockBitstream : Option NvOutput
  deriving DecidableEq

/-- The part of `Encode` that sets up what is missing. -/
def prepare (frame : Frame) (env : EncodeEnv) : Attempt NvEncoder NvCall Unit := do
  let s ← state
  whenever s.device.isNone (openSession frame.device env.openSession)
  whenever (!s.configured) (configure env.initializeEncoder)
  whenever s.registeredInput.isNone (registerInput frame env.register)
  whenever s.bitstreamBuffer.isNone (createBitstream env.createBitstream)

/-- The part of `Encode` that submits the frame and takes its output. -/
def encodeMapped (env : EncodeEnv) : Attempt NvEncoder NvCall EncodedFrame := do
  let s ← state
  issue (.mapInput s.encoder s.registeredInput env.mapInput)
  let mapped ← outcome env.mapInput
  update fun s => { s with frameIndex := s.frameIndex + 1, keyframeRequested := false }
  issue (.encodePicture s.encoder s.frameIndex s.keyframeRequested env.encodePicture)
  orCleanUp (check env.encodePicture) (issue (.unmapInput s.encoder mapped))
  issue (.lockBitstream s.encoder s.bitstreamBuffer env.lockBitstream.isSome)
  let output ← orCleanUp (outcome env.lockBitstream) (issue (.unmapInput s.encoder mapped))
  issue (.unlockBitstream s.encoder s.bitstreamBuffer)
  issue (.unmapInput s.encoder mapped)
  check !output.nals.isEmpty
  pure { keyframe := output.idr, codec := 0, nals := output.nals, raw := [] }

def encode (frame : Frame) (env : EncodeEnv) : Attempt NvEncoder NvCall EncodedFrame := do
  let s ← state
  check s.api
  prepare frame env
  encodeMapped env

def setBitrate (bitrate : UInt32) (ok : Bool) : Attempt NvEncoder NvCall Unit := do
  let s ← state
  check (s.configured && s.api)
  update fun s => { s with bitrate, config := s.config.withBitrate bitrate s.fps }
  let s ← state
  issue (.reconfigure s.encoder s.initParams s.config ok)
  check ok

/-- `Resize`: the session is given up before the new one is begun. -/
def resize (size : Size) (env : LoadEnv) : Attempt NvEncoder NvCall Unit := do
  let s ← state
  check s.configured
  stop
  let s ← state
  start size s.fps s.bitrate env

/-! ## runs -/

/-- The calls on an encoder with the outcomes they meet; `stop` is the destructor's. -/
inductive NvInput
  | start (size : Size) (fps bitrate : UInt32) (env : LoadEnv)
  | encode (frame : Frame) (env : EncodeEnv)
  | setBitrate (bitrate : UInt32) (ok : Bool)
  | requestKeyframe
  | resize (size : Size) (env : LoadEnv)
  | stop
  deriving DecidableEq

def exec : NvInput → Attempt NvEncoder NvCall Unit
  | .start size fps bitrate env => start size fps bitrate env
  | .encode frame env => do
      let _ ← encode frame env
  | .setBitrate bitrate ok => setBitrate bitrate ok
  | .requestKeyframe => update fun s => { s with keyframeRequested := true }
  | .resize size env => resize size env
  | .stop => stop

/-- An encoder from its construction on; the outputs are the calls it issues. -/
def nvEncoder : Machine NvEncoder NvInput NvCall where
  step s i := some (exec i s).2

/-! ## sessions -/

/-- A call that takes a session has one. -/
def NvCall.HasSession (c : NvCall) : Prop := c.session ≠ some none

/-- Without a session there is nothing that was made for one. -/
structure SessionInv (s : NvEncoder) : Prop where
  configured : s.configured = true → s.encoder.isSome
  registeredInput : s.registeredInput.isSome → s.encoder.isSome
  bitstreamBuffer : s.bitstreamBuffer.isSome → s.encoder.isSome

/-- An encoder with a session, and what may have been made for it. -/
structure Open (s : NvEncoder) : Prop extends SessionInv s where
  session : s.encoder.isSome

/-- An open session covers whatever is made for it. -/
theorem Open.of_isSome {s : NvEncoder} (h : s.encoder.isSome) : Open s :=
  ⟨⟨fun _ => h, fun _ => h, fun _ => h⟩, h⟩

section

variable {s : NvEncoder}

/-- The operations that open or close a session keep the invariant. -/
theorem wp_start (h : SessionInv s) (size : Size) (fps bitrate : UInt32) (env : LoadEnv) :
    Wp NvCall.HasSession (start size fps bitrate env) (fun _ => SessionInv) SessionInv s := by
  simp [start, loadApi, NvCall.HasSession, NvCall.session]
  grind [SessionInv]

theorem wp_stop (h : SessionInv s) :
    Wp NvCall.HasSession stop (fun _ => SessionInv) SessionInv s := by
  simp [stop, NvCall.HasSession, NvCall.session]
  grind [SessionInv]

theorem wp_resize (h : SessionInv s) (size : Size) (env : LoadEnv) :
    Wp NvCall.HasSession (resize size env) (fun _ => SessionInv) SessionInv s := by
  simp only [resize, wp_bind, wp_state, wp_check]
  split
  · exact (wp_stop h).mono (fun _ s' h' => wp_start h' size s'.fps s'.bitrate env) fun _ h' => h'
  · exact h

theorem wp_openSession (h : SessionInv s) (device : Handle) (session : Option Handle) :
    Wp NvCall.HasSession (openSession device session) (fun _ => Open) SessionInv s := by
  simp [openSession, NvCall.HasSession, NvCall.session]
  grind [SessionInv, Open]

theorem wp_setBitrate (h : SessionInv s) (bitrate : UInt32) (ok : Bool) :
    Wp NvCall.HasSession (setBitrate bitrate ok) (fun _ => SessionInv) SessionInv s := by
  simp [setBitrate, NvCall.HasSession, NvCall.session]
  grind [SessionInv]

section

variable (h : Open s)
include h

/-- The operations on a session keep it. -/
theorem wp_configure (ok : Bool) :
    Wp NvCall.HasSession (configure ok) (fun _ => Open) SessionInv s := by
  simp [configure, NvCall.HasSession, NvCall.session]
  grind [SessionInv, Open]

theorem wp_registerInput (frame : Frame) (resource : Option Handle) :
    Wp NvCall.HasSession (registerInput frame resource) (fun _ => Open) SessionInv s := by
  simp [registerInput, NvCall.HasSession, NvCall.session]
  grind [SessionInv, Open]

theorem wp_createBitstream (buffer : Option Handle) :
    Wp NvCall.HasSession (createBitstream buffer) (fun _ => Open) SessionInv s := by
  simp [createBitstream, NvCall.HasSession, NvCall.session]
  grind [SessionInv, Open]

theorem wp_encodeMapped (env : EncodeEnv) :
    Wp NvCall.HasSession (encodeMapped env) (fun _ => SessionInv) SessionInv s := by
  simp [encodeMapped, NvCall.HasSession, NvCall.session]
  grind [SessionInv, Open]

/-- A step that is taken or left out keeps the session. -/
theorem wp_whenever_open (b : Bool) {x : Attempt NvEncoder NvCall Unit}
    (hx : Wp NvCall.HasSession x (fun _ => Open) SessionInv s) :
    Wp NvCall.HasSession (whenever b x) (fun _ => Open) SessionInv s := by
  rw [wp_whenever]
  split
  · exact hx
  · exact h

end

/-- An `Encode` is not asked to work on a device without a session. -/
def OpensFirst (s : NvEncoder) : Prop :=
  s.api = true → s.device.isSome → s.encoder.isSome

theorem wp_prepare (h : SessionInv s) (hfirst : s.device.isSome → s.encoder.isSome) (frame : Frame)
    (env : EncodeEnv) :
    Wp NvCall.HasSession (prepare frame env) (fun _ => Open) SessionInv s := by
  have hopen : Wp NvCall.HasSession (whenever s.device.isNone (openSession frame.device
      env.openSession)) (fun _ => Open) SessionInv s := by
    rw [wp_whenever]
    split
    · exact wp_openSession h frame.device env.openSession
    · exact Open.of_isSome (hfirst (by simp_all [Option.isSome_iff_ne_none]))
  rw [prepare, wp_bind, wp_state]
  apply wp_bind_of hopen
  intro _ s₁ h₁
  apply wp_bind_of (wp_whenever_open h₁ _ (wp_configure h₁ env.initializeEncoder))
  intro _ s₂ h₂
  apply wp_bind_of (wp_whenever_open h₂ _ (wp_registerInput h₂ frame env.register))
  intro _ s₃ h₃
  exact wp_whenever_open h₃ _ (wp_createBitstream h₃ env.createBitstream)

/-- An `Encode` that opens its session first, or has one, keeps the law. -/
theorem wp_encode (h : SessionInv s) (hfirst : OpensFirst s) (frame : Frame) (env : EncodeEnv) :
    Wp NvCall.HasSession (encode frame env) (fun _ => SessionInv) SessionInv s := by
  simp only [encode, wp_bind, wp_state, wp_check]
  split
  case isTrue hapi =>
    exact (wp_prepare h (hfirst hapi) frame env).mono (fun _ _ h' => wp_encodeMapped h' env)
      fun _ h' => h'
  case isFalse => exact h

/-- An `Encode` that does not open a session first configures an encoder without one. -/
theorem not_hasSession_encode (h : s.configured = false) (hfirst : ¬ OpensFirst s) (frame : Frame)
    (env : EncodeEnv) : ¬ ∀ c ∈ (encode frame env s).2.2, c.HasSession := by
  simp only [OpensFirst, Classical.not_imp, Bool.not_eq_true] at hfirst
  obtain ⟨hapi, hdevice, hencoder⟩ := hfirst
  have hnone : s.device.isNone = false := by simp_all
  rw [Option.isSome_eq_false_iff, Option.isNone_iff_eq_none] at hencoder
  rw [← wp_calls]
  simp [encode, prepare, configure, hapi, hnone, hencoder, h, NvCall.HasSession, NvCall.session]

/-- An `Encode` finds a session, or opens it. -/
def SessionFirst (s : NvEncoder) : NvInput → Prop
  | .encode _ _ => OpensFirst s
  | _ => True

theorem wp_exec (h : SessionInv s) (i : NvInput) (hok : SessionFirst s i) :
    Wp NvCall.HasSession (exec i) (fun _ => SessionInv) SessionInv s := by
  cases i with
  | start size fps bitrate env => exact wp_start h size fps bitrate env
  | encode frame env => simpa [exec] using wp_encode h hok frame env
  | setBitrate bitrate ok => exact wp_setBitrate h bitrate ok
  | requestKeyframe => simpa [exec] using ⟨h.1, h.2, h.3⟩
  | resize size env => exact wp_resize h size env
  | stop => exact wp_stop h

/-- The calls of one input are lawful exactly when its session is there first. -/
theorem exec_hasSession_iff (h : SessionInv s) (i : NvInput) :
    (∀ c ∈ (exec i s).2.2, c.HasSession) ↔ SessionFirst s i := by
  constructor
  · intro hcalls
    cases i with
    | encode frame env =>
        apply Classical.byContradiction
        intro hfirst
        have hconfigured : s.configured = false := by
          grind [SessionInv, SessionFirst, OpensFirst]
        apply not_hasSession_encode hconfigured hfirst frame env
        rw [← wp_calls] at hcalls ⊢
        simpa [exec] using hcalls
    | _ => trivial
  · exact fun hok => (wp_exec h i hok).calls

end

/-- **Sessions**: over a run of calls, with any outcomes, no call that takes a session
is issued without one exactly when no `Encode` finds the API loaded and the device
recorded but no session, as a failed `OpenSession` and every `Resize` of a configured
encoder leave it. -/
theorem no_null_session_iff {inputs : List NvInput} {s : NvEncoder} {calls : List NvCall}
    (hrun : nvEncoder.run {} inputs = some (s, calls)) :
    (∀ c ∈ calls, c.HasSession) ↔ nvEncoder.Along SessionFirst {} inputs := by
  have hentry : SessionInv {} := by constructor <;> simp
  refine nvEncoder.forall_outputs_iff_along (fun s i s' o h hstep => ?_)
    (fun s i s' o h hok hstep => ?_) hentry hrun
  · have hcalls : (exec i s).2.2 = o := congrArg Prod.snd (Option.some.inj hstep)
    rw [← hcalls]
    exact exec_hasSession_iff h i
  · have hstate : (exec i s).2.1 = s' := congrArg Prod.fst (Option.some.inj hstep)
    rw [← hstate]
    exact (wp_exec h i hok).inv

/-! ## a Resize that fails -/

/-- No call of `Encode` fails, and its output has a NAL. -/
structure EncodeEnv.Working (env : EncodeEnv) : Prop where
  openSession : env.openSession.isSome
  initializeEncoder : env.initializeEncoder = true
  register : env.register.isSome
  createBitstream : env.createBitstream.isSome
  mapInput : env.mapInput.isSome
  encodePicture : env.encodePicture = true
  lockBitstream : ∃ output, env.lockBitstream = some output ∧ output.nals ≠ []

/-- The encoder as its callers see it.  An `Encode` yields its frame when all its calls
are made for a session and succeed. -/
def view : EncoderView NvEncoder where
  size := NvEncoder.size
  fps := NvEncoder.fps
  bitrate := NvEncoder.bitrate
  encodes s := ∀ frame env, EncodeEnv.Working env →
    Wp NvCall.HasSession (encode frame env)
      (fun _ s' => s'.configured = true ∧ s'.initParams = s.makeParams) (fun _ => False) s

def LoadEnv.Loads (env : LoadEnv) : Prop := env.dll.isSome ∧ env.create = true ∧ env.list = true

/-- A driver without failures. -/
def workingLoad : LoadEnv := ⟨some 1, true, true⟩

def workingEncode : EncodeEnv :=
  ⟨some 2, true, some 3, some 4, some 5, true, some ⟨true, [[0x65]]⟩⟩

def someFrame : Frame := ⟨⟨0, (1920, 1080)⟩, 7⟩

theorem working_workingEncode : workingEncode.Working := by
  constructor <;> simp [workingEncode]

section

variable {s : NvEncoder}

/-- An encoder without the API yields nothing. -/
theorem not_encodes_of_api (h : s.api = false) : ¬ view.encodes s := by
  intro hencodes
  have hfirst := hencodes someFrame workingEncode working_workingEncode
  simp [encode, h] at hfirst

/-- An encoder that is not configured yet yields a frame exactly when it can still open
a session. -/
theorem encodes_iff (h : s.configured = false) :
    view.encodes s ↔ s.api = true ∧ OpensFirst s := by
  constructor
  · intro hencodes
    have hapi : s.api = true := by
      cases hs : s.api with
      | false => exact absurd hencodes (not_encodes_of_api hs)
      | true => rfl
    refine ⟨hapi, ?_⟩
    apply Classical.byContradiction
    intro hfirst
    exact not_hasSession_encode h hfirst someFrame workingEncode
      (hencodes someFrame workingEncode working_workingEncode).calls
  · rintro ⟨hapi, hfirst⟩ frame env hworking
    obtain ⟨session, hopen⟩ := Option.isSome_iff_exists.mp hworking.openSession
    obtain ⟨resource, hregister⟩ := Option.isSome_iff_exists.mp hworking.register
    obtain ⟨buffer, hcreate⟩ := Option.isSome_iff_exists.mp hworking.createBitstream
    obtain ⟨mapped, hmap⟩ := Option.isSome_iff_exists.mp hworking.mapInput
    obtain ⟨output, hlock, hnals⟩ := hworking.lockBitstream
    -- every outcome is known, so each case is one straight run of the calls
    cases hdevice : s.device with
    | none =>
        simp [encode, prepare, openSession, configure, registerInput, createBitstream, encodeMapped,
          hapi, hdevice, h, hopen, hregister, hcreate, hmap, hlock, hnals,
          hworking.initializeEncoder, hworking.encodePicture, NvCall.HasSession, NvCall.session,
          NvEncoder.makeParams]
    | some device =>
        have hsession : s.encoder ≠ none := by
          have hsome := hfirst hapi (by simp [hdevice])
          exact Option.isSome_iff_ne_none.mp hsome
        simp [encode, prepare, configure, registerInput, createBitstream, encodeMapped, hapi,
          hdevice, h, hsession, hregister, hcreate, hmap, hlock, hnals,
          hworking.initializeEncoder, hworking.encodePicture, NvCall.HasSession, NvCall.session,
          NvEncoder.makeParams]

/-- `Start` after a `Stop` loads the API, or leaves the encoder without one. -/
theorem wp_start_api (h : s.api = false) (size : Size) (fps bitrate : UInt32) (env : LoadEnv) :
    Wp (fun _ => True) (start size fps bitrate env) (fun _ _ => env.Loads)
      (fun s' => ¬ env.Loads ∧ s'.api = false) s := by
  simp [start, loadApi, h]
  grind [LoadEnv.Loads]

theorem wp_stop_api : Wp (fun _ => True) stop (fun _ s' => s'.api = false) (fun _ => False) s := by
  simp [stop]

/-- A `Resize` that fails leaves an encoder that yields frames as before exactly when it
was not configured yet and can still open a session. -/
theorem resize_keeps_iff (size : Size) (env : LoadEnv) :
    ((resize size env s).1 = none → view.Kept s (resize size env s).2.1) ↔
      if s.configured then env.Loads else s.api = true ∧ OpensFirst s := by
  cases hconfigured : s.configured with
  | false =>
      have hsame : resize size env s = (none, s, []) := by
        simp only [resize, bind, state, check, outcome, hconfigured]
        rfl
      simp only [hsame, EncoderView.Kept, true_and, forall_const, Bool.false_eq_true, if_false]
      exact encodes_iff hconfigured
  | true =>
      rw [if_pos rfl]
      apply gaveUp_imp_iff
      rw [resize, wp_bind, wp_state, wp_bind, wp_check, hconfigured, if_pos rfl, wp_bind]
      apply wp_stop_api.mono _ fun _ h => h.elim
      intro _ s₁ h₁
      rw [wp_bind, wp_state]
      apply (wp_start_api h₁ size s₁.fps s₁.bitrate env).mono fun _ _ h => h
      rintro s' ⟨hloads, hapi⟩
      exact ⟨hloads, fun hkept => not_encodes_of_api hapi hkept.2.2.2⟩

end

instance : DecidablePred NvCall.HasSession := fun _ => inferInstanceAs (Decidable (_ ≠ _))

/-- A first `Encode` opens its session. -/
theorem no_null_session_first :
    ∃ s calls, nvEncoder.run {} [.start (1920, 1080) 30 8000000 workingLoad,
        .encode someFrame workingEncode] = some (s, calls) ∧
      ((∀ c ∈ calls, c.HasSession) ↔ nvEncoder.Along SessionFirst {}
        [.start (1920, 1080) 30 8000000 workingLoad, .encode someFrame workingEncode]) :=
  ⟨_, _, rfl, no_null_session_iff rfl⟩

/-- The `Encode` after a failed `OpenSession`, and the one after a `Resize` that
succeeded, configure an encoder without a session. -/
theorem null_session_configured :
    (∃ s calls, nvEncoder.run {} [.start (1920, 1080) 30 8000000 workingLoad,
        .encode someFrame { workingEncode with openSession := none },
        .encode someFrame workingEncode] = some (s, calls) ∧ ¬ ∀ c ∈ calls, c.HasSession) ∧
      ∃ s calls, nvEncoder.run {} [.start (1920, 1080) 30 8000000 workingLoad,
        .encode someFrame workingEncode, .resize (1440, 810) workingLoad,
        .encode someFrame workingEncode] = some (s, calls) ∧ ¬ ∀ c ∈ calls, c.HasSession :=
  ⟨⟨_, _, rfl, by decide⟩, _, _, rfl, by decide⟩

end Nvenc

end TwinScreen.Host
