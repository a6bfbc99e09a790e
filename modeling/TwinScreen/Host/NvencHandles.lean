import Mathlib.Tactic.Abel
import TwinScreen.Host.Nvenc
import TwinScreen.Lib.Custody

/-!
# TwinScreen.Host.NvencHandles

What the NVENC encoder gets from Windows and the driver and has to give back: the library,
the session, the resource and the buffer registered with it, and the frames it maps.

* `released_iff` — in which runs all of it is given back and a failed `Start` keeps nothing.
-/

namespace TwinScreen.Host.Nvenc

open Lib Lib.Attempt

/-- What the encoder gets from Windows and the driver, and has to give back. -/
inductive NvHandle
  | library (h : Handle)
  | session (h : Handle)
  | resource (h : Handle)
  | bitstream (h : Handle)
  | mapped (h : Handle)
  deriving DecidableEq

def NvCall.receipt : NvCall → Receipt NvHandle
  | .loadLibrary (some dll) => .acquires (.library dll)
  | .freeLibrary dll => .releases (.library dll)
  | .openSession _ (some session) => .acquires (.session session)
  | .destroyEncoder session => .releases (.session session)
  | .register _ _ _ (some resource) => .acquires (.resource resource)
  | .unregister _ resource => .releases (.resource resource)
  | .createBitstream _ _ (some buffer) => .acquires (.bitstream buffer)
  | .destroyBitstream _ buffer => .releases (.bitstream buffer)
  | .mapInput _ _ (some mapped) => .acquires (.mapped mapped)
  | .unmapInput _ mapped => .releases (.mapped mapped)
  | _ => .neither

/-- In the order in which `Stop` gives them back. -/
def NvEncoder.held (s : NvEncoder) : Multiset NvHandle :=
  carried .resource s.registeredInput + (carried .bitstream s.bitstreamBuffer +
    (carried .session s.encoder + carried .library s.nvencDll))

def custody : Custodian NvEncoder NvInput NvCall NvHandle where
  exec := exec
  receipt := NvCall.receipt
  held := NvEncoder.held
  Tries s
    | .start _ _ _ _ => True
    | .resize _ _ => s.configured = true
    | _ => False

/-! ## in every run -/

/-- A session has its device. -/
def DeviceInv (s : NvEncoder) : Prop := s.encoder.isSome → s.device.isSome

variable {s : NvEncoder}

/-- A library that is loaded already is lost. -/
theorem accounts_start (size : Size) (fps bitrate : UInt32) (env : LoadEnv) :
    Accounts NvCall.receipt NvEncoder.held (start size fps bitrate env)
      (fun _ s' more => more = carried .library s.nvencDll ∧ env.Loads ∧
        s' = { s with
          size, fps, bitrate, keyframeRequested := true, nvencDll := env.dll, api := true })
      (fun s' more => more = carried .library s.nvencDll ∧ ¬ env.Loads ∧
        s' = { s with size, fps, bitrate, keyframeRequested := true, nvencDll := env.dll }) s := by
  intro lost
  have hheld : carried NvHandle.library env.dll + (s.held + lost) =
      { s with nvencDll := env.dll : NvEncoder }.held + (carried .library s.nvencDll + lost) := by
    simp only [NvEncoder.held]
    abel
  cases hdll : env.dll with
  | none =>
      simp_all [start, loadApi, outstanding, NvCall.receipt, NvEncoder.held, LoadEnv.Loads]
  | some dll =>
      simp_all [start, loadApi, outstanding, NvCall.receipt, NvEncoder.held, LoadEnv.Loads]

theorem lossless_stop :
    Lossless NvCall.receipt NvEncoder.held stop
      (fun _ s' => s' = if s.api then { s with
        registeredInput := none
        bitstreamBuffer := none
        encoder := none
        api := false
        nvencDll := none
        configured := false } else s) (fun _ => False) s := by
  intro lost
  rw [stop, seen_bind, seen_state, seen_whenever]
  cases hapi : s.api with
  | false => simp
  | true =>
      -- the handles come off the front of the ledger one by one
      simp only [if_true, NvEncoder.held, add_assoc]
      rw [seen_bind, seen_forSome_release, seen_bind, seen_forSome_release, seen_bind,
        seen_forSome_release, seen_bind, seen_forSome_release]
      · simp
      all_goals exact fun _ => rfl

/-- The library of a run of `Encode`s; a session has its device. -/
structure Loaded (api : Bool) (dll : Option Handle) (s : NvEncoder) : Prop where
  api : s.api = api
  dll : s.nvencDll = dll
  device : DeviceInv s

section

variable {api : Bool} {dll : Option Handle} (h : Loaded api dll s)
include h

theorem lossless_openSession (hdevice : s.device = none) (device : Handle)
    (session : Option Handle) :
    Lossless NvCall.receipt NvEncoder.held (openSession device session)
      (fun _ s' => Loaded api dll s' ∧ s'.registeredInput = s.registeredInput ∧
        s'.bitstreamBuffer = s.bitstreamBuffer) (Loaded api dll) s := by
  have hencoder : s.encoder = none := by
    simpa [DeviceInv, hdevice] using h.device
  intro lost
  cases session with
  | none =>
      simp [openSession, outstanding, NvCall.receipt, NvEncoder.held, hencoder]
      exact ⟨h.api, h.dll, fun _ => rfl⟩
  | some session =>
      simp [openSession, outstanding, NvCall.receipt, NvEncoder.held, hencoder,
        ← Multiset.singleton_add]
      refine ⟨⟨h.api, h.dll, fun _ => rfl⟩, ?_⟩
      abel

theorem lossless_configure (ok : Bool) :
    Lossless NvCall.receipt NvEncoder.held (configure ok)
      (fun _ s' => Loaded api dll s' ∧ s'.registeredInput = s.registeredInput ∧
        s'.bitstreamBuffer = s.bitstreamBuffer) (Loaded api dll) s := by
  apply Wp.lossless
  simp [configure, NvCall.receipt, NvEncoder.held]
  grind [Loaded, DeviceInv]

theorem lossless_registerInput (hnone : s.registeredInput = none) (frame : Frame)
    (resource : Option Handle) :
    Lossless NvCall.receipt NvEncoder.held (registerInput frame resource)
      (fun _ s' => Loaded api dll s' ∧ s'.bitstreamBuffer = s.bitstreamBuffer)
      (Loaded api dll) s := by
  intro lost
  cases resource <;>
    simp [registerInput, outstanding, NvCall.receipt, NvEncoder.held, hnone]
  · exact h
  · exact ⟨h.api, h.dll, h.device⟩

theorem lossless_createBitstream (hnone : s.bitstreamBuffer = none) (buffer : Option Handle) :
    Lossless NvCall.receipt NvEncoder.held (createBitstream buffer) (fun _ => Loaded api dll)
      (Loaded api dll) s := by
  intro lost
  cases buffer <;>
    simp [createBitstream, outstanding, NvCall.receipt, NvEncoder.held, hnone]
  · exact h
  · exact ⟨h.api, h.dll, h.device⟩

/-- The frame that is mapped is unmapped on every way out. -/
theorem lossless_encodeMapped (env : EncodeEnv) :
    Lossless NvCall.receipt NvEncoder.held (encodeMapped env) (fun _ => Loaded api dll)
      (Loaded api dll) s := by
  have hafter : Loaded api dll
      { s with frameIndex := s.frameIndex + 1, keyframeRequested := false } :=
    ⟨h.api, h.dll, h.device⟩
  intro lost
  cases hmap : env.mapInput with
  | none => simp [encodeMapped, hmap, outstanding, NvCall.receipt, h]
  | some mapped =>
      cases hlock : env.lockBitstream <;>
        simp [encodeMapped, hmap, hlock, outstanding, NvCall.receipt, hafter, NvEncoder.held]

theorem lossless_prepare (frame : Frame) (env : EncodeEnv) :
    Lossless NvCall.receipt NvEncoder.held (prepare frame env) (fun _ => Loaded api dll)
      (Loaded api dll) s := by
  apply lossless_state_bind
  apply lossless_bind (lossless_whenever
    (fun hnone => lossless_openSession h (by simpa using hnone) frame.device env.openSession)
    fun _ => ⟨h, rfl, rfl⟩)
  rintro _ s₁ ⟨h₁, hresource, hbuffer⟩
  apply lossless_bind (lossless_whenever (fun _ => lossless_configure h₁ env.initializeEncoder)
    fun _ => ⟨h₁, rfl, rfl⟩)
  rintro _ s₂ ⟨h₂, hresource', hbuffer'⟩
  rw [hresource] at hresource'
  rw [hbuffer] at hbuffer'
  apply lossless_bind (lossless_whenever
    (fun hnone => lossless_registerInput h₂ (by simpa [hresource'] using hnone) frame env.register)
    fun _ => ⟨h₂, rfl⟩)
  rintro _ s₃ ⟨h₃, hbuffer''⟩
  rw [hbuffer'] at hbuffer''
  exact lossless_whenever
    (fun hnone => lossless_createBitstream h₃ (by simpa [hbuffer''] using hnone)
      env.createBitstream) fun _ => h₃

end

/-! ## while each library has its API -/

/-- Without the API there is no library, and nothing that came with it. -/
structure LoadedInv (s : NvEncoder) : Prop where
  device : DeviceInv s
  api : s.api = s.nvencDll.isSome
  encoder : s.api = false → s.encoder = none
  registeredInput : s.api = false → s.registeredInput = none
  bitstreamBuffer : s.api = false → s.bitstreamBuffer = none
  configured : s.api = false → s.configured = false

/-- What an `Encode` or a `SetBitrate` leaves; without the API it does nothing. -/
structure Worked (s s' : NvEncoder) : Prop where
  loaded : Loaded s.api s.nvencDll s'
  idle : s.api = false → s' = s

theorem Worked.loadedInv {s' : NvEncoder} (h : Worked s s') (hs : LoadedInv s) : LoadedInv s' := by
  cases hapi : s.api with
  | false => rwa [h.idle hapi]
  | true =>
      have hapi' : s'.api = true := h.loaded.api.trans hapi
      refine ⟨h.loaded.device, ?_, ?_, ?_, ?_, ?_⟩
      · rw [h.loaded.api, h.loaded.dll, hs.api]
      all_goals simp [hapi']

theorem lossless_encode (h : DeviceInv s) (frame : Frame) (env : EncodeEnv) :
    Lossless NvCall.receipt NvEncoder.held (encode frame env) (fun _ => Worked s) (Worked s) s := by
  have hloaded : Loaded s.api s.nvencDll s := ⟨rfl, rfl, h⟩
  apply lossless_state_bind
  apply lossless_check_bind
  · intro hapi
    have hworked (s' : NvEncoder) (h' : Loaded s.api s.nvencDll s') : Worked s s' :=
      ⟨h', by simp [hapi]⟩
    apply lossless_bind ((lossless_prepare hloaded frame env).mono (fun _ _ h' => h') hworked)
    exact fun _ _ h' => (lossless_encodeMapped h' env).mono (fun _ => hworked) hworked
  · exact fun _ => ⟨hloaded, fun _ => rfl⟩

theorem lossless_setBitrate (h : DeviceInv s) (bitrate : UInt32) (ok : Bool) :
    Lossless NvCall.receipt NvEncoder.held (setBitrate bitrate ok) (fun _ => Worked s) (Worked s)
      s := by
  apply Wp.lossless
  simp [setBitrate, NvCall.receipt, NvEncoder.held]
  grind [Worked, Loaded, DeviceInv]

/-- A library that is loaded has the API. -/
def LoadEnv.NoneOrAll (env : LoadEnv) : Prop := env.dll.isSome → env.Loads

/-- What a `Start` that fails leaves: the library, if there is one. -/
structure StartFails (env : LoadEnv) (s : NvEncoder) : Prop where
  fails : ¬ env.Loads
  held : s.held = carried .library env.dll
  loaded : env.dll = none → LoadedInv s

theorem StartFails.noneOrAll_iff {env : LoadEnv} (h : StartFails env s) :
    env.NoneOrAll ↔ env.dll = none := by
  constructor
  · intro hall
    simpa using fun hsome => h.fails (hall hsome)
  · intro hnone hsome
    simp [hnone] at hsome

/-- `Start` without a library, or after a `Stop`. -/
theorem lossless_start (h : LoadedInv s) (hnone : s.nvencDll = none) (size : Size)
    (fps bitrate : UInt32) (env : LoadEnv) :
    Lossless NvCall.receipt NvEncoder.held (start size fps bitrate env)
      (fun _ s' => LoadedInv s' ∧ env.Loads) (StartFails env) s := by
  have hapi : s.api = false := by
    rw [h.api, hnone]
    rfl
  intro lost
  apply (accounts_start size fps bitrate env lost).mono
  · rintro _ s' g ⟨more, ⟨rfl, hloads, rfl⟩, rfl⟩
    have hafter : (true : Bool) = env.dll.isSome := hloads.1.symm
    exact ⟨⟨⟨h.device, hafter, by simp, by simp, by simp, by simp⟩, hloads⟩, by simp [hnone]⟩
  · rintro s' g ⟨more, ⟨rfl, hfails, rfl⟩, rfl⟩
    refine ⟨⟨hfails, ?_, fun hdll => ?_⟩, by simp [hnone]⟩
    · simp [NvEncoder.held, h.encoder hapi, h.registeredInput hapi, h.bitstreamBuffer hapi]
    · exact ⟨h.device, by simp [hapi, hdll], h.encoder, h.registeredInput, h.bitstreamBuffer,
        h.configured⟩

theorem lossless_stop_loaded (h : LoadedInv s) :
    Lossless NvCall.receipt NvEncoder.held stop
      (fun _ s' => LoadedInv s' ∧ s'.nvencDll = none ∧ s'.held = 0) (fun _ => False) s := by
  apply lossless_stop.mono _ fun _ h => h
  rintro _ s' rfl
  cases hapi : s.api with
  | true =>
      rw [if_pos rfl]
      exact ⟨by constructor <;> simp [DeviceInv], rfl, rfl⟩
  | false =>
      have hdll : s.nvencDll = none := by simpa [hapi] using h.api
      rw [if_neg Bool.false_ne_true]
      refine ⟨h, hdll, ?_⟩
      simp [NvEncoder.held, h.encoder hapi, h.registeredInput hapi, h.bitstreamBuffer hapi, hdll]

/-- A `Resize` is a `Start` of an encoder that has been stopped. -/
theorem lossless_resize (h : LoadedInv s) (size : Size) (env : LoadEnv) :
    Lossless NvCall.receipt NvEncoder.held (resize size env)
      (fun _ s' => LoadedInv s' ∧ env.Loads)
      (fun s' => if s.configured then StartFails env s' else s' = s) s := by
  apply lossless_restart (lossless_stop_loaded h)
  exact fun s₁ h₁ => lossless_start h₁.1 h₁.2.1 size s₁.fps s₁.bitrate env

/-- `Start` finds no library loaded, and a library it loads has the API. -/
def Tidy (s : NvEncoder) : NvInput → Prop
  | .start _ _ _ env => s.nvencDll = none ∧ env.NoneOrAll
  | .resize _ env => s.configured = true → env.NoneOrAll
  | _ => True

theorem accounts_stop_device (h : DeviceInv s) :
    Accounts NvCall.receipt NvEncoder.held stop (fun _ s' _ => DeviceInv s') (fun _ _ => False)
      s := by
  apply lossless_stop.accounts.mono _ fun _ _ h => h.1
  rintro _ s' _ ⟨rfl, -⟩
  split
  · simp [DeviceInv]
  · exact h

theorem accounts_start_device (h : DeviceInv s) (size : Size) (fps bitrate : UInt32)
    (env : LoadEnv) :
    Accounts NvCall.receipt NvEncoder.held (start size fps bitrate env)
      (fun _ s' _ => DeviceInv s') (fun s' _ => DeviceInv s') s := by
  apply (accounts_start size fps bitrate env).mono
  · rintro _ s' _ ⟨-, -, rfl⟩
    exact h
  · rintro s' _ ⟨-, -, rfl⟩
    exact h

theorem accounts_resize_device (h : DeviceInv s) (size : Size) (env : LoadEnv) :
    Accounts NvCall.receipt NvEncoder.held (resize size env)
      (fun _ s' _ => DeviceInv s') (fun s' _ => DeviceInv s') s := by
  apply accounts_restart h (accounts_stop_device h)
  exact fun s₁ h₁ => accounts_start_device h₁ size s₁.fps s₁.bitrate env

/-- The inputs that neither load nor unload a library. -/
def NvInput.Works : NvInput → Prop
  | .encode _ _ | .setBitrate _ _ | .requestKeyframe => True
  | .start _ _ _ _ | .resize _ _ | .stop => False

theorem lossless_exec (h : DeviceInv s) {i : NvInput} (hi : i.Works) :
    Lossless NvCall.receipt NvEncoder.held (exec i)
      (fun _ s' => DeviceInv s' ∧ (LoadedInv s → LoadedInv s'))
      (fun s' => DeviceInv s' ∧ (LoadedInv s → LoadedInv s')) s := by
  have hworked (s' : NvEncoder) (h' : Worked s s') :
      DeviceInv s' ∧ (LoadedInv s → LoadedInv s') := ⟨h'.loaded.device, h'.loadedInv⟩
  cases i with
  | encode frame env =>
      apply lossless_bind ((lossless_encode h frame env).mono (fun _ _ h' => h') hworked)
      exact fun _ s' h' lost => ⟨hworked s' h', rfl⟩
  | setBitrate bitrate ok =>
      exact (lossless_setBitrate h bitrate ok).mono (fun _ => hworked) hworked
  | requestKeyframe =>
      intro lost
      exact ⟨⟨h, fun h' => ⟨h'.1, h'.2, h'.3, h'.4, h'.5, h'.6⟩⟩, rfl⟩
  | _ => exact hi.elim

theorem accounts_exec (h : DeviceInv s) (i : NvInput) :
    Accounts NvCall.receipt NvEncoder.held (exec i) (fun _ s' _ => DeviceInv s')
      (fun s' _ => DeviceInv s') s := by
  by_cases hi : i.Works
  · exact (lossless_exec h hi).accounts.mono (fun _ _ _ h' => h'.1.1) fun _ _ h' => h'.1.1
  · cases i with
    | start size fps bitrate env => exact accounts_start_device h size fps bitrate env
    | resize size env => exact accounts_resize_device h size env
    | stop => exact (accounts_stop_device h).mono (fun _ _ _ h' => h') fun _ _ h' => h'.elim
    | _ => exact absurd trivial hi

/-- A tidy step loses nothing, and a `Start` that fails keeps nothing. -/
theorem lossless_exec_tidy (h : LoadedInv s) {i : NvInput} (hok : Tidy s i) :
    Lossless NvCall.receipt NvEncoder.held (exec i) (fun _ => LoadedInv)
      (fun s' => LoadedInv s' ∧ (custody.Tries s i → s'.held = 0)) s := by
  have hfails {env : LoadEnv} (hall : env.NoneOrAll) {s' : NvEncoder} (h' : StartFails env s') :
      LoadedInv s' ∧ s'.held = 0 := by
    have hnone := h'.noneOrAll_iff.mp hall
    exact ⟨h'.loaded hnone, by rw [h'.held, hnone, carried_none]⟩
  by_cases hi : i.Works
  · apply (lossless_exec h.device hi).mono fun _ _ h' => h'.2 h
    intro s' h'
    refine ⟨h'.2 h, fun htries => ?_⟩
    cases i <;> first | exact htries.elim | exact hi.elim
  · cases i with
    | start size fps bitrate env =>
        apply (lossless_start h hok.1 size fps bitrate env).mono fun _ _ h' => h'.1
        exact fun s' h' => ⟨(hfails hok.2 h').1, fun _ => (hfails hok.2 h').2⟩
    | resize size env =>
        apply (lossless_resize h size env).mono fun _ _ h' => h'.1
        intro s' h'
        split at h'
        case isTrue hconfigured =>
          have hempty := hfails (hok hconfigured) h'
          exact ⟨hempty.1, fun _ => hempty.2⟩
        case isFalse hidle =>
          rw [h']
          exact ⟨h, fun htries => absurd htries hidle⟩
    | stop => exact (lossless_stop_loaded h).mono (fun _ _ h' => h'.1) fun _ h' => h'.elim
    | _ => exact absurd trivial hi

/-- An untidy one loses the library that was loaded, or fails with the one it has loaded. -/
theorem accounts_exec_untidy (h : LoadedInv s) {i : NvInput} (hnot : ¬ Tidy s i) :
    Accounts NvCall.receipt NvEncoder.held (exec i) (fun _ _ more => more ≠ 0)
      (fun s' more => more = 0 → custody.Tries s i ∧ s'.held ≠ 0) s := by
  have hkeeps {env : LoadEnv} (hall : ¬ env.NoneOrAll) {s' : NvEncoder} (h' : StartFails env s') :
      s'.held ≠ 0 := by
    rw [h'.held, ne_eq, carried_eq_zero_iff]
    exact mt h'.noneOrAll_iff.mpr hall
  cases i with
  | start size fps bitrate env =>
      by_cases hdll : s.nvencDll = none
      · have hall : ¬ env.NoneOrAll := fun hall => hnot ⟨hdll, hall⟩
        apply (lossless_start h hdll size fps bitrate env).accounts.mono
        · exact fun _ _ _ h' => absurd (fun _ => h'.1.2) hall
        · exact fun _ _ h' _ => ⟨trivial, hkeeps hall h'.1⟩
      · have hlost : carried NvHandle.library s.nvencDll ≠ 0 := by simpa using hdll
        apply (accounts_start size fps bitrate env).mono
        · rintro _ _ _ ⟨rfl, -⟩
          exact hlost
        · rintro _ _ ⟨rfl, -⟩ hzero
          exact absurd hzero hlost
  | resize size env =>
      obtain ⟨hconfigured, hall⟩ := Classical.not_imp.mp hnot
      apply (lossless_resize h size env).accounts.mono
      · exact fun _ _ _ h' => absurd (fun _ => h'.1.2) hall
      · intro s' _ h' _
        rw [if_pos hconfigured] at h'
        exact ⟨hconfigured, hkeeps hall h'.1⟩
  | _ => exact absurd trivial hnot

theorem rules : custody.Rules .stop DeviceInv LoadedInv Tidy where
  accounts i _ h := accounts_exec h i
  inv _ h := h.device
  keeps _ _ h hok := lossless_exec_tidy h hok
  loses _ _ h hnot := accounts_exec_untidy h hnot
  empties _ h := (lossless_stop_loaded h).mono (fun _ _ h' => h'.2.2) fun _ h' => h'

/-- A second `Stop` does nothing. -/
theorem stop_stop (s : NvEncoder) : stop (stop s).2.1 = (some (), (stop s).2.1, []) := by
  have hidle (t : NvEncoder) (h : t.api = false) : stop t = (some (), t, []) := by
    simp only [stop, bind, state, h]
    rfl
  exact hidle _ (wp_stop_api.mono (fun _ _ h => h) fun _ h => h.elim).inv

/-- **NVENC**: over a run of calls with any outcomes, a `Start` that fails keeps no handle,
and after the destructor's `Stop` all have been given back, none twice, exactly when no
`Start` finds a library, and none loads one that does not give its API. -/
theorem released_iff (inputs : List NvInput) :
    custody.Released .stop (fun _ => True) {} inputs ↔ nvEncoder.Along Tidy {} inputs := by
  have hnothing (s : NvEncoder) (i : NvInput) : custody.FailsInto (fun _ => True) s i ↔ True :=
    iff_true_intro fun _ _ => trivial
  apply (rules.released_iff_along hnothing stop_stop (by constructor <;> simp [DeviceInv])).trans
  exact nvEncoder.along_congr fun _ _ => and_iff_left trivial

end TwinScreen.Host.Nvenc
