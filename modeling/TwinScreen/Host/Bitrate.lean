import TwinScreen.Host.RateControl
import TwinScreen.Host.Setup

/-!
# TwinScreen.Host.Bitrate

`SetBitrate` of the hardware encoders: what a refused bitrate leaves behind, and the
bitrate that the encoder runs at.

* `rates_kept_iff` — in which runs a refused bitrate leaves nothing behind.
-/

namespace TwinScreen.Host

open Lib Lib.Attempt

/-! ## NVENC -/

namespace Nvenc

/-- The configuration that the driver works with. -/
def applied (config : Option NvConfig) : NvCall → Option NvConfig
  | .initializeEncoder _ _ taken true | .reconfigure _ _ taken true => some taken
  | .destroyEncoder _ => none
  | _ => config

def NvInput.call : NvInput → EncoderCall
  | .start _ _ bitrate _ => .start bitrate
  | .setBitrate bitrate _ => .setBitrate bitrate
  | .resize _ _ => .resize
  | .stop => .stop
  | .encode _ _ | .requestKeyframe => .other

/-- The next `Encode` configures the driver for the bitrate, or it has been. -/
structure RunsAt (s : NvEncoder) (driver : Option NvConfig) (b : UInt32) : Prop where
  bitrate : s.bitrate = b
  applied : s.configured = true → driver = some s.config
  config : s.configured = true → s.config.withBitrate b s.fps = s.config

/-- `config_` is what `init_params_` points to. -/
def rateControl : RateControl NvEncoder NvInput NvCall (Option NvConfig)
    (UInt32 × NvConfig × Option NvConfig) where
  exec := exec
  call := NvInput.call
  observe := applied
  rates s driver := (s.bitrate, s.config, driver)
  Idle s := s.configured = false
  RunsAt := RunsAt

/-- A refused `SetBitrate` of a configured encoder asks for the rates it has. -/
def Harmless (p : Rated NvEncoder (Option NvConfig)) : NvInput → Prop
  | .setBitrate bitrate ok => p.encoder.configured = true → p.encoder.api = true → ok = false →
      p.encoder.bitrate = bitrate ∧
        p.encoder.config.withBitrate bitrate p.encoder.fps = p.encoder.config
  | _ => True

section

variable {s : NvEncoder} {driver : Option NvConfig} {bitrate : UInt32}

theorem keepsRefused_iff (p : Rated NvEncoder (Option NvConfig)) (i : NvInput) :
    rateControl.KeepsRefused p i ↔ Harmless p i := by
  cases i with
  | setBitrate bitrate ok =>
      rw [RateControl.keepsRefused_iff rfl]
      cases ok <;> simp [rateControl, exec, setBitrate, applied, Harmless]
      grind
  | _ =>
      refine iff_of_true (RateControl.keepsRefused_of_call ?_) trivial
      simp [rateControl, NvInput.call]

theorem runsAt_of_idle (h : s.configured = false) (hbitrate : s.bitrate = bitrate) :
    RunsAt s driver bitrate :=
  ⟨hbitrate, by simp [h], by simp [h]⟩

theorem runsAt_start (h : s.configured = false) (size : Size) (fps : UInt32) (env : LoadEnv) :
    Seen applied (start size fps bitrate env) (fun _ s' driver' => RunsAt s' driver' bitrate)
      (fun _ _ => True) s driver := by
  have hidle {s' : NvEncoder} {driver' : Option NvConfig} :
      s'.configured = false → s'.bitrate = bitrate → RunsAt s' driver' bitrate := runsAt_of_idle
  simp [start, loadApi]
  grind

section

variable (h : RunsAt s driver bitrate)
include h

theorem runsAt_configure (hidle : s.configured = false) (ok : Bool) :
    Seen applied (configure ok) (fun _ s' driver' => RunsAt s' driver' bitrate)
      (fun s' driver' => RunsAt s' driver' bitrate) s driver := by
  cases ok <;> simp [configure, applied]
  · exact runsAt_of_idle hidle h.bitrate
  · exact ⟨h.bitrate, fun _ => rfl, fun _ => by rw [← h.bitrate]; rfl⟩

theorem runsAt_prepare (frame : Frame) (env : EncodeEnv) :
    Seen applied (prepare frame env) (fun _ s' driver' => RunsAt s' driver' bitrate)
      (fun s' driver' => RunsAt s' driver' bitrate) s driver := by
  have hopen : Seen applied (whenever s.device.isNone (openSession frame.device env.openSession))
      (fun _ s' driver' => s'.configured = s.configured ∧ RunsAt s' driver' bitrate)
      (fun s' driver' => RunsAt s' driver' bitrate) s driver := by
    simp [openSession, applied]
    grind [RunsAt]
  rw [prepare, seen_bind, seen_state]
  apply seen_bind_of hopen
  rintro _ s₁ driver₁ ⟨hsame, h₁⟩
  have hconfigure : Seen applied (whenever (!s.configured) (configure env.initializeEncoder))
      (fun _ s' driver' => RunsAt s' driver' bitrate) (fun s' driver' => RunsAt s' driver' bitrate)
      s₁ driver₁ := by
    rw [seen_whenever]
    split
    case isTrue hnot =>
      exact runsAt_configure h₁ (by simpa [hsame] using hnot) env.initializeEncoder
    case isFalse => exact h₁
  apply seen_bind_of hconfigure
  intro _ s₂ driver₂ h₂
  simp [registerInput, createBitstream, applied]
  grind [RunsAt]

theorem runsAt_encodeMapped (env : EncodeEnv) :
    Seen applied (encodeMapped env) (fun _ s' driver' => RunsAt s' driver' bitrate)
      (fun s' driver' => RunsAt s' driver' bitrate) s driver := by
  simp [encodeMapped, applied]
  grind [RunsAt]

theorem runsAt_encode (frame : Frame) (env : EncodeEnv) :
    Seen applied (encode frame env) (fun _ s' driver' => RunsAt s' driver' bitrate)
      (fun s' driver' => RunsAt s' driver' bitrate) s driver := by
  simp only [encode, seen_bind, seen_state, seen_check]
  split
  · apply (runsAt_prepare h frame env).mono
    · exact fun _ _ _ h' => runsAt_encodeMapped h' env
    · exact fun _ _ h' => h'
  · exact h

/-- `Resize` gives up the configuration, and begins again with the bitrate recorded. -/
theorem runsAt_stop :
    Seen applied stop (fun _ s' driver' => RunsAt s' driver' bitrate) (fun _ _ => False)
      s driver := by
  cases hapi : s.api with
  | false => simpa [stop, hapi] using h
  | true =>
      have hdown : Wp (fun _ => True) stop
          (fun _ s' => s'.configured = false ∧ s'.bitrate = s.bitrate) (fun _ => False) s := by
        simp [stop, hapi]
      apply (hdown.unseen driver).mono
      · exact fun _ _ _ h' => runsAt_of_idle h'.1 (h'.2.trans h.bitrate)
      · exact fun _ _ h' => h'

theorem runsAt_restart (size : Size) (env : LoadEnv) :
    Seen applied (start size s.fps s.bitrate env) (fun _ s' driver' => RunsAt s' driver' bitrate)
      (fun _ _ => True) s driver := by
  simp [start, loadApi, applied]
  grind [RunsAt]

theorem runsAt_resize (size : Size) (env : LoadEnv) :
    Seen applied (resize size env) (fun _ s' driver' => RunsAt s' driver' bitrate)
      (fun _ _ => True) s driver := by
  rw [resize, seen_bind, seen_state, seen_bind, seen_check]
  split
  · apply seen_bind_of_total (runsAt_stop h)
    intro _ s₁ driver₁ h₁
    rw [seen_bind, seen_state]
    exact runsAt_restart h₁ size env
  · trivial

/-- A bitrate that is refused is recorded all the same. -/
theorem runsAt_setBitrate_iff (asked : UInt32) (ok : Bool) :
    Seen applied (setBitrate asked ok) (fun _ s' driver' => RunsAt s' driver' asked)
        (fun s' driver' => RunsAt s' driver' bitrate) s driver ↔
      (s.configured = true → s.api = true → ok = false →
        s.bitrate = asked ∧ s.config.withBitrate asked s.fps = s.config) := by
  simp only [setBitrate, seen_bind, seen_state, seen_check, Bool.and_eq_true]
  split
  case isTrue hready =>
    cases ok with
    | true =>
        simp only [seen_bind, seen_update, seen_state, seen_issue, seen_check, if_true, applied]
        exact iff_of_true ⟨rfl, fun _ => rfl, fun _ => rfl⟩ (by simp)
    | false =>
        simp only [seen_bind, seen_update, seen_state, seen_issue, seen_check, applied,
          Bool.false_eq_true, if_false, hready, forall_const]
        constructor
        · intro hruns
          have hasked : asked = bitrate := hruns.bitrate
          rw [hasked]
          exact ⟨h.bitrate, h.config hready.1⟩
        · rintro ⟨hbitrate, hconfig⟩
          refine ⟨hbitrate.symm.trans h.bitrate, fun _ => ?_, fun _ => ?_⟩
          · exact (h.applied hready.1).trans (congrArg some hconfig.symm)
          · rw [← h.bitrate, hbitrate]
            rfl
  case isFalse hready =>
    exact iff_of_true h fun hconfigured hapi => absurd ⟨hconfigured, hapi⟩ hready

end

end

theorem runsAtGranted_of_starts {p : Rated NvEncoder (Option NvConfig)} {i : NvInput}
    (h : rateControl.Starts p i) : rateControl.RunsAtGranted (rateControl.next p i) := by
  obtain ⟨⟨bitrate, hcall⟩, hidle, hreturns⟩ := h
  cases i with
  | start size fps bitrate env =>
      exact RateControl.runsAtGranted_of_returns hreturns (runsAt_start hidle size fps env)
  | _ => simp [rateControl, NvInput.call] at hcall

theorem runsAtGranted_next_iff {p : Rated NvEncoder (Option NvConfig)} {i : NvInput}
    (h : rateControl.RunsAtGranted p) (hgoes : rateControl.GoesOn p i) :
    rateControl.RunsAtGranted (rateControl.next p i) ↔ Harmless p i := by
  cases i with
  | start size fps bitrate env => exact hgoes.elim
  | stop => exact hgoes.elim
  | setBitrate asked ok =>
      rw [RateControl.runsAtGranted_next_iff]
      exact runsAt_setBitrate_iff h asked ok
  | encode frame env =>
      refine iff_of_true (RateControl.runsAtGranted_next_iff.mpr ?_) trivial
      exact (seen_bind _ _).mpr (runsAt_encode h frame env)
  | requestKeyframe => exact iff_of_true ⟨h.bitrate, h.applied, h.config⟩ trivial
  | resize size env =>
      refine iff_of_true ?_ trivial
      exact RateControl.runsAtGranted_of_returns hgoes (runsAt_resize h size env)

end Nvenc

/-! ## AMF -/

namespace Amf

def AmfInput.call : AmfInput → EncoderCall
  | .start _ _ bitrate _ => .start bitrate
  | .setBitrate bitrate _ _ => .setBitrate bitrate
  | .resize _ _ _ => .resize
  | .stop _ => .stop
  | .setD3D11Device _ | .encode _ _ | .requestKeyframe => .other

/-- The bitrate recorded, and the two properties that the component holds. -/
def AmfEncoder.rates (s : AmfEncoder) : UInt32 × Option Nat × Option Nat :=
  (s.bitrate, s.targetBitrate, s.peakBitrate)

/-- The component's share of the rates is part of the state. -/
def rateControl : RateControl AmfEncoder AmfInput AmfCall Unit (UInt32 × Option Nat × Option Nat)
    where
  exec := exec
  call := AmfInput.call
  observe _ _ := ()
  rates s _ := s.rates
  Idle s := s.encoder = none ∧ s.targetBitrate = none ∧ s.peakBitrate = none
  RunsAt s _ bitrate := s.rates = (bitrate, some bitrate.toNat, some (bitrate.toNat * 12 / 10))

/-- Where the peak rate is refused, the target rate asked for is the one held. -/
def Harmless (p : Rated AmfEncoder Unit) : AmfInput → Prop
  | .setBitrate bitrate target peak => p.encoder.encoder.isSome → target = true → peak = false →
      p.encoder.targetBitrate = some bitrate.toNat
  | _ => True

/-- The component takes both rates for the bitrate. -/
structure StartEnv.TakesRate (env : StartEnv) (bitrate : UInt32) : Prop where
  target : env.property (.targetBitrate bitrate.toNat) = true
  peak : env.property (.peakBitrate (bitrate.toNat * 12 / 10)) = true

/-- A component that is made takes the rates it is given. -/
def RatesTaken (p : Rated AmfEncoder Unit) : AmfInput → Prop
  | .start _ _ bitrate env => env.TakesRate bitrate
  | .resize _ _ env => env.TakesRate p.encoder.bitrate
  | _ => True

/-! ### operations that leave the rates alone -/

theorem keepsRates_fillPool (env : StartEnv) (indices : List Nat) :
    Keeps (fun _ => True) AmfEncoder.rates (fillPool env indices) :=
  (setup_fillPool (fun _ _ _ => rfl) env indices).weaken fun _ _ => trivial

theorem keepsRates_createComponent (device : Handle) (env : StartEnv) :
    Keeps (fun _ => True) AmfEncoder.rates (createComponent device env) :=
  (setup_createComponent (fun _ _ _ _ => rfl) device env).weaken fun _ _ => trivial

theorem keepsRates_loadRuntime (dll : Option Handle) (exported : Bool) :
    Keeps (fun _ => True) AmfEncoder.rates (loadRuntime dll exported) :=
  (setup_loadRuntime (fun _ _ _ => rfl) dll exported).weaken fun _ _ => trivial

theorem keepsRates_encode (frame : Frame) (env : EncodeEnv) :
    Keeps (fun _ => True) AmfEncoder.rates (encode frame env) :=
  (keeps_encode (fun _ _ _ _ _ _ => rfl) frame env).weaken fun _ _ => trivial

/-! ### operations that set them -/

theorem wp_stop_rates (s : AmfEncoder) (queries : List QueryResult) :
    Wp (fun _ => True) (stop queries) (fun _ s' => s'.rates = (s.bitrate, none, none))
      (fun _ => False) s := by
  simp [stop, AmfEncoder.rates]
  split <;> trivial

theorem wp_setProperties_rates (s : AmfEncoder) (taken : AmfProperty → Bool) :
    Wp (fun _ => True) (setProperties taken s.properties)
      (fun _ s' => s'.rates = (s.bitrate,
        if taken (.targetBitrate s.bitrate.toNat) then some s.bitrate.toNat else s.targetBitrate,
        if taken (.peakBitrate (s.bitrate.toNat * 12 / 10)) then
          some (s.bitrate.toNat * 12 / 10) else s.peakBitrate))
      (fun _ => False) s := by
  simp [AmfEncoder.properties, setProperties, setProperty, AmfEncoder.apply, AmfEncoder.rates]
  grind

/-- A component that held no rate ends up with those of the bitrate when it takes both. -/
theorem wp_configure_rates {s : AmfEncoder} {bitrate : UInt32}
    (h : s.rates = (bitrate, none, none)) (env : StartEnv) :
    Wp (fun _ => True) (configure env)
      (fun _ s' => s'.rates = (bitrate, some bitrate.toNat, some (bitrate.toNat * 12 / 10)) ↔
        env.TakesRate bitrate) (fun _ => True) s := by
  simp only [AmfEncoder.rates, Prod.mk.injEq] at h
  obtain ⟨hbitrate, htarget, hpeak⟩ := h
  rw [configure, wp_bind, wp_state]
  apply wp_bind_of ((wp_setProperties_rates s env.property).mono (fun _ _ h => h) fun _ h => h.elim)
  intro _ s₁ h₁
  have hrest : Keeps (fun _ => True) AmfEncoder.rates (do
      issue (.initComponent s.encoder s.encSize env.initComponent)
      check env.initComponent
      update fun t => { t with nv12 := allocated (nv12Bytes s.encSize) env.nv12 }
      check (allocated (nv12Bytes s.encSize) env.nv12 != 0)
      fillPool env (List.range kSurfacePool)) :=
    (keeps_issue trivial).bind fun _ => (keeps_check _).bind fun _ =>
      Keeps.bind (by simp [AmfEncoder.rates]) fun _ => (keeps_check _).bind fun _ =>
        keepsRates_fillPool env _
  apply (hrest s₁).mono
  · intro _ s₂ h₂
    rw [h₂, h₁, hbitrate, htarget, hpeak]
    constructor
    · intro hrates
      simp only [Prod.mk.injEq, true_and] at hrates
      exact ⟨by grind, by grind⟩
    · rintro ⟨hfirst, hsecond⟩
      rw [if_pos hfirst, if_pos hsecond]
  · exact fun _ _ => trivial

/-- `Start` of an idle encoder. -/
theorem wp_start_rates {s : AmfEncoder} (htarget : s.targetBitrate = none)
    (hpeak : s.peakBitrate = none) (size : Size) (fps bitrate : UInt32) (env : StartEnv) :
    Wp (fun _ => True) (start size fps bitrate env)
      (fun _ s' => s'.rates = (bitrate, some bitrate.toNat, some (bitrate.toNat * 12 / 10)) ↔
        env.TakesRate bitrate) (fun _ => True) s := by
  simp only [start, wp_bind, wp_update, wp_state, wp_outcome]
  split
  · trivial
  · next device hdevice =>
      apply (keepsRates_loadRuntime env.dll env.exported _).mono _ fun _ _ => trivial
      intro _ s₁ h₁
      rw [wp_orCleanUp, build, wp_bind]
      apply (keepsRates_createComponent device env s₁).mono
      · intro _ s₂ h₂
        have hrates : s₂.rates = (bitrate, none, none) := by
          rw [h₂, h₁]
          simp [AmfEncoder.rates, htarget, hpeak]
        apply (wp_configure_rates hrates env).mono (fun _ _ h => h)
        exact fun s₃ _ => wp_calls.mpr fun _ _ => trivial
      · exact fun s₂ _ => wp_calls.mpr fun _ _ => trivial

theorem wp_resize_rates (s : AmfEncoder) (size : Size) (queries : List QueryResult)
    (env : StartEnv) :
    Wp (fun _ => True) (resize size queries env)
      (fun _ s' => s'.rates = (s.bitrate, some s.bitrate.toNat, some (s.bitrate.toNat * 12 / 10)) ↔
        env.TakesRate s.bitrate) (fun _ => True) s := by
  simp only [resize, wp_bind, wp_state, wp_check]
  split
  · apply (wp_stop_rates s queries).mono _ fun _ h => h.elim
    intro _ s₁ h₁
    simp only [AmfEncoder.rates, Prod.mk.injEq] at h₁
    rw [wp_bind, wp_state, h₁.1]
    exact wp_start_rates h₁.2.1 h₁.2.2 size s₁.fps s.bitrate env
  · trivial

/-! ### calls -/

theorem keepsRefused_iff (p : Rated AmfEncoder Unit) (i : AmfInput) :
    rateControl.KeepsRefused p i ↔ Harmless p i := by
  cases i with
  | setBitrate bitrate target peak =>
      rw [RateControl.keepsRefused_iff rfl]
      cases target <;> cases peak <;>
        simp [rateControl, exec, setBitrate, setProperty, AmfEncoder.apply, AmfEncoder.rates,
          Harmless]
      grind
  | _ =>
      refine iff_of_true (RateControl.keepsRefused_of_call ?_) trivial
      simp [rateControl, AmfInput.call]

theorem runsAtGranted_of_starts {p : Rated AmfEncoder Unit} {i : AmfInput}
    (h : rateControl.Starts p i) :
    rateControl.RunsAtGranted (rateControl.next p i) ↔ RatesTaken p i := by
  obtain ⟨⟨bitrate, hcall⟩, ⟨-, htarget, hpeak⟩, hreturns⟩ := h
  cases i with
  | start size fps asked env =>
      apply RateControl.runsAtGranted_iff_of_returns hreturns
      exact (wp_start_rates htarget hpeak size fps asked env).unseen p.driver
  | _ => simp [rateControl, AmfInput.call] at hcall

theorem runsAtGranted_next_iff {p : Rated AmfEncoder Unit} {i : AmfInput}
    (h : rateControl.RunsAtGranted p) (hgoes : rateControl.GoesOn p i) :
    rateControl.RunsAtGranted (rateControl.next p i) ↔ Harmless p i ∧ RatesTaken p i := by
  cases i with
  | start size fps bitrate env => exact hgoes.elim
  | stop queries => exact hgoes.elim
  | setBitrate asked target peak =>
      rw [RateControl.runsAtGranted_next_iff]
      simp only [RateControl.RunsAtGranted, rateControl, AmfEncoder.rates, Prod.mk.injEq] at h
      cases target <;> cases peak <;>
        simp [rateControl, exec, setBitrate, setProperty, AmfEncoder.apply, AmfEncoder.rates,
          Harmless, RatesTaken, AmfInput.call, EncoderCall.bitrate, h]
      grind
  | encode frame env =>
      refine iff_of_true (RateControl.runsAtGranted_next_iff.mpr ?_) ⟨trivial, trivial⟩
      apply (seen_bind _ _).mpr
      apply ((keepsRates_encode frame env p.encoder).unseen p.driver).mono
      · exact fun _ _ _ hsame => hsame.trans h
      · exact fun _ _ hsame => hsame.trans h
  | requestKeyframe => exact iff_of_true h ⟨trivial, trivial⟩
  | setD3D11Device device => exact iff_of_true h ⟨trivial, trivial⟩
  | resize size queries env =>
      rw [show Harmless p (.resize size queries env) = True from rfl, true_and]
      apply RateControl.runsAtGranted_iff_of_returns hgoes
      have hbitrate : p.encoder.bitrate = p.granted := congrArg Prod.fst h
      have hresize := wp_resize_rates p.encoder size queries env
      rw [hbitrate] at hresize
      rw [RatesTaken, hbitrate]
      exact hresize.unseen p.driver

end Amf

/-! ## Quick Sync -/

namespace Qsv

def QsvInput.call : QsvInput → EncoderCall
  | .start _ _ bitrate _ => .start bitrate
  | .setBitrate bitrate _ => .setBitrate bitrate
  | .resize _ _ => .resize
  | .stop => .stop
  | .encode _ _ | .requestKeyframe => .other

section

-- whether `MFXVideoENCODE_Reset` goes over to the new parameters, by the status it returns
variable (reset : MfxStatus → Bool)

/-- The parameters that the runtime works with. -/
def applied (param : Option MfxParam) : QsvCall → Option MfxParam
  | .encodeInit _ taken status => if status.initialized then some taken else param
  | .encodeReset _ taken status => if reset status then some taken else param
  | .encodeClose _ => none
  | _ => param

/-- The runtime works with `param_`, which has the rates for the bitrate. -/
structure RunsAt (s : QsvEncoder) (driver : Option MfxParam) (b : UInt32) : Prop where
  bitrate : s.bitrate = b
  applied : driver = some s.param
  param : s.param.withBitrate b s.fps = s.param

def rateControl : RateControl QsvEncoder QsvInput QsvCall (Option MfxParam)
    (UInt32 × MfxParam × MfxParam × Option MfxParam) where
  exec := exec
  call := QsvInput.call
  observe := applied reset
  rates s driver := (s.bitrate, s.userParam, s.param, driver)
  Idle s := s.session = none
  RunsAt := RunsAt

/-- A `Reset` that returns something else than `MFX_ERR_NONE` has not gone over to
parameters that the runtime did not have. -/
def Harmless (p : Rated QsvEncoder (Option MfxParam)) : QsvInput → Prop
  | .setBitrate bitrate status =>
      p.encoder.session.isSome → p.encoder.configured = true → p.encoder.encReset = true →
        status ≠ .errNone → reset status = true →
          p.driver = some (p.encoder.userParam.withBitrate bitrate p.encoder.fps)
  | _ => True

variable {reset} {s : QsvEncoder} {driver : Option MfxParam} {bitrate : UInt32}

theorem keepsRefused_iff (p : Rated QsvEncoder (Option MfxParam)) (i : QsvInput) :
    (rateControl reset).KeepsRefused p i ↔ Harmless reset p i := by
  cases i with
  | setBitrate bitrate status =>
      rw [RateControl.keepsRefused_iff rfl]
      simp [rateControl, exec, setBitrate, applied, Harmless]
      grind
  | _ =>
      refine iff_of_true (RateControl.keepsRefused_of_call ?_) trivial
      simp [rateControl, QsvInput.call]

/-- `Configure` gives the runtime the parameters for the bitrate recorded. -/
theorem runsAt_configure (env : ConfigureEnv) :
    Seen (applied reset) (configure env) (fun _ s' driver' => RunsAt s' driver' s.bitrate)
      (fun _ _ => True) s driver := by
  have hrate (t : QsvEncoder) : t.makeParam.withBitrate t.bitrate t.fps = t.makeParam := rfl
  simp [configure, applied]
  grind [RunsAt]

theorem runsAt_start (size : Size) (fps : UInt32) (env : StartEnv) :
    Seen (applied reset) (start size fps bitrate env)
      (fun _ s' driver' => RunsAt s' driver' bitrate) (fun _ _ => True) s driver := by
  rw [start, seen_bind, seen_update]
  apply seen_bind_of (((wp_loadFrom env.runtime kCandidates).unseen driver).mono
    (fun _ _ _ h => h) fun _ _ _ => trivial)
  rintro _ s₁ driver₁ ⟨-, -, -, hbitrate, -, -⟩
  have hsession : Seen (applied reset)
      (orCleanUp (initSession env.initEx env.initExRetry) unloadRuntime)
      (fun _ s' _ => s'.bitrate = bitrate) (fun _ _ => True) s₁ driver₁ := by
    simp [initSession, unloadRuntime, hbitrate]
    intro _ _
    split <;> trivial
  apply seen_bind_of hsession
  intro _ s₂ driver₂ h₂
  rw [seen_orCleanUp, ← h₂]
  apply (runsAt_configure env.configure).mono (fun _ _ _ h => h)
  exact fun s₃ driver₃ _ => seen_both.mpr trivial

theorem runsAt_resize (size : Size) (env : StartEnv) :
    Seen (applied reset) (resize size env) (fun _ s' driver' => RunsAt s' driver' s.bitrate)
      (fun _ _ => True) s driver := by
  rw [resize, seen_bind, seen_state, seen_bind, seen_check]
  split
  · apply seen_bind_of_total (wp_stop.unseen driver)
    rintro _ s₁ driver₁ ⟨-, -, hbitrate⟩
    rw [seen_bind, seen_state, ← hbitrate]
    exact runsAt_start size s₁.fps env
  · trivial

/-- An `Encode` leaves the rates alone. -/
theorem runsAt_encode (h : RunsAt s driver bitrate) (frame : Frame) (env : EncodeEnv) :
    Seen (applied reset) (encode frame env) (fun _ s' driver' => RunsAt s' driver' bitrate)
      (fun s' driver' => RunsAt s' driver' bitrate) s driver := by
  have hkeeps : Wp (fun c => ∀ param, applied reset param c = param) (encode frame env)
      (fun _ s' => (s'.bitrate, s'.param, s'.fps) = (s.bitrate, s.param, s.fps))
      (fun s' => (s'.bitrate, s'.param, s'.fps) = (s.bitrate, s.param, s.fps)) s := by
    simp [encode, copyFrameToNv12, CopyCalls.copyFrameToNv12, copyCalls, applied]
    grind
  have hsame {s' : QsvEncoder}
      (hs' : (s'.bitrate, s'.param, s'.fps) = (s.bitrate, s.param, s.fps)) :
      RunsAt s' driver bitrate := by
    simp only [Prod.mk.injEq] at hs'
    obtain ⟨hbitrate, hparam, hfps⟩ := hs'
    refine ⟨hbitrate.trans h.bitrate, ?_, ?_⟩
    · rw [hparam]
      exact h.applied
    · rw [hparam, hfps]
      exact h.param
  apply (hkeeps.seen (fun _ hc => hc) driver).mono
  · rintro _ s' _ ⟨hs', rfl⟩
    exact hsame hs'
  · rintro s' _ ⟨hs', rfl⟩
    exact hsame hs'

theorem runsAt_setBitrate_iff (hreset : reset .errNone = true) (h : RunsAt s driver bitrate)
    (asked : UInt32) (status : MfxStatus) :
    Seen (applied reset) (setBitrate asked status) (fun _ s' driver' => RunsAt s' driver' asked)
        (fun s' driver' => RunsAt s' driver' bitrate) s driver ↔
      (s.session.isSome → s.configured = true → s.encReset = true → status ≠ .errNone →
        reset status = true → driver = some (s.userParam.withBitrate asked s.fps)) := by
  simp only [setBitrate, seen_bind, seen_state, seen_check, seen_issue, seen_update,
    Bool.and_eq_true, beq_iff_eq, applied]
  split
  case isTrue hready =>
    obtain ⟨⟨hsession, hconfigured⟩, hencReset⟩ := hready
    by_cases hstatus : status = .errNone
    · rw [if_pos hstatus]
      exact iff_of_true ⟨rfl, by simp [hstatus, hreset], rfl⟩ fun _ _ _ hnot => absurd hstatus hnot
    · rw [if_neg hstatus]
      cases htaken : reset status with
      | false => simpa using h
      | true =>
          simp only [hsession, hconfigured, hencReset, hstatus, if_true, forall_const,
            not_false_eq_true, ne_eq]
          constructor
          · intro hruns
            exact h.applied.trans hruns.applied.symm
          · intro hheld
            exact ⟨h.bitrate, hheld.symm.trans h.applied, h.param⟩
  case isFalse hready => exact iff_of_true h (by grind)

theorem runsAtGranted_of_starts {p : Rated QsvEncoder (Option MfxParam)} {i : QsvInput}
    (h : (rateControl reset).Starts p i) :
    (rateControl reset).RunsAtGranted ((rateControl reset).next p i) := by
  obtain ⟨⟨bitrate, hcall⟩, hidle, hreturns⟩ := h
  cases i with
  | start size fps bitrate env =>
      exact RateControl.runsAtGranted_of_returns hreturns (runsAt_start size fps env)
  | _ => simp [rateControl, QsvInput.call] at hcall

theorem runsAtGranted_next_iff (hreset : reset .errNone = true)
    {p : Rated QsvEncoder (Option MfxParam)} {i : QsvInput}
    (h : (rateControl reset).RunsAtGranted p) (hgoes : (rateControl reset).GoesOn p i) :
    (rateControl reset).RunsAtGranted ((rateControl reset).next p i) ↔ Harmless reset p i := by
  cases i with
  | start size fps bitrate env => exact hgoes.elim
  | stop => exact hgoes.elim
  | setBitrate asked status =>
      rw [RateControl.runsAtGranted_next_iff]
      exact runsAt_setBitrate_iff hreset h asked status
  | encode frame env =>
      refine iff_of_true (RateControl.runsAtGranted_next_iff.mpr ?_) trivial
      exact (seen_bind _ _).mpr (runsAt_encode h frame env)
  | requestKeyframe => exact iff_of_true ⟨h.bitrate, h.applied, h.param⟩ trivial
  | resize size env =>
      have hbitrate : p.encoder.bitrate = p.granted := h.bitrate
      have hresize := @runsAt_resize reset p.encoder p.driver size env
      rw [hbitrate] at hresize
      exact iff_of_true (RateControl.runsAtGranted_of_returns hgoes hresize) trivial

end

end Qsv

/-! ## the hardware encoders -/

/-- **Bitrates**: over a run of calls from any state, a refused `SetBitrate` changes no
rate, and a session runs at the bitrate granted last, exactly when NVENC is refused no
`Reconfigure` to other rates than it has, the AMF component refuses no peak rate after a
new target rate and takes both rates when it is made, and no Quick Sync runtime goes over
to new parameters with another status than `MFX_ERR_NONE`. -/
theorem rates_kept_iff {reset : Qsv.MfxStatus → Bool} (hreset : reset .errNone = true) :
    (∀ p is, Nvenc.rateControl.Law p is ↔ Nvenc.rateControl.machine.Along Nvenc.Harmless p is) ∧
      (∀ p is, Amf.rateControl.Law p is ↔ Amf.rateControl.machine.Along Amf.Harmless p is ∧
        (Amf.rateControl.Session p is → Amf.rateControl.machine.Along Amf.RatesTaken p is)) ∧
      ∀ p is, (Qsv.rateControl reset).Law p is ↔
        (Qsv.rateControl reset).machine.Along (Qsv.Harmless reset) p is := by
  refine ⟨?_, ?_, ?_⟩
  · exact RateControl.law_iff_along Nvenc.keepsRefused_iff
      (fun _ _ => Nvenc.runsAtGranted_of_starts) fun _ _ => Nvenc.runsAtGranted_next_iff
  · exact RateControl.law_iff Amf.keepsRefused_iff
      (fun _ _ => Amf.runsAtGranted_of_starts) fun _ _ => Amf.runsAtGranted_next_iff
  · exact RateControl.law_iff_along Qsv.keepsRefused_iff
      (fun _ _ => Qsv.runsAtGranted_of_starts) fun _ _ => Qsv.runsAtGranted_next_iff hreset

/-- A `SetBitrate` on each encoder, and what the driver answers. -/
def nvencRequest (ok : Bool) : List Nvenc.NvInput :=
  [.start (1920, 1080) 30 8000000 Nvenc.workingLoad, .encode Nvenc.someFrame Nvenc.workingEncode,
    .setBitrate 4000000 ok, .resize (1440, 810) Nvenc.workingLoad]

def amfRequest (peak : Bool) : List Amf.AmfInput :=
  [.start (1920, 1080) 30 8000000 Amf.workingStart, .setBitrate 4000000 true peak,
    .resize (1440, 810) [] Amf.workingStart]

def qsvRequest (status : Qsv.MfxStatus) : List Qsv.QsvInput :=
  [.start (1920, 1080) 30 8000000 Qsv.workingStart, .setBitrate 4000000 status,
    .resize (1440, 810) Qsv.workingStart]

example : Nvenc.rateControl.Session ⟨{}, none, 0⟩ (nvencRequest true) ∧
    Amf.rateControl.Session ⟨{ device := some 7 }, (), 0⟩ (amfRequest true) := by
  constructor
  · refine ⟨⟨⟨_, rfl⟩, rfl, rfl⟩, ?_⟩
    simp only [RateControl.machine, Machine.along_reporting_cons]
    exact ⟨trivial, trivial, rfl, trivial⟩
  · refine ⟨⟨⟨_, rfl⟩, ⟨rfl, rfl, rfl⟩, rfl⟩, ?_⟩
    simp only [RateControl.machine, Machine.along_reporting_cons]
    exact ⟨trivial, rfl, trivial⟩

theorem rates_kept_iff_granted :
    Nvenc.rateControl.Law ⟨{}, none, 0⟩ (nvencRequest true) ∧
      Amf.rateControl.Law ⟨{ device := some 7 }, (), 0⟩ (amfRequest true) ∧
      (Qsv.rateControl Qsv.MfxStatus.initialized).Law ⟨{}, none, 0⟩ (qsvRequest .other) := by
  have hlaws := @rates_kept_iff Qsv.MfxStatus.initialized rfl
  refine ⟨(hlaws.1 _ _).mpr ?_, (hlaws.2.1 _ _).mpr ?_, (hlaws.2.2 _ _).mpr ?_⟩
  · simp [nvencRequest, RateControl.machine, Nvenc.Harmless]
  · have htakes (bitrate : UInt32) : Amf.workingStart.TakesRate bitrate := ⟨rfl, rfl⟩
    refine ⟨by simp [amfRequest, RateControl.machine, Amf.Harmless], fun _ => ?_⟩
    simp [amfRequest, RateControl.machine, Amf.RatesTaken, htakes]
  · simp [qsvRequest, RateControl.machine, Qsv.Harmless, Qsv.MfxStatus.initialized]

/-- A bitrate that NVENC refuses is recorded all the same; one whose peak rate the AMF
component refuses is its target rate from then on. -/
theorem refused_bitrate_kept :
    ¬ (∀ is, Nvenc.rateControl.Law ⟨{}, none, 0⟩ is) ∧
      ¬ ∀ is, Amf.rateControl.Law ⟨{ device := some 7 }, (), 0⟩ is := by
  constructor
  · intro hclaim
    have hkeeps := (hclaim (nvencRequest false)).1
    simp only [nvencRequest, RateControl.machine, Machine.along_reporting_cons] at hkeeps
    exact absurd (hkeeps.2.2.1 4000000 rfl rfl) (by decide)
  · intro hclaim
    have hkeeps := (hclaim (amfRequest false)).1
    simp only [amfRequest, RateControl.machine, Machine.along_reporting_cons] at hkeeps
    exact absurd (hkeeps.2.1 4000000 rfl rfl) (by decide)

end TwinScreen.Host
