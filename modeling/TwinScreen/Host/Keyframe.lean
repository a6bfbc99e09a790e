import TwinScreen.Host.Setup

/-!
# TwinScreen.Host.Keyframe

The keyframe request of the hardware encoders: `RequestKeyframe` sets
`keyframe_requested_`, and each `Encode` clears it on its way to the submission of the
picture that is to be the IDR.

* `requests_kept_iff` — which runs never lose a request.
-/

namespace TwinScreen.Host

open Lib Lib.Attempt

/-! ## steps -/

/-- A picture handed to an encoder: whether it was to be an IDR, and whether it was
accepted. -/
structure Submission where
  forced : Bool
  accepted : Bool
  deriving DecidableEq

/-- What an observer of the calls knows: whether the next picture was made an IDR by a
property, and the pictures so far. -/
structure Submitted where
  idr : Bool := false
  pictures : List Submission := []
  deriving DecidableEq

def Submitted.picture (g : Submitted) (forced accepted : Bool) : Submitted :=
  { g with pictures := g.pictures ++ [⟨forced, accepted⟩] }

/-- A step of an encoder: `keyframe_requested_` before and after it, and the pictures
it submits. -/
structure RequestStep where
  isEncode : Bool
  before : Bool
  submissions : List Submission
  after : Bool
  deriving DecidableEq

/-- A pending request forces every picture that is submitted, and stays until one that
it forced is accepted; an `Encode` without an accepted picture leaves it as it was. -/
structure RequestStep.Kept (k : RequestStep) : Prop where
  forces : k.before = true → ∀ x ∈ k.submissions, x.forced = true
  stays : k.before = true →
    k.after = true ∨ ∃ x ∈ k.submissions, x.forced = true ∧ x.accepted = true
  failed : k.isEncode = true → (∀ x ∈ k.submissions, x.accepted = false) → k.after = k.before

/-- An encoder as far as requests go. -/
structure Requests (σ ι κ : Type) where
  exec : ι → Attempt σ κ Unit
  isEncode : ι → Bool
  pending : σ → Bool
  observe : Submitted → κ → Submitted

namespace Requests

variable {σ ι κ : Type} (r : Requests σ ι κ)

def stepOf (s : σ) (i : ι) : RequestStep where
  isEncode := r.isEncode i
  before := r.pending s
  submissions := ((r.exec i s).2.2.foldl r.observe {}).pictures
  after := r.pending (r.exec i s).2.1

/-- The runs of the encoder, with what each step does about the request as output. -/
def encoder : Machine σ ι RequestStep := .reporting (fun s i => (r.exec i s).2.1) r.stepOf

variable {r}

/-- Exactness over runs from exactness of a step. -/
theorem kept_iff_along {ok : σ → ι → Prop} (h : ∀ s i, (r.stepOf s i).Kept ↔ ok s i) {s s' : σ}
    {is : List ι} {tr : List RequestStep} (hrun : r.encoder.run s is = some (s', tr)) :
    (∀ k ∈ tr, k.Kept) ↔ r.encoder.Along ok s is :=
  Machine.reports_iff_along (fun s i _ => h s i) (r.encoder.along_true s is) hrun

/-- A step that submits nothing and takes no request back. -/
theorem kept_of_setup {law : κ → Prop} {s : σ} {i : ι} (hi : r.isEncode i = false)
    (hobs : ∀ k, law k → ∀ g, r.observe g k = g)
    (h : Wp law (r.exec i) (fun _ s' => r.pending s = true → r.pending s' = true)
      (fun s' => r.pending s = true → r.pending s' = true) s) : (r.stepOf s i).Kept := by
  obtain ⟨hafter, hnone⟩ := seen_both.mp (h.seen hobs {})
  constructor
  · simp [stepOf, hnone]
  · exact fun hbefore => .inl (hafter hbefore)
  · simp [stepOf, hi]

/-- What an `Encode` leaves of the request: where it comes to submit, it has cleared it,
`forced` tells of all its pictures whether they were to be IDRs, and `accepted` whether
one of them was accepted. -/
def Encoded (r : Requests σ ι κ) (s : σ) (submits : Prop) (forced : Bool) (accepted : Prop) (s' : σ)
    (g : Submitted) : Prop :=
  (submits ∧ r.pending s' = false ∧ (∀ x ∈ g.pictures, x.forced = forced) ∧
      ((∃ x ∈ g.pictures, x.accepted = true) ↔ accepted)) ∨
    (¬ submits ∧ r.pending s' = r.pending s ∧ g.pictures = [])

/-- An `Encode` that is so keeps a pending request exactly when it does not come to submit, or an
IDR is accepted. -/
theorem kept_iff_of_encoded {s : σ} {i : ι} {submits : Prop} {forced : Bool} {accepted : Prop}
    (h : Seen r.observe (r.exec i) (fun _ => r.Encoded s submits forced accepted)
      (r.Encoded s submits forced accepted) s {}) :
    (r.stepOf s i).Kept ↔ (r.pending s = true → submits → forced = true ∧ accepted) := by
  obtain ⟨hsubmits, hafter, hforced, haccepted⟩ | ⟨hnot, hafter, hnone⟩ := seen_both.mp h
  · constructor
    · intro hkept hbefore _
      have hcleared : (r.stepOf s i).after ≠ true := by simp [stepOf, hafter]
      obtain ⟨x, hx, hidr, htaken⟩ := (hkept.stays hbefore).resolve_left hcleared
      exact ⟨hforced x hx ▸ hidr, haccepted.mp ⟨x, hx, htaken⟩⟩
    · intro hmet
      constructor
      · intro hbefore x hx
        rw [hforced x hx]
        exact (hmet hbefore hsubmits).1
      · intro hbefore
        obtain ⟨hidr, htaken⟩ := hmet hbefore hsubmits
        obtain ⟨x, hx, hx'⟩ := haccepted.mpr htaken
        exact .inr ⟨x, hx, (hforced x hx).trans hidr, hx'⟩
      · intro _ hnone
        cases hbefore : r.pending s with
        | false => exact hafter.trans hbefore.symm
        | true =>
            obtain ⟨x, hx, hx'⟩ := haccepted.mpr (hmet hbefore hsubmits).2
            exact absurd hx' (by simp [hnone x hx])
  · apply iff_of_true _ fun _ hsubmits => absurd hsubmits hnot
    constructor
    · simp [stepOf, hnone]
    · intro hbefore
      exact .inl (hafter.trans hbefore)
    · exact fun _ _ => hafter

end Requests

/-! ## NVENC -/

namespace Nvenc

def observe (g : Submitted) : NvCall → Submitted
  | .encodePicture _ _ forceIdr ok => g.picture forceIdr ok
  | _ => g

def requests : Requests NvEncoder NvInput NvCall where
  exec := exec
  isEncode
    | .encode _ _ => true
    | _ => false
  pending := NvEncoder.keyframeRequested
  observe := observe

/-- An `Encode` comes to its submission. -/
structure Submits (s : NvEncoder) (env : EncodeEnv) : Prop where
  api : s.api = true
  prepares : Prepares s env
  mapInput : env.mapInput.isSome

/-- With a request pending, what is submitted is accepted. -/
def RequestMet (s : NvEncoder) : NvInput → Prop
  | .encode _ env => s.keyframeRequested = true → Submits s env → env.encodePicture = true
  | _ => True

theorem observe_of_isSetup (c : NvCall) (h : c.IsSetup) (g : Submitted) : observe g c = g := by
  cases c with
  | encodePicture _ _ _ _ => exact h.elim
  | _ => rfl

theorem seen_encode (s : NvEncoder) (frame : Frame) (env : EncodeEnv) :
    Seen observe (encode frame env)
      (fun _ => requests.Encoded s (Submits s env) s.keyframeRequested (env.encodePicture = true))
      (requests.Encoded s (Submits s env) s.keyframeRequested (env.encodePicture = true)) s {} := by
  simp only [encode, seen_bind, seen_state, seen_check]
  split
  case isTrue hapi =>
    apply ((setup_prepare s frame env).seen observe_of_isSetup {}).mono
    · rintro _ s₁ g₁ ⟨⟨hprepares, hkeyframe⟩, rfl⟩
      cases hmap : env.mapInput with
      | none =>
          have hnot : ¬ Submits s env := fun h => by simpa [hmap] using h.mapInput
          simp [encodeMapped, hmap, Requests.Encoded, hnot, requests, hkeyframe, observe]
      | some mapped =>
          have hsubmits : Submits s env := ⟨hapi, hprepares, by simp [hmap]⟩
          simp [encodeMapped, hmap, Requests.Encoded, hsubmits, requests, hkeyframe, observe,
            Submitted.picture]
          grind
    · rintro s₁ g₁ ⟨⟨hfails, hkeyframe⟩, rfl⟩
      exact .inr ⟨fun h => hfails h.prepares, hkeyframe, rfl⟩
  case isFalse hapi => exact .inr ⟨fun h => hapi h.api, rfl, rfl⟩

/-- A step keeps the request law exactly when what it submits for a pending request is
accepted. -/
theorem kept_iff (s : NvEncoder) (i : NvInput) : (requests.stepOf s i).Kept ↔ RequestMet s i := by
  cases i with
  | encode frame env =>
      have hseen : Seen observe (exec (.encode frame env))
          (fun _ => requests.Encoded s (Submits s env) s.keyframeRequested (env.encodePicture = true))
          (requests.Encoded s (Submits s env) s.keyframeRequested (env.encodePicture = true)) s {} := by
        simpa only [exec, seen_bind, seen_pure] using seen_encode s frame env
      rw [Requests.kept_iff_of_encoded (r := requests) hseen]
      exact ⟨fun h hbefore hsubmits => (h hbefore hsubmits).2,
        fun h hbefore hsubmits => ⟨hbefore, h hbefore hsubmits⟩⟩
  | _ =>
      apply iff_of_true _ trivial
      exact Requests.kept_of_setup rfl observe_of_isSetup (setup_exec s (by simp))

end Nvenc

/-! ## Quick Sync -/

namespace Qsv

/-- The statuses of `EncodeFrameAsync` with which the frame was taken; with
`MFX_ERR_MORE_DATA` it is queued. -/
def MfxStatus.accepts (st : MfxStatus) : Bool :=
  st == .errNone || st == .wrnInExecution || st == .errMoreData

def observe (g : Submitted) : QsvCall → Submitted
  | .encodeFrame _ forceIdr status => g.picture forceIdr status.accepts
  | _ => g

def requests : Requests QsvEncoder QsvInput QsvCall where
  exec := exec
  isEncode
    | .encode _ _ => true
    | _ => false
  pending := QsvEncoder.keyframeRequested
  observe := observe

/-- An `Encode` comes to its submission. -/
structure Submits (s : QsvEncoder) (env : EncodeEnv) : Prop where
  session : s.session.isSome
  configured : s.configured = true
  staging : s.staging = none → env.copy.createStaging = true
  map : env.copy.map.isSome

/-- With a request pending, what is submitted is accepted. -/
def RequestMet (s : QsvEncoder) : QsvInput → Prop
  | .encode _ env => s.keyframeRequested = true → Submits s env → env.encodeFrame.accepts = true
  | _ => True

theorem observe_of_isSetup (c : QsvCall) (h : c.IsSetup) (g : Submitted) : observe g c = g := by
  cases c with
  | encodeFrame _ _ _ => exact h.elim
  | _ => rfl

theorem unseen_copyCalls : copyCalls.Meet fun c => ∀ g, observe g c = g := by
  constructor <;> exact fun _ _ _ => rfl

theorem seen_encode (s : QsvEncoder) (frame : Frame) (env : EncodeEnv) :
    Seen observe (encode frame env)
      (fun _ => requests.Encoded s (Submits s env) s.keyframeRequested
        (env.encodeFrame.accepts = true))
      (requests.Encoded s (Submits s env) s.keyframeRequested (env.encodeFrame.accepts = true))
      s {} := by
  simp only [encode, seen_bind, seen_state, seen_check, Bool.and_eq_true]
  split
  case isTrue hready =>
    have hkeep : copyCalls.Keep QsvEncoder.keyframeRequested := keep_copyCalls fun _ _ _ _ => rfl
    apply (CopyCalls.seen_copyFrameToNv12 unseen_copyCalls hkeep s frame env.copy {}).mono
    · rintro _ s₁ _ ⟨⟨⟨hstaging, hmap⟩, hkeyframe⟩, rfl⟩
      have hsubmits : Submits s env := ⟨hready.1, hready.2, hstaging, hmap⟩
      simp [Requests.Encoded, hsubmits, requests, observe, Submitted.picture]
    · rintro s₁ _ ⟨⟨hfails, hkeyframe⟩, rfl⟩
      exact .inr ⟨fun h => hfails ⟨h.staging, h.map⟩, hkeyframe, rfl⟩
  case isFalse hready => exact .inr ⟨fun h => hready ⟨h.session, h.configured⟩, rfl, rfl⟩

/-- A step keeps the request law exactly when what it submits for a pending request is
accepted. -/
theorem kept_iff (s : QsvEncoder) (i : QsvInput) : (requests.stepOf s i).Kept ↔ RequestMet s i := by
  cases i with
  | encode frame env =>
      have hseen : Seen observe (exec (.encode frame env))
          (fun _ => requests.Encoded s (Submits s env) s.keyframeRequested
            (env.encodeFrame.accepts = true))
          (requests.Encoded s (Submits s env) s.keyframeRequested
            (env.encodeFrame.accepts = true)) s {} := by
        simpa only [exec, seen_bind, seen_pure] using seen_encode s frame env
      rw [Requests.kept_iff_of_encoded (r := requests) hseen]
      exact ⟨fun h hbefore hsubmits => (h hbefore hsubmits).2,
        fun h hbefore hsubmits => ⟨hbefore, h hbefore hsubmits⟩⟩
  | _ =>
      apply iff_of_true _ trivial
      exact Requests.kept_of_setup rfl observe_of_isSetup (setup_exec s (by simp))

end Qsv

/-! ## AMF -/

namespace Amf

/-- `FORCE_PICTURE_TYPE` counts for the pictures submitted after it. -/
def observe (g : Submitted) : AmfCall → Submitted
  | .setProperty _ .forceIdr ok => { g with idr := g.idr || ok }
  | .submitInput _ result => g.picture g.idr (result == .ok)
  | _ => g

def requests : Requests AmfEncoder AmfInput AmfCall where
  exec := exec
  isEncode
    | .encode _ _ => true
    | _ => false
  pending := AmfEncoder.keyframeRequested
  observe := observe

/-- An `Encode` comes to its submission. -/
structure Submits (s : AmfEncoder) (env : EncodeEnv) : Prop where
  encoder : s.encoder.isSome
  staging : s.staging = none → env.copy.createStaging = true
  map : env.copy.map.isSome

/-- From try `n` on, the queue is full until the picture is accepted. -/
def EncodeEnv.AcceptsFrom (env : EncodeEnv) (n : Nat) : Prop :=
  ∃ k, n ≤ k ∧ k < kTries ∧ env.submit k = .ok ∧ ∀ m, n ≤ m → m < k → env.submit m = .inputFull

/-- With a request pending, the property is taken and the picture accepted. -/
def RequestMet (s : AmfEncoder) : AmfInput → Prop
  | .encode _ env =>
      s.keyframeRequested = true → Submits s env → env.forceIdr = true ∧ env.AcceptsFrom 0
  | _ => True

theorem EncodeEnv.acceptsFrom_iff (env : EncodeEnv) {n : Nat} (hn : n < kTries) :
    env.AcceptsFrom n ↔
      env.submit n = .ok ∨ env.submit n = .inputFull ∧ env.AcceptsFrom (n + 1) := by
  constructor
  · rintro ⟨k, hnk, hk, hok, hfull⟩
    cases Nat.eq_or_lt_of_le hnk with
    | inl heq => exact .inl (heq ▸ hok)
    | inr hlt => exact .inr ⟨hfull n (Nat.le_refl n) hlt, k, hlt, hk, hok, by grind⟩
  · rintro (hok | ⟨hfull, k, hnk, hk, hok, hbefore⟩)
    · exact ⟨n, Nat.le_refl n, hn, hok, by grind⟩
    · exact ⟨k, by omega, hk, hok, by grind⟩

theorem observe_of_isSetup (c : AmfCall) (h : c.IsSetup) (g : Submitted) : observe g c = g := by
  cases c with
  | submitInput _ _ => exact h.elim
  | setProperty _ property _ => cases property <;> simp_all [observe, AmfCall.IsSetup]
  | _ => rfl

section

variable {s : AmfEncoder} {requested : Bool}

/-- What the submission loop adds: pictures of one kind, one of them accepted or none. -/
def Tried (s : AmfEncoder) (g : Submitted) (accepted : Prop) (s' : AmfEncoder) (g' : Submitted) :
    Prop :=
  s'.keyframeRequested = s.keyframeRequested ∧
    ∃ pictures, g'.pictures = g.pictures ++ pictures ∧ (∀ x ∈ pictures, x.forced = g.idr) ∧
      ((∃ x ∈ pictures, x.accepted = true) ↔ accepted)

/-- A picture that is refused comes before the rest. -/
theorem tried_of_refused {s' : AmfEncoder} {g g' : Submitted} {accepted : Prop}
    (h : Tried s (g.picture g.idr false) accepted s' g') : Tried s g accepted s' g' := by
  obtain ⟨hkeyframe, pictures, happend, hforced, haccepted⟩ := h
  refine ⟨hkeyframe, ⟨g.idr, false⟩ :: pictures, by simp [happend, Submitted.picture], ?_, ?_⟩
  · simpa [Submitted.picture] using hforced
  · simpa using haccepted

/-- The submission loop with `tries` left. -/
theorem seen_submitFrom (surface : Option Handle) (env : EncodeEnv) {tries : Nat}
    (htries : tries ≤ kTries) (g : Submitted) :
    Seen observe (submitFrom surface env tries)
      (fun _ => Tried s g (env.AcceptsFrom (kTries - tries))) (fun _ _ => False) s g := by
  induction tries generalizing g s with
  | zero =>
      have hnot : ¬ env.AcceptsFrom kTries := fun ⟨k, hle, hlt, _⟩ => by omega
      simp [submitFrom, hnot, Tried]
  | succ tries ih =>
      have hstep := env.acceptsFrom_iff (show kTries - (tries + 1) < kTries by omega)
      rw [show kTries - (tries + 1) + 1 = kTries - tries by omega] at hstep
      rw [submitFrom, seen_bind, seen_issue, hstep]
      generalize kTries - (tries + 1) = n at *
      split
      case isTrue hfull =>
        have hagain : Seen observe (submitFrom surface env tries)
            (fun _ => Tried s g (env.AcceptsFrom (kTries - tries))) (fun _ _ => False) s
            (g.picture g.idr false) :=
          (ih (by omega) _).mono (fun _ _ _ => tried_of_refused) fun _ _ h => h
        simp only [hfull, reduceCtorEq, false_or, true_and, seen_bind, seen_ignore]
        apply ((setup_readOutput s (env.whileFull n)).seen observe_of_isSetup _).mono
        · rintro _ _ _ ⟨rfl, rfl⟩
          exact hagain
        · rintro _ _ ⟨rfl, rfl⟩
          exact hagain
      case isFalse hnot =>
        cases hresult : env.submit n <;> simp_all [observe, Submitted.picture, Tried]

theorem unseen_copyCalls : copyCalls.Meet fun c => ∀ g, observe g c = g := by
  constructor <;> exact fun _ _ _ => rfl

/-- The request is cleared, whether the property is taken or not. -/
theorem seen_request (h : s.keyframeRequested = requested) (taken : Bool) :
    Seen observe (whenever requested do
        setProperty .forceIdr taken
        update fun s => { s with keyframeRequested := false })
      (fun _ s' g' => s'.keyframeRequested = false ∧ g' = { idr := requested && taken })
      (fun _ _ => False) s {} := by
  cases requested <;> cases taken <;> simp [setProperty, observe, AmfEncoder.apply, h]

/-- The pictures of an `Encode` that comes to submit are IDRs when a request is pending
and the property is taken. -/
theorem seen_encode (frame : Frame) (env : EncodeEnv) :
    Seen observe (encode frame env)
      (fun _ => requests.Encoded s (Submits s env) (s.keyframeRequested && env.forceIdr)
        (env.AcceptsFrom 0))
      (requests.Encoded s (Submits s env) (s.keyframeRequested && env.forceIdr)
        (env.AcceptsFrom 0)) s {} := by
  simp only [encode, seen_bind, seen_state, seen_check]
  split
  case isTrue hencoder =>
    rw [copyFrameToNv12, seen_bind]
    have hkeep : copyCalls.Keep AmfEncoder.keyframeRequested := keep_copyCalls fun _ _ _ _ => rfl
    apply (CopyCalls.seen_copyFrameToNv12 unseen_copyCalls hkeep s frame env.copy {}).mono
    · rintro _ s₁ _ ⟨⟨⟨hstaging, hmap⟩, hkeyframe⟩, rfl⟩
      have hsubmits : Submits s env := ⟨hencoder, hstaging, hmap⟩
      rw [seen_bind, seen_state, seen_issue]
      apply seen_bind_of_total (seen_request hkeyframe env.forceIdr)
      rintro _ s₂ g₂ ⟨hcleared, rfl⟩
      rw [seen_bind, seen_update]
      apply seen_bind_of_total (seen_submitFrom _ env (Nat.le_refl kTries) _)
      rintro result s₃ g₃ ⟨hsame, pictures, happend, hforced, haccepted⟩
      have hpictures : g₃.pictures = pictures := happend
      have hencoded : requests.Encoded s (Submits s env) (s.keyframeRequested && env.forceIdr)
          (env.AcceptsFrom 0) s₃ g₃ := by
        refine .inl ⟨hsubmits, hsame.trans hcleared, ?_, ?_⟩
        · rw [hpictures]
          exact hforced
        · rw [hpictures]
          exact haccepted
      rw [seen_bind, seen_check]
      split
      · apply ((setup_readOutput s₃ env.output).seen observe_of_isSetup g₃).mono
        · rintro _ _ _ ⟨rfl, rfl⟩
          exact hencoded
        · rintro _ _ ⟨rfl, rfl⟩
          exact hencoded
      · exact hencoded
    · rintro s₁ _ ⟨⟨hfails, hkeyframe⟩, rfl⟩
      exact .inr ⟨fun h => hfails ⟨h.staging, h.map⟩, hkeyframe, rfl⟩
  case isFalse hencoder => exact .inr ⟨fun h => hencoder h.encoder, rfl, rfl⟩

/-- A step keeps the request law exactly when what it submits for a pending request is
forced and accepted. -/
theorem kept_iff (s : AmfEncoder) (i : AmfInput) : (requests.stepOf s i).Kept ↔ RequestMet s i := by
  cases i with
  | encode frame env =>
      have hseen : Seen observe (exec (.encode frame env))
          (fun _ => requests.Encoded s (Submits s env) (s.keyframeRequested && env.forceIdr)
            (env.AcceptsFrom 0))
          (requests.Encoded s (Submits s env) (s.keyframeRequested && env.forceIdr)
            (env.AcceptsFrom 0)) s {} := by
        simpa only [exec, seen_bind, seen_pure] using seen_encode frame env
      rw [Requests.kept_iff_of_encoded (r := requests) hseen, Bool.and_eq_true]
      exact ⟨fun h hbefore hsubmits => ⟨(h hbefore hsubmits).1.2, (h hbefore hsubmits).2⟩,
        fun h hbefore hsubmits => ⟨⟨hbefore, (h hbefore hsubmits).1⟩, (h hbefore hsubmits).2⟩⟩
  | _ =>
      apply iff_of_true _ trivial
      exact Requests.kept_of_setup rfl observe_of_isSetup (setup_exec s (by simp))

end

end Amf

/-! ## requests over runs -/

section

variable {nvenc nvenc' : Nvenc.NvEncoder} {nvencInputs : List Nvenc.NvInput}
  {qsv qsv' : Qsv.QsvEncoder} {qsvInputs : List Qsv.QsvInput} {amf amf' : Amf.AmfEncoder}
  {amfInputs : List Amf.AmfInput} {nvencSteps qsvSteps amfSteps : List RequestStep}

/-- **Keyframe requests**: over a run of calls, with any outcomes, a pending request
forces what is submitted and stays until an IDR is accepted, and a failing `Encode` leaves
it as it was, exactly when every `Encode` that comes to its submission with a request
pending has it accepted: by `nvEncEncodePicture`; by `EncodeFrameAsync`; or by
`SubmitInput` within its tries, and the property set before it. -/
theorem requests_kept_iff
    (hnvenc : Nvenc.requests.encoder.run nvenc nvencInputs = some (nvenc', nvencSteps))
    (hqsv : Qsv.requests.encoder.run qsv qsvInputs = some (qsv', qsvSteps))
    (hamf : Amf.requests.encoder.run amf amfInputs = some (amf', amfSteps)) :
    ((∀ k ∈ nvencSteps, k.Kept) ↔
      Nvenc.requests.encoder.Along Nvenc.RequestMet nvenc nvencInputs) ∧
    ((∀ k ∈ qsvSteps, k.Kept) ↔ Qsv.requests.encoder.Along Qsv.RequestMet qsv qsvInputs) ∧
    ((∀ k ∈ amfSteps, k.Kept) ↔ Amf.requests.encoder.Along Amf.RequestMet amf amfInputs) :=
  ⟨Requests.kept_iff_along Nvenc.kept_iff hnvenc, Requests.kept_iff_along Qsv.kept_iff hqsv,
    Requests.kept_iff_along Amf.kept_iff hamf⟩

end

/-- Each encoder started without failures, asked for a keyframe, and given a frame. -/
def Nvenc.requestRun (env : Nvenc.EncodeEnv) : List Nvenc.NvInput :=
  [.start (1920, 1080) 30 12000000 Nvenc.workingLoad, .requestKeyframe,
    .encode Nvenc.someFrame env]

def Qsv.requestRun (env : Qsv.EncodeEnv) : List Qsv.QsvInput :=
  [.start (1920, 1080) 30 12000000 Qsv.workingStart, .requestKeyframe,
    .encode Nvenc.someFrame env]

def Amf.requestRun (env : Amf.EncodeEnv) : List Amf.AmfInput :=
  [.setD3D11Device (some 7), .start (1920, 1080) 30 12000000 Amf.workingStart, .requestKeyframe,
    .encode Nvenc.someFrame env]

/-- Where nothing fails the request is met. -/
theorem requests_kept_iff_working : ∃ n n' q q' a a',
    Nvenc.requests.encoder.run {} (Nvenc.requestRun Nvenc.workingEncode) = some (n, n') ∧
    Qsv.requests.encoder.run {} (Qsv.requestRun Qsv.workingEncode) = some (q, q') ∧
    Amf.requests.encoder.run {} (Amf.requestRun Amf.workingEncode) = some (a, a') ∧
    (∀ k ∈ n', k.Kept) ∧ (∀ k ∈ q', k.Kept) ∧ ∀ k ∈ a', k.Kept := by
  obtain ⟨n, n', hn⟩ : ∃ n n', Nvenc.requests.encoder.run {}
      (Nvenc.requestRun Nvenc.workingEncode) = some (n, n') := ⟨_, _, rfl⟩
  obtain ⟨q, q', hq⟩ : ∃ q q', Qsv.requests.encoder.run {}
      (Qsv.requestRun Qsv.workingEncode) = some (q, q') := ⟨_, _, rfl⟩
  obtain ⟨a, a', ha⟩ : ∃ a a', Amf.requests.encoder.run {}
      (Amf.requestRun Amf.workingEncode) = some (a, a') := ⟨_, _, rfl⟩
  obtain ⟨hnvenc, hqsv, hamf⟩ := requests_kept_iff hn hq ha
  refine ⟨n, n', q, q', a, a', hn, hq, ha, hnvenc.mpr ?_, hqsv.mpr ?_, hamf.mpr ?_⟩
  · exact ⟨trivial, fun _ _ _ => ⟨trivial, fun _ _ _ => ⟨fun _ _ => rfl, fun _ _ _ => trivial⟩⟩⟩
  · exact ⟨trivial, fun _ _ _ => ⟨trivial, fun _ _ _ => ⟨fun _ _ => rfl, fun _ _ _ => trivial⟩⟩⟩
  · have haccepts : Amf.workingEncode.AcceptsFrom 0 := ⟨0, Nat.le_refl 0, by decide, rfl, by simp⟩
    exact ⟨trivial, fun _ _ _ => ⟨trivial, fun _ _ _ => ⟨trivial, fun _ _ _ =>
      ⟨fun _ _ => ⟨rfl, haccepts⟩, fun _ _ _ => trivial⟩⟩⟩⟩

/-- A submission that fails takes the request with it, in each of the encoders. -/
theorem request_lost :
    (¬ ∀ s steps, Nvenc.requests.encoder.run {} (Nvenc.requestRun
        { Nvenc.workingEncode with encodePicture := false }) = some (s, steps) →
      ∀ k ∈ steps, k.Kept) ∧
    (¬ ∀ s steps, Qsv.requests.encoder.run {} (Qsv.requestRun
        { Qsv.workingEncode with encodeFrame := .other }) = some (s, steps) →
      ∀ k ∈ steps, k.Kept) ∧
    ¬ ∀ s steps, Amf.requests.encoder.run {} (Amf.requestRun
        { Amf.workingEncode with submit := fun _ => .other }) = some (s, steps) →
      ∀ k ∈ steps, k.Kept := by
  have hlost : ¬ (⟨true, true, [⟨true, false⟩], false⟩ : RequestStep).Kept := by
    intro hkept
    simpa using hkept.stays rfl
  exact ⟨fun h => hlost (h _ _ rfl _ (by decide)), fun h => hlost (h _ _ rfl _ (by decide)),
    fun h => hlost (h _ _ rfl _ (by decide))⟩

end TwinScreen.Host
