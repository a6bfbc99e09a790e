import TwinScreen.Host.Setup

/-!
# TwinScreen.Host.Staging

The staging texture of the Quick Sync and AMF encoders: `CopyFrameToNv12` makes it with
the size of the first frame, and neither `Stop` nor `Resize` gives it up.

* `staging_lawful_iff` — which runs copy and convert whole frames only.
-/

namespace TwinScreen.Host

open Lib Lib.Attempt

/-! ## copies and conversions -/

/-- A call of `BgraToNv12`: the size of the mapped texture, the frame that it holds if it
holds one, and the arguments. -/
structure Conversion where
  mapped : Option Size
  content : Option Texture
  rowPitch : Nat
  size : Size
  deriving DecidableEq

/-- What an observer of the calls knows. -/
structure Copied where
  content : Option Texture := none
  mapped : Option Size := none
  copies : List (Option Size × Texture) := []
  conversions : List Conversion := []
  deriving DecidableEq

/-- `CopyResource` copies the whole texture to one of equal dimensions, and to no other. -/
def Copied.copy (g : Copied) (dst : Option Size) (src : Texture) : Copied :=
  { g with
    content := if dst = some src.size then some src else g.content
    copies := g.copies ++ [(dst, src)] }

def Copied.map (g : Copied) (staging : Option Size) : Copied := { g with mapped := staging }

def Copied.convert (g : Copied) (rowPitch : Nat) (size : Size) : Copied :=
  { g with conversions := g.conversions ++ [⟨g.mapped, g.content, rowPitch, size⟩] }

/-- All that is read are bytes of pixels of the mapped texture. -/
def Conversion.Inside (v : Conversion) : Prop :=
  ∃ size, v.mapped = some size ∧ ∀ bgra nv12Pitch,
    ∀ s ∈ bgraToNv12 bgra v.rowPitch nv12Pitch v.size.1.toNat v.size.2.toNat,
      ∀ a ∈ s.reads, Visible v.rowPitch size.1.toNat size.2.toNat a

/-- A step of an encoder: the frame it is given, if it is an `Encode`, and what it makes
of it. -/
structure CopyStep where
  frame : Option Texture
  copies : List (Option Size × Texture)
  conversions : List Conversion
  deriving DecidableEq

/-- Frames are copied between textures of equal dimensions, and what is converted is
inside the mapped one and comes from the frame. -/
structure CopyStep.Lawful (k : CopyStep) : Prop where
  copies : ∀ c ∈ k.copies, c.1 = some c.2.size
  conversions : ∀ v ∈ k.conversions, (v.content.isSome ∧ v.content = k.frame) ∧ v.Inside

/-- A texture has the configured size, and the rows `Map` gives hold the pixels of the staging
texture's. -/
def CopyEnv.FrameFits (env : CopyEnv) (staging : Option Size) (size : Size) (texture : Texture) :
    Prop :=
  texture.size = size ∧ ∀ p, env.map = some p → 4 * (staging.getD texture.size).1.toNat ≤ p

/-- A staging texture that is there has the configured size, and what is mapped is converted
without leaving it. -/
def CopyEnv.StagingFits (env : CopyEnv) (staging : Option Size) (size : Size) : Prop :=
  (∀ t, staging = some t → t = size) ∧
    ∀ p, env.map = some p → BlocksVisible p size.1.toNat size.2.toNat

/-- What the observer sees of a frame that is copied to a staging texture of a size, and
converted if that maps. -/
def Copied.frame (staging : Size) (frame : Texture) (map : Option Nat) (size : Size) : Copied :=
  let g := (Copied.copy {} (some staging) frame).map (some staging)
  match map with
  | none => g
  | some rowPitch => g.convert rowPitch size

/-- The observer has seen `frame` when it was `copying`, and nothing otherwise. -/
def Copied.Made (copying : Prop) (frame g : Copied) : Prop :=
  copying ∧ g = frame ∨ ¬ copying ∧ g = {}

def Copied.step (g : Copied) (frame : Option Texture) : CopyStep := ⟨frame, g.copies, g.conversions⟩

theorem lawful_nothing (frame : Option Texture) : (Copied.step {} frame).Lawful where
  copies := by simp [Copied.step]
  conversions := by simp [Copied.step]

/-- A conversion of the whole of the mapped texture. -/
theorem inside_iff {size : Size} (content : Option Texture) {p : Nat}
    (hpitch : 4 * size.1.toNat ≤ p) :
    Conversion.Inside ⟨some size, content, p, size⟩ ↔
      BlocksVisible p size.1.toNat size.2.toNat := by
  constructor
  · intro hinside
    obtain ⟨_, hmapped, hreads⟩ := hinside
    cases hmapped
    exact (reads_visible_iff hpitch).mp (hreads (fun _ => 0) 0)
  · intro hblocks
    exact ⟨size, rfl, fun _ _ => (reads_visible_iff hpitch).mpr hblocks⟩

/-- For a frame of the configured size, the staging texture must have that size too, and
the blocks be inside. -/
theorem lawful_frame_iff {staging size : Size} {frame : Texture} {map : Option Nat}
    (hsize : frame.size = size) (hpitch : ∀ p, map = some p → 4 * staging.1.toNat ≤ p) :
    ((Copied.frame staging frame map size).step (some frame)).Lawful ↔
      staging = size ∧ ∀ p, map = some p → BlocksVisible p size.1.toNat size.2.toNat := by
  subst hsize
  have hcopies : ((Copied.frame staging frame map frame.size).step (some frame)).copies =
      [(some staging, frame)] := by
    cases map <;> rfl
  constructor
  · intro hlawful
    have hstaging : staging = frame.size := by
      simpa using hlawful.copies (some staging, frame) (by simp [hcopies])
    rw [hstaging] at hpitch
    refine ⟨hstaging, fun p hmap => ?_⟩
    rw [← inside_iff (some frame) (hpitch p hmap)]
    apply (hlawful.conversions ⟨some frame.size, some frame, p, frame.size⟩ _).2
    simp [Copied.frame, Copied.step, Copied.copy, Copied.map, Copied.convert, hmap, hstaging]
  · intro hfits
    obtain ⟨rfl, hblocks⟩ := hfits
    constructor
    · simp [hcopies]
    · cases hmap : map with
      | none => simp [Copied.frame, Copied.step, Copied.copy, Copied.map]
      | some p =>
          have hinside := (inside_iff (some frame) (hpitch p hmap)).mpr (hblocks p hmap)
          simpa [Copied.frame, Copied.step, Copied.copy, Copied.map, Copied.convert] using hinside

/-! ## encoders -/

/-- An encoder as far as its copies go. -/
structure Copies (σ ι κ : Type) where
  exec : ι → Attempt σ κ Unit
  frame : ι → Option Texture
  observe : Copied → κ → Copied

namespace Copies

variable {σ ι κ : Type} (c : Copies σ ι κ)

def stepOf (s : σ) (i : ι) : CopyStep := ((c.exec i s).2.2.foldl c.observe {}).step (c.frame i)

/-- The runs of the encoder, with what each step copies and converts as output. -/
def encoder : Machine σ ι CopyStep := .reporting (fun s i => (c.exec i s).2.1) c.stepOf

variable {c}

/-- A step that copies nothing. -/
theorem lawful_of_setup {law : κ → Prop} {s : σ} {i : ι}
    (hobs : ∀ k, law k → ∀ g, c.observe g k = g) (h : ∀ k ∈ (c.exec i s).2.2, law k) :
    (c.stepOf s i).Lawful := by
  have hseen : Seen c.observe (c.exec i) (fun _ _ g => g = {}) (fun _ g => g = {}) s {} :=
    ((wp_calls.mpr h).seen hobs {}).mono (fun _ _ _ h => h.2) fun _ _ h => h.2
  rw [stepOf, seen_both.mp hseen]
  exact lawful_nothing (c.frame i)

/-- A step that copies a frame of the configured size, or nothing. -/
theorem lawful_iff_of_made {s : σ} {i : ι} {copying : Prop} {staging : Option Size} {size : Size}
    {frame : Texture} {env : CopyEnv} (hi : c.frame i = some frame)
    (hfits : env.FrameFits staging size frame)
    (h : Seen c.observe (c.exec i)
      (fun _ _ => Copied.Made copying (.frame (staging.getD frame.size) frame env.map size))
      (fun _ => Copied.Made copying (.frame (staging.getD frame.size) frame env.map size)) s {}) :
    (c.stepOf s i).Lawful ↔ (copying → env.StagingFits staging size) := by
  obtain ⟨hsize, hpitch⟩ := hfits
  have hstaging : staging.getD frame.size = size ↔ ∀ t, staging = some t → t = size := by
    cases staging <;> simp [hsize]
  rw [stepOf, hi]
  obtain ⟨hcopying, hframe⟩ | ⟨hnot, hnone⟩ := seen_both.mp h
  · rw [hframe, lawful_frame_iff hsize hpitch, hstaging, CopyEnv.StagingFits]
    exact ⟨fun h _ => h, fun h => h hcopying⟩
  · rw [hnone]
    exact iff_of_true (lawful_nothing _) fun h => absurd h hnot

end Copies

/-! ## `CopyFrameToNv12` -/

namespace CopyCalls

variable {σ κ : Type} {c : CopyCalls σ κ}

/-- What the observer makes of the calls; `size` is what a frame is converted with. -/
structure Observed (c : CopyCalls σ κ) (obs : Copied → κ → Copied) (size : σ → Size) : Prop where
  keep : c.Keep size
  createStaging : ∀ g size ok, obs g (c.createStaging size ok) = g
  copyResource : ∀ g dst src, obs g (c.copyResource dst src) = g.copy dst src
  map : ∀ g staging rowPitch, obs g (c.map staging rowPitch) = g.map staging
  bgraToNv12 : ∀ g rowPitch s, obs g (c.bgraToNv12 rowPitch s) = g.convert rowPitch (size s)

/-- Before the copy only the making of the staging texture can fail. -/
theorem made_copyFrameToNv12 {obs : Copied → κ → Copied} {size : σ → Size}
    (h : c.Observed obs size) (s : σ) (frame : Frame) (env : CopyEnv) :
    Seen obs (c.copyFrameToNv12 frame env)
      (fun _ _ => Copied.Made (c.staging s = none → env.createStaging = true)
        (.frame ((c.staging s).getD frame.texture.size) frame.texture env.map (size s)))
      (fun _ => Copied.Made (c.staging s = none → env.createStaging = true)
        (.frame ((c.staging s).getD frame.texture.size) frame.texture env.map (size s))) s {} := by
  simp only [copyFrameToNv12, seen_bind, seen_update, seen_state, seen_whenever, seen_issue,
    seen_check, seen_outcome, c.staging_getDevice, h.createStaging, h.copyResource, h.map,
    h.bgraToNv12]
  cases hstaging : c.staging s <;> cases env.createStaging <;> cases env.map <;>
    simp [Copied.Made, Copied.frame, c.staging_setStaging, h.keep.getDevice, h.keep.setStaging]

end CopyCalls

/-! ## Quick Sync -/

namespace Qsv

def observeCopy (g : Copied) : QsvCall → Copied
  | .copyResource dst src => g.copy dst src
  | .map staging _ => g.map staging
  | .bgraToNv12 rowPitch _ size => g.convert rowPitch size
  | _ => g

def copies : Copies QsvEncoder QsvInput QsvCall where
  exec := exec
  frame
    | .encode frame _ => some frame.texture
    | _ => none
  observe := observeCopy

/-- An `Encode` comes to copy its frame. -/
structure Copying (s : QsvEncoder) (env : EncodeEnv) : Prop where
  session : s.session.isSome
  configured : s.configured = true
  staging : s.staging = none → env.copy.createStaging = true

/-- An `Encode` is given a texture that fits. -/
def FrameFits (s : QsvEncoder) : QsvInput → Prop
  | .encode frame env => env.copy.FrameFits s.staging s.size frame.texture
  | _ => True

/-- Where a frame is copied, the staging texture fits. -/
def StagingFits (s : QsvEncoder) : QsvInput → Prop
  | .encode _ env => Copying s env → env.copy.StagingFits s.staging s.size
  | _ => True

theorem observeCopy_of_isSetup (c : QsvCall) (h : c.IsSetup) (g : Copied) : observeCopy g c = g := by
  cases c <;> first | rfl | exact h.elim

theorem observed_copyCalls : copyCalls.Observed observeCopy QsvEncoder.size where
  keep := keep_copyCalls fun _ _ _ _ => rfl
  createStaging _ _ _ := rfl
  copyResource _ _ _ := rfl
  map _ _ _ := rfl
  bgraToNv12 _ _ _ := rfl

theorem seen_frame (s : QsvEncoder) (frame : Frame) (env : EncodeEnv) :
    Seen observeCopy (exec (.encode frame env))
      (fun _ _ => Copied.Made (Copying s env)
        (.frame (s.staging.getD frame.texture.size) frame.texture env.copy.map s.size))
      (fun _ => Copied.Made (Copying s env)
        (.frame (s.staging.getD frame.texture.size) frame.texture env.copy.map s.size)) s {} := by
  simp only [exec, encode, seen_bind, seen_state, seen_check, Bool.and_eq_true]
  split
  case isTrue hready =>
    have hcopying : Copying s env ↔ (s.staging = none → env.copy.createStaging = true) :=
      ⟨fun h => h.staging, fun h => ⟨hready.1, hready.2, h⟩⟩
    rw [hcopying]
    apply (CopyCalls.made_copyFrameToNv12 observed_copyCalls s frame env.copy).mono _ fun _ _ h => h
    intro _ s₁ g hmade
    simp only [copyCalls] at hmade
    simp [observeCopy, hmade]
  case isFalse hready => exact .inr ⟨fun h => hready ⟨h.session, h.configured⟩, rfl⟩

/-- A step is lawful exactly when the staging texture fits. -/
theorem lawful_iff (s : QsvEncoder) (i : QsvInput) (hfits : FrameFits s i) :
    (copies.stepOf s i).Lawful ↔ StagingFits s i := by
  cases i with
  | encode frame env =>
      exact Copies.lawful_iff_of_made rfl hfits (seen_frame s frame env)
  | _ =>
      apply iff_of_true _ trivial
      exact Copies.lawful_of_setup observeCopy_of_isSetup (setup_exec s (by simp)).calls

end Qsv

/-! ## AMF -/

namespace Amf

def observeCopy (g : Copied) : AmfCall → Copied
  | .copyResource dst src => g.copy dst src
  | .map staging _ => g.map staging
  | .bgraToNv12 rowPitch _ size => g.convert rowPitch size
  | _ => g

def copies : Copies AmfEncoder AmfInput AmfCall where
  exec := exec
  frame
    | .encode frame _ => some frame.texture
    | _ => none
  observe := observeCopy

/-- An `Encode` comes to copy its frame. -/
structure Copying (s : AmfEncoder) (env : EncodeEnv) : Prop where
  encoder : s.encoder.isSome
  staging : s.staging = none → env.copy.createStaging = true

/-- An `Encode` is given a texture that fits. -/
def FrameFits (s : AmfEncoder) : AmfInput → Prop
  | .encode frame env => env.copy.FrameFits s.staging s.size frame.texture
  | _ => True

/-- Where a frame is copied, the staging texture fits. -/
def StagingFits (s : AmfEncoder) : AmfInput → Prop
  | .encode _ env => Copying s env → env.copy.StagingFits s.staging s.size
  | _ => True

theorem observeCopy_of_isSetup (c : AmfCall) (h : c.IsSetup) (g : Copied) : observeCopy g c = g := by
  cases c <;> first | rfl | exact h.elim

/-- Reading an output copies nothing. -/
theorem seen_output (result : QueryResult) (s : AmfEncoder) (g : Copied) :
    Seen observeCopy (readOutput result) (fun _ _ g' => g' = g) (fun _ g' => g' = g) s g :=
  ((setup_readOutput s result).seen observeCopy_of_isSetup g).mono (fun _ _ _ h => h.2)
    fun _ _ h => h.2

/-- The submission loop copies nothing. -/
theorem seen_tries (surface : Option Handle) (env : EncodeEnv) (tries : Nat) (s : AmfEncoder)
    (g : Copied) :
    Seen observeCopy (submitFrom surface env tries) (fun _ _ g' => g' = g) (fun _ _ => False) s g := by
  induction tries generalizing s g with
  | zero => simp [submitFrom]
  | succ tries ih =>
      rw [submitFrom, seen_bind, seen_issue]
      split
      · rw [seen_bind, seen_ignore]
        apply (seen_output (env.whileFull _) s g).mono
        · rintro _ s₁ _ rfl
          exact ih s₁ _
        · rintro s₁ _ rfl
          exact ih s₁ _
      · simp [observeCopy]

/-- From the submission on, `Encode` copies nothing. -/
theorem seen_submit (surface : Option Handle) (env : EncodeEnv) (s : AmfEncoder) (g : Copied) :
    Seen observeCopy (do
        let result ← submitFrom surface env kTries
        check (result == .ok)
        readOutput env.output)
      (fun _ _ g' => g' = g) (fun _ g' => g' = g) s g := by
  apply seen_bind_of_total (seen_tries surface env kTries s g)
  rintro result s₁ _ rfl
  rw [seen_bind, seen_check]
  split
  · exact seen_output env.output s₁ _
  · rfl

theorem observed_copyCalls : copyCalls.Observed observeCopy AmfEncoder.size where
  keep := keep_copyCalls fun _ _ _ _ => rfl
  createStaging _ _ _ := rfl
  copyResource _ _ _ := rfl
  map _ _ _ := rfl
  bgraToNv12 _ _ _ := rfl

theorem seen_frame (s : AmfEncoder) (frame : Frame) (env : EncodeEnv) :
    Seen observeCopy (exec (.encode frame env))
      (fun _ _ => Copied.Made (Copying s env)
        (.frame (s.staging.getD frame.texture.size) frame.texture env.copy.map s.size))
      (fun _ => Copied.Made (Copying s env)
        (.frame (s.staging.getD frame.texture.size) frame.texture env.copy.map s.size)) s {} := by
  simp only [exec, encode, seen_bind, seen_state, seen_check]
  split
  case isTrue hencoder =>
    have hcopying : Copying s env ↔ (s.staging = none → env.copy.createStaging = true) :=
      ⟨fun h => h.staging, fun h => ⟨hencoder, h⟩⟩
    rw [hcopying]
    rw [copyFrameToNv12, seen_bind]
    apply (CopyCalls.made_copyFrameToNv12 observed_copyCalls s frame env.copy).mono _ fun _ _ h => h
    intro _ s₁ g hmade
    rw [seen_bind, seen_state, seen_issue]
    change Seen observeCopy _ _ _ s₁ g
    simp only [copyCalls] at hmade
    have hsubmit (s₂ : AmfEncoder) (surface : Option Handle) :=
      (seen_submit surface env s₂ g).mono (fun _ _ _ h => h ▸ hmade) fun _ _ h => h ▸ hmade
    simp only [seen_bind] at hsubmit
    cases hrequested : s.keyframeRequested with
    | false => simpa using hsubmit _ _
    | true => simpa [setProperty, observeCopy] using hsubmit _ _
  case isFalse hencoder => exact .inr ⟨fun h => hencoder h.encoder, rfl⟩

/-- A step is lawful exactly when the staging texture fits. -/
theorem lawful_iff (s : AmfEncoder) (i : AmfInput) (hfits : FrameFits s i) :
    (copies.stepOf s i).Lawful ↔ StagingFits s i := by
  cases i with
  | encode frame env =>
      exact Copies.lawful_iff_of_made rfl hfits (seen_frame s frame env)
  | _ =>
      apply iff_of_true _ trivial
      exact Copies.lawful_of_setup observeCopy_of_isSetup (setup_exec s (by simp)).calls

end Amf

/-! ## staging textures over runs -/

section

variable {qsv qsv' : Qsv.QsvEncoder} {qsvInputs : List Qsv.QsvInput} {amf amf' : Amf.AmfEncoder}
  {amfInputs : List Amf.AmfInput} {qsvSteps amfSteps : List CopyStep}

/-- **Staging textures**: over a run whose every `Encode` is given a texture of the
configured size, frames are copied between textures of equal dimensions, and what is
converted is read inside the mapped texture and comes from the frame, exactly when every
`Encode` that comes to copy finds no staging texture or one of the configured size, and
converts no odd column of blocks past its edge. -/
theorem staging_lawful_iff (hqsvFits : Qsv.copies.encoder.Along Qsv.FrameFits qsv qsvInputs)
    (hqsv : Qsv.copies.encoder.run qsv qsvInputs = some (qsv', qsvSteps))
    (hamfFits : Amf.copies.encoder.Along Amf.FrameFits amf amfInputs)
    (hamf : Amf.copies.encoder.run amf amfInputs = some (amf', amfSteps)) :
    ((∀ k ∈ qsvSteps, k.Lawful) ↔ Qsv.copies.encoder.Along Qsv.StagingFits qsv qsvInputs) ∧
    ((∀ k ∈ amfSteps, k.Lawful) ↔ Amf.copies.encoder.Along Amf.StagingFits amf amfInputs) :=
  ⟨Machine.reports_iff_along Qsv.lawful_iff hqsvFits hqsv,
    Machine.reports_iff_along Amf.lawful_iff hamfFits hamf⟩

end

/-- A frame of another size. -/
def resizedFrame : Frame := ⟨⟨1, (1440, 810)⟩, 7⟩

/-- Each encoder started and given a frame; no call fails. -/
def Qsv.frameRun : List Qsv.QsvInput :=
  [.start (1920, 1080) 30 12000000 Qsv.workingStart, .encode Nvenc.someFrame Qsv.workingEncode]

def Amf.frameRun : List Amf.AmfInput :=
  [.setD3D11Device (some 7), .start (1920, 1080) 30 12000000 Amf.workingStart,
    .encode Nvenc.someFrame Amf.workingEncode]

/-- Each encoder given a second frame, after a `Resize` to its size. -/
def Qsv.resizeRun : List Qsv.QsvInput :=
  Qsv.frameRun ++ [.resize (1440, 810) Qsv.workingStart, .encode resizedFrame Qsv.workingEncode]

def Amf.resizeRun : List Amf.AmfInput :=
  Amf.frameRun ++ [.resize (1440, 810) [] Amf.workingStart, .encode resizedFrame Amf.workingEncode]

/-- The row pitch of the outcomes holds both frames. -/
theorem pitch_of_some {p w : Nat} (hw : 4 * w ≤ 7680) (hp : some 7680 = some p) : 4 * w ≤ p := by
  cases hp
  exact hw

theorem Qsv.frameFits_frameRun : Qsv.copies.encoder.Along Qsv.FrameFits {} Qsv.frameRun := by
  simp only [Qsv.frameRun, Copies.encoder, Machine.along_reporting_cons]
  exact ⟨trivial, ⟨rfl, fun _ => pitch_of_some (by decide)⟩, trivial⟩

theorem Amf.frameFits_frameRun : Amf.copies.encoder.Along Amf.FrameFits {} Amf.frameRun := by
  simp only [Amf.frameRun, Copies.encoder, Machine.along_reporting_cons]
  exact ⟨trivial, trivial, ⟨rfl, fun _ => pitch_of_some (by decide)⟩, trivial⟩

/-- The first frame is copied and converted whole. -/
theorem staging_lawful_iff_first : ∃ q q' a a',
    Qsv.copies.encoder.run {} Qsv.frameRun = some (q, q') ∧
    Amf.copies.encoder.run {} Amf.frameRun = some (a, a') ∧
    (∀ k ∈ q', k.Lawful) ∧ ∀ k ∈ a', k.Lawful := by
  obtain ⟨q, q', hq⟩ : ∃ q q', Qsv.copies.encoder.run {} Qsv.frameRun = some (q, q') :=
    ⟨_, _, rfl⟩
  obtain ⟨a, a', ha⟩ : ∃ a a', Amf.copies.encoder.run {} Amf.frameRun = some (a, a') :=
    ⟨_, _, rfl⟩
  obtain ⟨hqsv, hamf⟩ := staging_lawful_iff Qsv.frameFits_frameRun hq Amf.frameFits_frameRun ha
  refine ⟨q, q', a, a', hq, ha, hqsv.mpr ?_, hamf.mpr ?_⟩
  · simp only [Qsv.frameRun, Copies.encoder, Machine.along_reporting_cons]
    exact ⟨trivial, fun _ => ⟨fun _ h => (Option.some_ne_none _ h.symm).elim, fun _ _ => .inl rfl⟩,
      trivial⟩
  · simp only [Amf.frameRun, Copies.encoder, Machine.along_reporting_cons]
    exact ⟨trivial, trivial, fun _ => ⟨fun _ h => (Option.some_ne_none _ h.symm).elim,
      fun _ _ => .inl rfl⟩, trivial⟩

/-- The texture of the first frame is still there when the second is copied. -/
theorem staging_outlives_resize :
    (¬ ∀ s steps, Qsv.copies.encoder.Along Qsv.FrameFits {} Qsv.resizeRun →
      Qsv.copies.encoder.run {} Qsv.resizeRun = some (s, steps) → ∀ k ∈ steps, k.Lawful) ∧
    ¬ ∀ s steps, Amf.copies.encoder.Along Amf.FrameFits {} Amf.resizeRun →
      Amf.copies.encoder.run {} Amf.resizeRun = some (s, steps) → ∀ k ∈ steps, k.Lawful := by
  have hunlike {k : CopyStep} (hk : k.copies = [(some (1920, 1080), resizedFrame.texture)]) :
      ¬ k.Lawful := by
    intro hlawful
    exact absurd (hlawful.copies _ (hk ▸ List.mem_singleton_self _)) (by decide)
  have hqsv : Qsv.copies.encoder.Along Qsv.FrameFits {} Qsv.resizeRun := by
    simp only [Qsv.resizeRun, Qsv.frameRun, List.cons_append, List.nil_append, Copies.encoder,
      Machine.along_reporting_cons]
    exact ⟨trivial, ⟨rfl, fun _ => pitch_of_some (by decide)⟩, trivial,
      ⟨rfl, fun _ => pitch_of_some (by decide)⟩, trivial⟩
  have hamf : Amf.copies.encoder.Along Amf.FrameFits {} Amf.resizeRun := by
    simp only [Amf.resizeRun, Amf.frameRun, List.cons_append, List.nil_append, Copies.encoder,
      Machine.along_reporting_cons]
    exact ⟨trivial, trivial, ⟨rfl, fun _ => pitch_of_some (by decide)⟩, trivial,
      ⟨rfl, fun _ => pitch_of_some (by decide)⟩, trivial⟩
  constructor
  · intro h
    exact hunlike rfl (h _ _ hqsv rfl _ (List.mem_of_getLast? rfl))
  · intro h
    exact hunlike rfl (h _ _ hamf rfl _ (List.mem_of_getLast? rfl))

end TwinScreen.Host
