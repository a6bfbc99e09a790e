import Mathlib.Tactic.Abel
import Mathlib.Tactic.MkIffOfInductiveProp
import TwinScreen.Host.Qsv
import TwinScreen.Lib.Custody

/-!
# TwinScreen.Host.QsvHandles

What the Quick Sync encoder gets from Windows and the runtime and has to give back: the
library and the session; and the buffers it allocates.

* `released_iff` — in which runs the handles are given back and a failed `Start` keeps nothing.
-/

namespace TwinScreen.Host.Qsv

open Lib Lib.Attempt

/-- What the encoder gets, and has to give back. -/
inductive QsvHandle
  | library (h : Handle)
  | session (h : Handle)
  deriving DecidableEq

def QsvCall.receipt : QsvCall → Receipt QsvHandle
  | .loadLibrary _ (some dll) => .acquires (.library dll)
  | .freeLibrary dll => .releases (.library dll)
  | .initEx _ (some session) => .acquires (.session session)
  | .close session => .releases (.session session)
  | _ => .neither

def QsvEncoder.held (s : QsvEncoder) : Multiset QsvHandle :=
  carried .session s.session + carried .library s.qsvDll

def custody : Custodian QsvEncoder QsvInput QsvCall QsvHandle where
  exec := exec
  receipt := QsvCall.receipt
  held := QsvEncoder.held
  Tries s
    | .start _ _ _ _ => True
    | .resize _ _ => s.session.isSome && s.configured
    | _ => False

/-- A session comes from a runtime that is loaded, and that closes it. -/
structure RuntimeInv (s : QsvEncoder) : Prop where
  mfxClose : s.session.isSome → s.mfxClose = true
  qsvDll : s.session.isSome → s.qsvDll.isSome

/-- There is nothing to give back. -/
structure Down (s : QsvEncoder) : Prop where
  session : s.session = none
  qsvDll : s.qsvDll = none

variable {s : QsvEncoder}

theorem Down.held (h : Down s) : s.held = 0 := by
  rw [QsvEncoder.held, h.session, h.qsvDll]
  rfl

theorem Down.runtimeInv (h : Down s) : RuntimeInv s :=
  ⟨by simp [h.session], by simp [h.session]⟩

/-! ## Stop -/

theorem lossless_unloadRuntime :
    Lossless QsvCall.receipt QsvEncoder.held unloadRuntime
      (fun _ s' => s'.qsvDll = none ∧ s'.session = s.session) (fun _ => False) s := by
  intro lost
  cases hsession : s.session <;> cases hdll : s.qsvDll <;>
    simp [unloadRuntime, hdll, hsession, outstanding, QsvCall.receipt, QsvEncoder.held]

/-- A session that `Stop` cannot close is lost. -/
theorem accounts_stop :
    Accounts QsvCall.receipt QsvEncoder.held stop
      (fun _ s' more => Down s' ∧ more = if s.mfxClose then 0 else carried .session s.session)
      (fun _ _ => False) s := by
  have hdown (s' : QsvEncoder) : Down s' ↔ s'.session = none ∧ s'.qsvDll = none :=
    ⟨fun h => ⟨h.session, h.qsvDll⟩, fun h => ⟨h.1, h.2⟩⟩
  intro lost
  cases hclose : s.mfxClose <;> cases hsession : s.session <;> cases hdll : s.qsvDll <;>
    simp [stop, unloadRuntime, hclose, hsession, hdll, outstanding, QsvCall.receipt,
      QsvEncoder.held, hdown]

theorem lossless_stop (h : RuntimeInv s) :
    Lossless QsvCall.receipt QsvEncoder.held stop (fun _ => Down) (fun _ => False) s := by
  apply Accounts.lossless
  apply accounts_stop.mono
  · rintro _ s' _ ⟨hdown, rfl⟩
    refine ⟨hdown, ?_⟩
    split
    case isTrue => rfl
    case isFalse hclose =>
      have hnone : s.session = none := by
        simpa using fun hsome => hclose (h.mfxClose hsome)
      rw [hnone, carried_none]
  · exact fun _ _ h' => h'.elim

/-! ## Start -/

/-- A library that is loaded already is lost to the candidate that is usable. -/
theorem accounts_loadFrom (runtime : String → Runtime) (names : List String) :
    Accounts QsvCall.receipt QsvEncoder.held (loadFrom runtime names)
      (fun _ s' more => more = carried .library s.qsvDll ∧ s'.session = s.session ∧
        s'.mfxClose = true ∧ s'.qsvDll.isSome)
      (fun s' more => more = 0 ∧ s'.session = s.session ∧ s'.qsvDll = s.qsvDll) s := by
  induction names generalizing s with
  | nil =>
      intro lost
      simp [loadFrom]
  | cons name names ih =>
      intro lost
      simp only [loadFrom, seen_bind, seen_issue]
      cases hdll : (runtime name).dll with
      | none => exact ih lost
      | some dll =>
          simp only [seen_bind, seen_update]
          by_cases hcomplete : (runtime name).complete = true
          · have hexports := hcomplete
            simp only [Runtime.complete, Bool.and_eq_true] at hexports
            simp [hcomplete, hexports, QsvEncoder.resolve, outstanding, QsvCall.receipt,
              QsvEncoder.held, ← Multiset.singleton_add]
            abel
          · have hfreed : outstanding QsvCall.receipt (outstanding QsvCall.receipt
                (some (s.held + lost)) (.loadLibrary name (some dll))) (.freeLibrary dll) =
                some ((s.resolve (runtime name)).held + lost) := by
              simp [outstanding, QsvCall.receipt]
              rfl
            rw [if_neg hcomplete, seen_bind, seen_issue, hfreed]
            exact ih lost

/-- A session that there is already is lost. -/
theorem accounts_initSession (first second : Option Handle) :
    Accounts QsvCall.receipt QsvEncoder.held (initSession first second)
      (fun _ s' more => more = carried .session s.session ∧ s'.mfxClose = s.mfxClose ∧
        s'.qsvDll = s.qsvDll)
      (fun s' more => more = carried .session s.session ∧ s'.session = none) s := by
  intro lost
  have hheld : carried .session (first.or second) + (s.held + lost) =
      { s with session := first.or second : QsvEncoder }.held +
        (carried .session s.session + lost) := by
    simp only [QsvEncoder.held]
    abel
  cases first <;> cases second <;>
    simp_all [initSession, outstanding, QsvCall.receipt]

/-- What the handles and their invariant depend on. -/
def QsvEncoder.runtime (s : QsvEncoder) : Option Handle × Option Handle × Bool :=
  (s.session, s.qsvDll, s.mfxClose)

theorem held_of_runtime {s' : QsvEncoder} (h : s'.runtime = s.runtime) : s'.held = s.held := by
  simp only [QsvEncoder.runtime, Prod.mk.injEq] at h
  rw [QsvEncoder.held, h.1, h.2.1, QsvEncoder.held]

theorem RuntimeInv.of_runtime {s' : QsvEncoder} (hs : RuntimeInv s) (h : s'.runtime = s.runtime) :
    RuntimeInv s' := by
  simp only [QsvEncoder.runtime, Prod.mk.injEq] at h
  obtain ⟨hsession, hdll, hclose⟩ := h
  exact ⟨by rw [hsession, hclose]; exact hs.mfxClose, by rw [hsession, hdll]; exact hs.qsvDll⟩

theorem keeps_configure (env : ConfigureEnv) :
    Keeps (fun k => k.receipt = .neither) QsvEncoder.runtime (configure env) := by
  simp [Keeps, configure, QsvCall.receipt, QsvEncoder.runtime]

theorem keeps_setBitrate (bitrate : UInt32) (status : MfxStatus) :
    Keeps (fun k => k.receipt = .neither) QsvEncoder.runtime (setBitrate bitrate status) := by
  simp [Keeps, setBitrate, QsvCall.receipt, QsvEncoder.runtime]

theorem keeps_encode (frame : Frame) (env : EncodeEnv) :
    Keeps (fun k => k.receipt = .neither) QsvEncoder.runtime (encode frame env) := by
  simp [Keeps, encode, copyFrameToNv12, CopyCalls.copyFrameToNv12, copyCalls, QsvCall.receipt,
    QsvEncoder.runtime]
  grind

/-- `Start` once the runtime is loaded. -/
theorem accounts_afterLoad (hclose : s.mfxClose = true) (hdll : s.qsvDll.isSome) (env : StartEnv) :
    Accounts QsvCall.receipt QsvEncoder.held (do
        orCleanUp (initSession env.initEx env.initExRetry) unloadRuntime
        orCleanUp (configure env.configure) stop)
      (fun _ s' more => more = carried .session s.session ∧ RuntimeInv s')
      (fun s' more => more = carried .session s.session ∧ Down s') s := by
  apply accounts_bind (accounts_orCleanUp (accounts_initSession env.initEx env.initExRetry) ?_)
  · rintro _ s₁ _ ⟨rfl, hclose₁, hdll₁⟩
    have hinv : RuntimeInv s₁ := ⟨fun _ => hclose₁.trans hclose, fun _ => by rw [hdll₁]; exact hdll⟩
    have hconfigure : Lossless QsvCall.receipt QsvEncoder.held
        (orCleanUp (configure env.configure) stop) (fun _ => RuntimeInv) Down s₁ := by
      apply lossless_orCleanUp
        (((keeps_configure env.configure).lossless (fun _ _ => held_of_runtime) s₁).mono
          (fun _ _ h => hinv.of_runtime h) fun _ h => hinv.of_runtime h)
      exact fun _ h => (lossless_stop h).mono (fun _ _ h => h) fun _ h => h.elim
    apply hconfigure.accounts.mono
    · exact fun _ _ _ h => ⟨by rw [h.2, zero_add], h.1⟩
    · exact fun _ _ h => ⟨by rw [h.2, zero_add], h.1⟩
  · rintro s₁ _ ⟨rfl, hnone⟩
    apply lossless_unloadRuntime.accounts.mono
    · rintro _ s' _ ⟨⟨hfreed, hsame⟩, rfl⟩
      exact ⟨zero_add _, ⟨hsame.trans hnone, hfreed⟩⟩
    · exact fun _ _ h => h.1.elim

/-- `Start` leaves the handles it finds alone when there is no runtime, and else loses them. -/
theorem accounts_start (size : Size) (fps bitrate : UInt32) (env : StartEnv) :
    Accounts QsvCall.receipt QsvEncoder.held (start size fps bitrate env)
      (fun _ s' more => RuntimeInv s' ∧ more = s.held)
      (fun s' more => (s'.session = s.session ∧ s'.qsvDll = s.qsvDll ∧ more = 0) ∨
        (Down s' ∧ more = s.held)) s := by
  apply accounts_update_bind rfl
  apply accounts_bind ((accounts_loadFrom env.runtime kCandidates).mono (fun _ _ _ h => h) ?_)
  · rintro _ s₁ _ ⟨rfl, hsession, hclose, hdll⟩
    have hlost : carried .session s₁.session + carried .library s.qsvDll = s.held := by
      rw [hsession]
      rfl
    apply (accounts_afterLoad hclose hdll env).mono
    · rintro _ s' _ ⟨rfl, hinv⟩
      exact ⟨hinv, hlost⟩
    · rintro s' _ ⟨rfl, hdown⟩
      exact .inr ⟨hdown, hlost⟩
  · rintro s' _ ⟨rfl, hsession, hdll⟩
    exact .inl ⟨hsession, hdll, rfl⟩

theorem lossless_start (h : Down s) (size : Size) (fps bitrate : UInt32) (env : StartEnv) :
    Lossless QsvCall.receipt QsvEncoder.held (start size fps bitrate env) (fun _ => RuntimeInv)
      Down s := by
  apply Accounts.lossless
  apply (accounts_start size fps bitrate env).mono
  · exact fun _ _ _ h' => ⟨h'.1, h'.2.trans h.held⟩
  · rintro s' _ (⟨hsession, hdll, rfl⟩ | ⟨hdown, rfl⟩)
    · exact ⟨⟨hsession.trans h.session, hdll.trans h.qsvDll⟩, rfl⟩
    · exact ⟨hdown, h.held⟩

/-- A `Resize` is a `Start` of an encoder that has been stopped. -/
theorem lossless_resize (h : RuntimeInv s) (size : Size) (env : StartEnv) :
    Lossless QsvCall.receipt QsvEncoder.held (resize size env) (fun _ => RuntimeInv)
      (fun s' => if s.session.isSome && s.configured then Down s' else s' = s) s := by
  apply lossless_restart (lossless_stop h)
  exact fun s₁ h₁ => lossless_start h₁ size s₁.fps s₁.bitrate env

/-! ## every call -/

/-- `Start` finds no library loaded. -/
def Tidy (s : QsvEncoder) : QsvInput → Prop
  | .start _ _ _ _ => s.qsvDll = none
  | _ => True

/-- The inputs that neither load nor unload a library. -/
def QsvInput.Works : QsvInput → Prop
  | .encode _ _ | .setBitrate _ _ | .requestKeyframe => True
  | .start _ _ _ _ | .resize _ _ | .stop => False

theorem lossless_exec {i : QsvInput} (hi : i.Works) :
    Lossless QsvCall.receipt QsvEncoder.held (exec i) (fun _ s' => s'.runtime = s.runtime)
      (fun s' => s'.runtime = s.runtime) s := by
  cases i with
  | encode frame env =>
      exact ((keeps_encode frame env).bind fun _ => keeps_pure ()).lossless
        (fun _ _ => held_of_runtime) s
  | setBitrate bitrate status =>
      exact (keeps_setBitrate bitrate status).lossless (fun _ _ => held_of_runtime) s
  | requestKeyframe => exact fun lost => ⟨rfl, rfl⟩
  | _ => exact hi.elim

theorem accounts_exec (s : QsvEncoder) (i : QsvInput) :
    Accounts QsvCall.receipt QsvEncoder.held (exec i) (fun _ _ _ => True) (fun _ _ => True) s := by
  by_cases hi : i.Works
  · exact (lossless_exec hi).accounts.forget
  · cases i with
    | start size fps bitrate env => exact (accounts_start size fps bitrate env).forget
    | resize size env =>
        apply accounts_restart trivial (accounts_stop.mono (fun _ _ _ _ => trivial) fun _ _ h => h)
        exact fun s₁ _ => (accounts_start size s₁.fps s₁.bitrate env).forget
    | stop => exact accounts_stop.forget
    | _ => exact absurd trivial hi

/-- A tidy step loses nothing, and a `Start` that fails keeps nothing. -/
theorem lossless_exec_tidy (h : RuntimeInv s) {i : QsvInput} (hok : Tidy s i) :
    Lossless QsvCall.receipt QsvEncoder.held (exec i) (fun _ => RuntimeInv)
      (fun s' => RuntimeInv s' ∧ (custody.Tries s i → s'.held = 0)) s := by
  by_cases hi : i.Works
  · apply (lossless_exec hi).mono fun _ _ h' => h.of_runtime h'
    intro s' h'
    refine ⟨h.of_runtime h', fun htries => ?_⟩
    cases i <;> first | exact htries.elim | exact hi.elim
  · cases i with
    | start size fps bitrate env =>
        have hdll : s.qsvDll = none := hok
        have hdown : Down s := ⟨by simpa [hdll] using h.qsvDll, hdll⟩
        apply (lossless_start hdown size fps bitrate env).mono fun _ _ h' => h'
        exact fun s' h' => ⟨h'.runtimeInv, fun _ => h'.held⟩
    | resize size env =>
        apply (lossless_resize h size env).mono fun _ _ h' => h'
        intro s' h'
        split at h'
        case isTrue => exact ⟨h'.runtimeInv, fun _ => h'.held⟩
        case isFalse hidle =>
          rw [h']
          exact ⟨h, fun htries => absurd htries hidle⟩
    | stop => exact (lossless_stop h).mono (fun _ _ h' => h'.runtimeInv) fun _ h' => h'.elim
    | _ => exact absurd trivial hi

/-- A `Start` of an encoder with a library loses it, or fails with it. -/
theorem accounts_exec_untidy {i : QsvInput} (hnot : ¬ Tidy s i) :
    Accounts QsvCall.receipt QsvEncoder.held (exec i) (fun _ _ more => more ≠ 0)
      (fun s' more => more = 0 → custody.Tries s i ∧ s'.held ≠ 0) s := by
  cases i with
  | start size fps bitrate env =>
      have hheld : s.held ≠ 0 := by
        intro hzero
        simp only [QsvEncoder.held, add_eq_zero, carried_eq_zero_iff] at hzero
        exact hnot hzero.2
      apply (accounts_start size fps bitrate env).mono
      · exact fun _ _ _ h' => h'.2 ▸ hheld
      · rintro s' _ (⟨hsession, hdll, rfl⟩ | ⟨-, rfl⟩) hzero
        · rw [QsvEncoder.held, hsession, hdll]
          exact ⟨trivial, hheld⟩
        · exact absurd hzero hheld
  | _ => exact absurd trivial hnot

theorem rules : custody.Rules .stop (fun _ => True) RuntimeInv Tidy where
  accounts i s _ := accounts_exec s i
  inv _ _ := trivial
  keeps _ _ h hok := lossless_exec_tidy h hok
  loses _ _ _ hnot := accounts_exec_untidy hnot
  empties _ h := (lossless_stop h).mono (fun _ _ h' => h'.held) fun _ h' => h'

/-- A second `Stop` does nothing. -/
theorem stop_stop (s : QsvEncoder) : stop (stop s).2.1 = (some (), (stop s).2.1, []) := by
  rcases s with ⟨dll, session, configured, initEx, close, encInit, encReset, encClose, _⟩
  cases dll <;> cases session <;> cases close <;> cases encClose <;> rfl

/-! ## buffers -/

/-- `Start` comes to its buffers. -/
structure StartEnv.Reaches (env : StartEnv) : Prop where
  runtime : Loadable env.runtime kCandidates
  initEx : (env.initEx.or env.initExRetry).isSome
  encodeInit : env.configure.encodeInit.initialized = true

def NoBuffers (s : QsvEncoder) : Prop := s.nv12 = 0 ∧ s.bs = 0

/-- A `Start` that fails leaves no buffer when it does not come to them and finds none, or
does not get the first and finds no second. -/
@[mk_iff]
structure BuffersTidy (s : QsvEncoder) (size : Size) (fps bitrate : UInt32) (env : StartEnv) :
    Prop where
  before : ¬ env.Reaches → NoBuffers s
  nv12 : env.Reaches →
    allocated (nv12Bytes (encSide size.1, encSide size.2)) env.configure.nv12 = 0 → s.bs = 0
  bs : env.Reaches →
    allocated (nv12Bytes (encSide size.1, encSide size.2)) env.configure.nv12 ≠ 0 →
      allocated (bsBytes bitrate (fpsOr30 fps) (encSide size.1, encSide size.2))
        env.configure.bs ≠ 0

theorem wp_start_buffers (s : QsvEncoder) (size : Size) (fps bitrate : UInt32) (env : StartEnv) :
    Wp (fun _ => True) (start size fps bitrate env) (fun _ _ => BuffersTidy s size fps bitrate env)
      (fun s' => NoBuffers s' ↔ BuffersTidy s size fps bitrate env) s := by
  simp only [start, wp_bind, wp_update]
  apply (wp_loadFrom env.runtime kCandidates).mono
  · rintro _ s₁ ⟨hruntime, hsize, hfps, hbitrate, hnv12, hbs⟩
    dsimp only at hsize hfps hbitrate hnv12 hbs
    simp [initSession, configure, unloadRuntime, stop, hsize, hfps, hbitrate, NoBuffers]
    grind [BuffersTidy, StartEnv.Reaches, NoBuffers]
  · rintro s₁ ⟨hruntime, -, hnv12, hbs⟩
    have hnot : ¬ env.Reaches := fun hreaches => hruntime hreaches.runtime
    rw [NoBuffers, hnv12, hbs]
    exact ⟨fun hnone => ⟨fun _ => hnone, fun h => absurd h hnot, fun h => absurd h hnot⟩,
      fun h => h.before hnot⟩

theorem wp_stop_buffers : Wp (fun _ => True) stop
    (fun _ s' => s'.fps = s.fps ∧ s'.bitrate = s.bitrate ∧ s'.nv12 = s.nv12 ∧ s'.bs = s.bs)
    (fun _ => False) s := by
  simp [stop, unloadRuntime]

/-- A step leaves no buffer when its `Start` fails. -/
def BuffersFreed (s : QsvEncoder) : QsvInput → Prop
  | .start size fps bitrate env => BuffersTidy s size fps bitrate env
  | .resize size env =>
      s.session.isSome && s.configured → BuffersTidy s size s.fps s.bitrate env
  | _ => True

theorem failsInto_noBuffers_iff (s : QsvEncoder) (i : QsvInput) :
    custody.FailsInto NoBuffers s i ↔ BuffersFreed s i := by
  cases i with
  | start size fps bitrate env =>
      exact (forall_prop_of_true trivial).trans
        (gaveUp_imp_iff_of (wp_start_buffers s size fps bitrate env))
  | resize size env =>
      apply forall_congr'
      intro hready
      have hcond : (s.session.isSome && s.configured) = true := hready
      refine gaveUp_imp_iff_of (x := resize size env) ?_
      rw [resize, wp_bind, wp_state, wp_bind, wp_check, if_pos hcond, wp_bind]
      apply wp_stop_buffers.mono _ fun _ h => h.elim
      rintro _ s₁ ⟨hfps, hbitrate, hnv12, hbs⟩
      rw [wp_bind, wp_state, ← hfps, ← hbitrate]
      have hsame : BuffersTidy s size s₁.fps s₁.bitrate env ↔
          BuffersTidy s₁ size s₁.fps s₁.bitrate env := by
        simp only [buffersTidy_iff, NoBuffers, hnv12, hbs]
      rw [hsame]
      exact wp_start_buffers s₁ size s₁.fps s₁.bitrate env
  | _ => exact iff_of_true (fun htries => htries.elim) trivial

/-- **Quick Sync**: over a run of calls with any outcomes, a `Start` that fails keeps neither
library, session nor buffer, and after the destructor's `Stop` both handles have been given
back, none twice, exactly when no `Start` finds a library and each that fails has no buffer
to keep. -/
theorem released_iff (inputs : List QsvInput) :
    custody.Released .stop NoBuffers {} inputs ↔
      qsvEncoder.Along (fun s i => Tidy s i ∧ BuffersFreed s i) {} inputs :=
  rules.released_iff_along failsInto_noBuffers_iff stop_stop (by constructor <;> simp)

end TwinScreen.Host.Qsv
