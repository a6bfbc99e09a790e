import TwinScreen.Host.CaptureCustody
import TwinScreen.Lib.Trace

/-!
# TwinScreen.Host.CaptureCom

COM on the thread of `CaptureLoop`, from `CoInitializeEx` to `CoUninitialize`.

* `com_order` — which of the objects are released while COM is still up.
-/

namespace TwinScreen.Host.CaptureThread

open Lib

/-! ## COM -/

/-- What a call does to the thread's COM. -/
def CaptureCall.comAfter (up : Bool) : CaptureCall → Bool
  | .acquired .com => true
  | .released .com _ => false
  | _ => up

/-- COM is up after these calls. -/
def comUp (calls : List CaptureCall) : Bool := calls.foldl CaptureCall.comAfter false

/-- What is released at a place. -/
def ThreadPc.releases : ThreadPc → Option Resource
  | .createEvent | .initClient => some .mix
  | .cleaning .client _ => some .client
  | .cleaning .service _ => some .service
  | .cleaning .close _ => some .event
  | .cleaning .uninit _ => some .com
  | .cleaning .device _ => some .device
  | .cleaning .enumerator _ => some .enumerator
  | _ => none

namespace AudioCapture

variable {s s' : AudioCapture} {pc : ThreadPc} {os : List CaptureCall} {ok : Bool} {r : Resource}

/-- At most one object is released. -/
theorem length_releaseIf_le (held : Bool) (r : Resource) (byStop : Bool) :
    (releaseIf held r byStop).length ≤ 1 := by
  cases held <;> simp [releaseIf]

/-- A step of the thread makes one call at most, which goes with COM, and releases something at
its place only. -/
theorem calls_threadStep (hstep : s.threadStep ok pc = some (s', os)) :
    os.length ≤ 1 ∧ s'.com = os.foldl CaptureCall.comAfter s.com ∧
      ∀ r byStop, .released r byStop ∈ os → pc.releases = some r := by
  have hif (held : Bool) {r : Resource} (hr : r ≠ .com) :
      (releaseIf held r false).length ≤ 1 ∧
        s.com = (releaseIf held r false).foldl CaptureCall.comAfter s.com ∧
        ∀ r' byStop, .released r' byStop ∈ releaseIf held r false → some r = some r' := by
    cases held <;> cases r <;> simp_all [releaseIf, CaptureCall.comAfter]
  cases pc with
  | coInitialize | enumerator | endpoint | activate | mixFormat | createEvent | initClient
  | setEventHandle | getService | clientStart | waiting | draining =>
      cases ok <;> cases hstep <;>
        simp [CaptureCall.comAfter, ThreadPc.releases, goto, gotoIf, eq_comm]
  | publish | ready | top | refusing =>
      cases hstep
      simp [goto]
  | exited => contradiction
  | cleaning stage failed =>
      cases stage with
      | close =>
          simp only [threadStep, clean] at hstep
          split at hstep <;> cases hstep <;>
            simp [CaptureCall.comAfter, ThreadPc.releases, goto, eq_comm]
      | uninit =>
          cases hstep
          simp [CaptureCall.comAfter, ThreadPc.releases, goto, eq_comm]
      | null | reply =>
          cases hstep
          simp [goto]
      | client =>
          cases hstep
          exact hif s.client (by decide)
      | service =>
          cases hstep
          exact hif s.service (by decide)
      | device =>
          cases hstep
          exact hif s.device (by decide)
      | enumerator =>
          cases hstep
          exact hif s.enumerator (by decide)

/-- `Start` and `Stop` make one call at most, acquire nothing, and leave COM alone. -/
theorem calls_mainStep (hstep : s.mainStep = some (s', os)) :
    os.length ≤ 1 ∧ s'.com = s.com ∧
      ∀ c ∈ os, c.receipt = .neither ∨ ∃ r, c = .released r true := by
  have hif (held : Bool) (r : Resource) :
      ∀ c ∈ releaseIf held r true, c.receipt = .neither ∨ ∃ r, c = .released r true := by
    cases held <;> simp [releaseIf]
  cases mainDoes_of_step hstep with
  | cleanClient => exact ⟨length_releaseIf_le _ _ _, rfl, hif s.client .client⟩
  | cleanService => exact ⟨length_releaseIf_le _ _ _, rfl, hif s.service .service⟩
  | cleanEvent => exact ⟨length_releaseIf_le _ _ _, rfl, hif s.hEvent .event⟩
  | _ => simp [CaptureCall.receipt]

/-- The pointers of the object are released with COM, those of `CaptureLoop` without. -/
theorem com_of_releases (h : s.Holds pc) (hr : pc.releases = some r) :
    (r = .client ∨ r = .service → s.com = true) ∧
      (r = .device ∨ r = .enumerator → s.com = false) := by
  have hup : .com ∈ pc.must → s.com = true := h.must .com
  have hdown : .com ∉ pc.may → s.com = false := h.not_holds
  cases pc with
  | cleaning stage failed =>
      cases stage <;> cases hr <;> simp_all [ThreadPc.must, ThreadPc.may]
  | _ => cases hr <;> simp

/-- A call that is made while COM is up or down, as the law says. -/
def ComLaw (before : List CaptureCall) : CaptureCall → Prop
  | .released .client _ | .released .service _ => comUp before = true
  | .released .device _ | .released .enumerator _ => comUp before = false
  | _ => True

theorem nil_or_singleton (h : os.length ≤ 1) : os = [] ∨ ∃ c, os = [c] :=
  (Nat.le_one_iff_eq_zero_or_eq_one.mp h).imp List.length_eq_zero_iff.mp List.length_eq_one_iff.mp

/-- **Step lemma**, of COM. -/
theorem com_step (h : s.Sound) {tr : List CaptureCall} (hup : s.com = comUp tr)
    {i : CaptureInput} (hstep : s.step i = some (s', os)) :
    s'.com = comUp (tr ++ os) ∧ (Each ComLaw tr → Each ComLaw (tr ++ os)) := by
  have hcalls : os.length ≤ 1 ∧ s'.com = os.foldl CaptureCall.comAfter s.com ∧
      ∀ c ∈ os, ComLaw tr c := by
    obtain ⟨-, -, hby⟩ := sound_step h hstep
    simp only [step, Option.ite_none_left_eq_some] at hstep
    obtain ⟨hmain, hstep⟩ := hstep
    cases i with
    | start | stop =>
        simp only [Option.ite_none_right_eq_some] at hstep
        obtain ⟨-, hstep⟩ := hstep
        cases hstep
        simp
    | main =>
        obtain ⟨hlength, hcom, hcalls⟩ := calls_mainStep hstep
        have hneither : ∀ c ∈ os, c.receipt = .neither := by
          intro c hc
          rcases hcalls c hc with hneither | ⟨r, rfl⟩
          · exact hneither
          · exact absurd hc (hby r)
        rcases nil_or_singleton hlength with rfl | ⟨c, rfl⟩
        · exact ⟨by simp, hcom, by simp⟩
        · have hc := hneither c (by simp)
          cases c <;> simp_all [CaptureCall.receipt, CaptureCall.comAfter, ComLaw]
    | thread ok =>
        obtain ⟨pc, hpc, hstep⟩ := Option.bind_eq_some_iff.mp hstep
        obtain ⟨hlength, hcom, hreleases⟩ := calls_threadStep hstep
        refine ⟨hlength, hcom, fun c hc => ?_⟩
        cases c with
        | released r byStop =>
            obtain ⟨hobject, hlocal⟩ := com_of_releases (h.holds pc hpc) (hreleases r byStop hc)
            rw [hup] at hobject hlocal
            cases r <;> simp_all [ComLaw]
        | _ => trivial
  obtain ⟨hlength, hcom, hlaw⟩ := hcalls
  refine ⟨by rw [comUp, List.foldl_append, hcom, hup]; rfl, fun heach => ?_⟩
  rcases nil_or_singleton hlength with rfl | ⟨c, rfl⟩
  · rwa [List.append_nil]
  · exact (each_concat tr c).mpr ⟨heach, hlaw c (by simp)⟩

end AudioCapture

open CaptureThread.AudioCapture in
/-- **COM pointers.**  In every run the pointers of the object are released while the thread's
COM is up, and `CaptureLoop`'s own, the enumerator and the device, when it is down: `finish` and
the end of the loop call `CoUninitialize` before the destructors of the locals. -/
theorem com_order {inputs : List CaptureInput} {s : AudioCapture} {calls : List CaptureCall}
    (hrun : capture.run {} inputs = some (s, calls)) : Each ComLaw calls := by
  have hinv := @capture.run_invariant _ _ _
    (fun s tr => s.Sound ∧ s.com = comUp tr ∧ Each ComLaw tr) (fun _ _ => True)
    (fun s tr i s' o h _ hstep => ?_) inputs {} s [] calls ⟨sound_start, rfl, each_nil⟩
    (capture.along_true {} inputs) hrun
  · exact hinv.2.2
  · obtain ⟨hsound, hup, heach⟩ := h
    obtain ⟨hup', heach'⟩ := com_step hsound hup hstep
    exact ⟨(sound_step hsound hstep).2.1, hup', heach' heach⟩

/-- A start without a render endpoint. -/
def noEndpoint : List CaptureInput :=
  [.start, .main, .main, .thread true, .thread true, .thread false] ++
    List.replicate 7 (.thread true) ++ [.main, .main]

/-- The enumerator is released without COM. -/
theorem com_order_noEndpoint :
    ∃ s, capture.run {} noEndpoint = some (s, [.starts, .acquired .com, .acquired .enumerator,
        .released .com false, .released .enumerator false, .joined]) ∧
      AudioCapture.ComLaw [.starts, .acquired .com, .acquired .enumerator, .released .com false]
        (.released .enumerator false) :=
  ⟨_, rfl, @com_order noEndpoint _ _ rfl [.starts, .acquired .com, .acquired .enumerator,
    .released .com false] (.released .enumerator false) [.joined] rfl⟩

end TwinScreen.Host.CaptureThread
