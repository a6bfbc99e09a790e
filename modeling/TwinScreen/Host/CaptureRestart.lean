import TwinScreen.Host.CaptureThread
import TwinScreen.Lib.Trace

/-!
# TwinScreen.Host.CaptureRestart

What the thread of `CaptureLoop` does while `Start` and `Stop` are where they are: the phases
of a start, a service, a stop and a lost device.

* `capture_terminates_iff` — when `Start` ends the process.
-/

namespace TwinScreen.Host.CaptureThread

open Lib

/-! ## phases -/

/-- The device has been lost since the last join. -/
def lostAfter (lost : Bool) : CaptureCall → Bool
  | .deviceLost => true
  | .joined => false
  | _ => lost

/-- The device is lost, and the thread that has found out has not been joined. -/
def lost (calls : List CaptureCall) : Bool := calls.foldl lostAfter false

/-- `Start` still waits for the thread. -/
def ThreadPc.settingUp : ThreadPc → Bool
  | .top | .waiting | .draining | .cleaning _ false | .cleaning .device _
  | .cleaning .enumerator _ | .exited => false
  | _ => true

/-- The thread has told `Start` of its success. -/
def ThreadPc.serving : ThreadPc → Bool
  | .cleaning .reply _ => false
  | .top | .waiting | .draining | .cleaning _ false | .exited => true
  | _ => false

/-- The thread has told `Start` of its failure. -/
def ThreadPc.failing : ThreadPc → Bool
  | .cleaning .device true | .cleaning .enumerator true | .exited => true
  | _ => false

/-- The steps that the thread has to take from a place in its clean-up at most. -/
def Cleanup.steps : Cleanup → Nat
  | .client => 8
  | .service => 7
  | .close => 6
  | .null => 5
  | .uninit => 4
  | .reply => 3
  | .device => 2
  | .enumerator => 1

/-- The steps that a thread which serves has to take until its end at most, once it is to stop. -/
def ThreadPc.steps : ThreadPc → Nat
  | .exited => 0
  | .cleaning stage _ => stage.steps
  | .top => 9
  | .draining => 10
  | _ => 11

/-- The thread has left its loop. -/
def ThreadPc.past : ThreadPc → Bool
  | .cleaning _ _ | .exited => true
  | _ => false

namespace AudioCapture

/-- A thread that serves: it runs unless its device is lost. -/
structure Serves (s : AudioCapture) (pc : ThreadPc) (gone : Bool) : Prop where
  serving : pc.serving = true
  running : s.running = !gone
  past : pc.past = true → gone = true

/-- A thread that `Stop` waits for: it has been told to stop. -/
structure Leaves (s : AudioCapture) (pc : ThreadPc) : Prop where
  serving : pc.serving = true
  running : s.running = false

/-- A thread that sets up: it has not answered yet. -/
structure SetsUp (s : AudioCapture) (pc : ThreadPc) (gone : Bool) : Prop where
  settingUp : pc.settingUp = true
  ready : s.ready = none
  running : s.running = true ↔ pc = .ready
  kept : gone = false

/-- A thread that has failed. -/
structure Fails (s : AudioCapture) (pc : ThreadPc) (gone : Bool) : Prop where
  failing : pc.failing = true
  running : s.running = false
  kept : gone = false

/-- What the thread does while `Start` or `Stop` is at a place. -/
def PhaseAt (s : AudioCapture) (gone : Bool) : MainPc → Option ThreadPc → Prop
  | .terminated, _ => gone = true
  | .idle, some pc | .starting, some pc | .stopping, some pc | .clearing, some pc =>
      s.Serves pc gone
  | .spawning, some pc | .joinStopped, some pc => s.Serves pc gone ∧ gone = true
  | .testing, some pc | .signalling, some pc | .joining, some pc => s.Leaves pc
  | .awaiting, some pc =>
      s.SetsUp pc gone ∨ (s.ready = some true ∧ s.Serves pc gone) ∨
        (s.ready = some false ∧ s.Fails pc gone)
  | .joinFailed, some pc => s.Fails pc gone
  | .cleanClient, some _ | .cleanService, some _ | .cleanEvent, some _ => False
  | .clearing, none | .testing, none | .signalling, none | .joining, none | .awaiting, none
  | .joinFailed, none => False
  | _, none => s.running = false ∧ gone = false

/-- What the thread does while `Start` or `Stop` is where it is. -/
def Phase (s : AudioCapture) (gone : Bool) : Prop := s.PhaseAt gone s.main s.thread

variable {s s' : AudioCapture} {pc : ThreadPc} {os : List CaptureCall} {ok gone : Bool}

theorem lost_releaseIf (held : Bool) (r : Resource) (byStop : Bool) :
    (releaseIf held r byStop).foldl lostAfter gone = gone := by
  cases held <;> simp [releaseIf, lostAfter]

theorem starts_releaseIf (held : Bool) (r : Resource) (byStop : Bool) :
    .starts ∉ releaseIf held r byStop := by
  cases held <;> simp [releaseIf]

/-- A step of the clean-up. -/
theorem clean_goes (s : AudioCapture) (failed : Bool) (stage : Cleanup) :
    (s.clean failed stage).1.thread = some (s.cleanNext failed stage) ∧
      (s.clean failed stage).1.running = s.running ∧
      (s.clean failed stage).1.ready = (if stage = .reply then some false else s.ready) ∧
      (s.clean failed stage).2.foldl lostAfter gone = gone := by
  cases stage with
  | close =>
      rw [clean]
      split <;> simp_all [goto, lostAfter, cleanNext]
  | _ => simp [clean, goto, lost_releaseIf, lostAfter, cleanNext]

theorem steps_cleanNext_lt (s : AudioCapture) (failed : Bool) (stage : Cleanup) :
    (s.cleanNext failed stage).steps < stage.steps := by
  cases stage with
  | close => cases hevent : s.hEvent <;> simp [cleanNext, hevent, ThreadPc.steps, Cleanup.steps]
  | uninit => cases failed <;> simp [cleanNext, ThreadPc.steps, Cleanup.steps]
  | _ => simp [cleanNext, ThreadPc.steps, Cleanup.steps]

/-- After a success it replies no more. -/
theorem serving_cleanNext (s : AudioCapture) {stage : Cleanup} :
    (s.cleanNext false stage).serving = true ∧ (s.cleanNext false stage).past = true := by
  cases stage with
  | close => cases hevent : s.hEvent <;> simp [cleanNext, hevent, ThreadPc.serving, ThreadPc.past]
  | _ => exact ⟨rfl, rfl⟩

/-- A thread that serves goes on to. -/
theorem serves_step (h : s.Serves pc gone) (hstep : s.threadStep ok pc = some (s', os)) :
    ∃ pc', s'.thread = some pc' ∧ s'.Serves pc' (os.foldl lostAfter gone) ∧
      s'.ready = s.ready ∧ (gone = true → os.foldl lostAfter gone = true) := by
  obtain ⟨hserving, hrunning, hpast⟩ := h
  cases pc with
  | top =>
      cases hstep
      cases gone <;>
        exact ⟨_, rfl, ⟨by simp [hrunning, ThreadPc.serving], hrunning, by
          simp [hrunning, ThreadPc.past]⟩, rfl, id⟩
  | waiting =>
      cases hstep
      cases ok <;> exact ⟨_, rfl, ⟨rfl, hrunning, by simp [ThreadPc.past]⟩, rfl, id⟩
  | draining =>
      cases ok with
      | false =>
          cases hstep
          exact ⟨_, rfl, ⟨rfl, rfl, by simp [ThreadPc.past]⟩, rfl, fun _ => rfl⟩
      | true =>
          cases hstep
          exact ⟨_, rfl, ⟨rfl, hrunning, by simp [ThreadPc.past]⟩, rfl, id⟩
  | cleaning stage failed =>
      have hfailed : failed = false := by
        cases failed <;> cases stage <;> simp_all [ThreadPc.serving]
      have hreply : stage ≠ .reply := by rintro rfl; contradiction
      subst hfailed
      obtain ⟨hthread, hrunning', hready, hgone⟩ := @clean_goes gone s false stage
      rw [Option.some.inj hstep] at hthread hrunning' hready hgone
      obtain ⟨hserving', hpast'⟩ := @serving_cleanNext s stage
      rw [hgone]
      exact ⟨_, hthread, ⟨hserving', hrunning'.trans hrunning, fun _ => hpast rfl⟩, by
        simpa [hreply] using hready, id⟩
  | _ => contradiction

/-- A thread that `Stop` waits for comes nearer to its end. -/
theorem leaves_step (h : s.Leaves pc) (hstep : s.threadStep ok pc = some (s', os)) :
    ∃ pc', s'.thread = some pc' ∧ s'.Leaves pc' ∧ pc'.steps < pc.steps := by
  obtain ⟨hserving, hrunning⟩ := h
  cases pc with
  | top =>
      cases hstep
      exact ⟨_, rfl, ⟨by simp [hrunning, ThreadPc.serving], hrunning⟩, by
        simp [hrunning, ThreadPc.steps, Cleanup.steps]⟩
  | waiting =>
      cases hstep
      cases ok <;> exact ⟨_, rfl, ⟨rfl, hrunning⟩, by decide⟩
  | draining =>
      cases ok <;> cases hstep
      · exact ⟨_, rfl, ⟨rfl, rfl⟩, by decide⟩
      · exact ⟨_, rfl, ⟨rfl, hrunning⟩, by decide⟩
  | cleaning stage failed =>
      have hfailed : failed = false := by
        cases failed <;> cases stage <;> simp_all [ThreadPc.serving]
      subst hfailed
      obtain ⟨hthread, hrunning', -, -⟩ := @clean_goes false s false stage
      rw [Option.some.inj hstep] at hthread hrunning'
      exact ⟨_, hthread, ⟨(@serving_cleanNext s stage).1, hrunning'.trans hrunning⟩,
        steps_cleanNext_lt s false stage⟩
  | _ => contradiction

/-- A thread that has failed goes to its end. -/
theorem fails_step (h : s.Fails pc gone) (hstep : s.threadStep ok pc = some (s', os)) :
    ∃ pc', s'.thread = some pc' ∧ s'.Fails pc' (os.foldl lostAfter gone) ∧
      s'.ready = s.ready := by
  obtain ⟨hfailing, hrunning, hkept⟩ := h
  cases pc with
  | cleaning stage failed =>
      obtain ⟨hthread, hrunning', hready, hgone⟩ := @clean_goes gone s failed stage
      rw [Option.some.inj hstep] at hthread hrunning' hready hgone
      rw [hgone]
      cases failed <;> cases stage <;> simp_all [ThreadPc.failing, cleanNext] <;>
        exact ⟨rfl, hrunning', rfl⟩
  | _ => contradiction

/-- A thread that sets up goes on, or answers `Start`. -/
theorem setsUp_step (h : s.SetsUp pc gone) (hstep : s.threadStep ok pc = some (s', os)) :
    ∃ pc', s'.thread = some pc' ∧
      (s'.SetsUp pc' (os.foldl lostAfter gone) ∨
        (s'.ready = some true ∧ s'.Serves pc' (os.foldl lostAfter gone)) ∨
        (s'.ready = some false ∧ s'.Fails pc' (os.foldl lostAfter gone))) := by
  obtain ⟨hsettingUp, hready, hrunning, hkept⟩ := h
  cases pc with
  | coInitialize | enumerator | endpoint | activate | mixFormat | createEvent | initClient
  | setEventHandle | getService | clientStart =>
      cases ok <;> cases hstep <;>
        exact ⟨_, rfl, .inl ⟨rfl, hready, by simpa [gotoIf, goto] using hrunning,
          by simpa [lostAfter] using hkept⟩⟩
  | publish =>
      cases hstep
      exact ⟨_, rfl, .inl ⟨rfl, hready, by simp [goto], hkept⟩⟩
  | ready =>
      cases hstep
      have hruns : s.running = true := hrunning.mpr rfl
      exact ⟨_, rfl, .inr (.inl ⟨rfl, rfl, by simp [goto, hruns, hkept], by simp [ThreadPc.past]⟩)⟩
  | refusing =>
      cases hstep
      exact ⟨_, rfl, .inr (.inr ⟨rfl, rfl, by simpa [goto] using hrunning, hkept⟩)⟩
  | cleaning stage failed =>
      have hnot : s.running = false := by simpa using hrunning
      obtain ⟨hthread, hrunning', hready', hgone⟩ := @clean_goes gone s failed stage
      rw [Option.some.inj hstep] at hthread hrunning' hready' hgone
      have hnot' : s'.running = false := hrunning'.trans hnot
      refine ⟨_, hthread, ?_⟩
      rw [hgone]
      cases failed with
      | false => cases stage <;> contradiction
      | true =>
          cases stage with
          | device | enumerator => contradiction
          | reply => exact .inr (.inr ⟨hready', rfl, hnot', hkept⟩)
          | close =>
              refine .inl ⟨?_, hready'.trans hready, ?_, hkept⟩
              · cases hevent : s.hEvent <;> simp [cleanNext, hevent, ThreadPc.settingUp]
              · simp [hnot', cleanNext]
          | _ => exact .inl ⟨rfl, hready'.trans hready, by simp [hnot', cleanNext], hkept⟩
  | _ => contradiction

theorem phase_of {m : MainPc} {t : Option ThreadPc} (hmain : s.main = m) (hthread : s.thread = t)
    (h : s.PhaseAt gone m t) : s.Phase gone := by
  rw [Phase, hmain, hthread]
  exact h

theorem Phase.at {m : MainPc} {t : Option ThreadPc} (h : s.Phase gone) (hmain : s.main = m)
    (hthread : s.thread = t) : s.PhaseAt gone m t := by
  rw [Phase, hmain, hthread] at h
  exact h

/-- **Step lemma**, of the phases: the thread goes on. -/
theorem phase_threadStep (h : s.Phase gone) (hne : s.main ≠ .terminated)
    (hpc : s.thread = some pc) (hstep : s.threadStep ok pc = some (s', os)) :
    s'.Phase (os.foldl lostAfter gone) := by
  have hmain := (main_threadStep hstep).1
  cases hat : s.main with
  | idle | starting | stopping | clearing =>
      obtain ⟨pc', hthread, hserves, -⟩ := serves_step (h.at hat hpc) hstep
      exact phase_of (hmain.trans hat) hthread hserves
  | spawning | joinStopped =>
      obtain ⟨hserves, hgone⟩ := h.at hat hpc
      obtain ⟨pc', hthread, hserves, -, hstays⟩ := serves_step hserves hstep
      exact phase_of (hmain.trans hat) hthread ⟨hserves, hstays hgone⟩
  | testing | signalling | joining =>
      obtain ⟨pc', hthread, hleaves, -⟩ := leaves_step (h.at hat hpc) hstep
      exact phase_of (hmain.trans hat) hthread hleaves
  | awaiting =>
      rcases h.at hat hpc with h | ⟨hready, h⟩ | ⟨hready, h⟩
      · obtain ⟨pc', hthread, h'⟩ := setsUp_step h hstep
        exact phase_of (hmain.trans hat) hthread h'
      · obtain ⟨pc', hthread, hserves, hsame, -⟩ := serves_step h hstep
        exact phase_of (hmain.trans hat) hthread (.inr (.inl ⟨hsame.trans hready, hserves⟩))
      · obtain ⟨pc', hthread, hfails, hsame⟩ := fails_step h hstep
        exact phase_of (hmain.trans hat) hthread (.inr (.inr ⟨hsame.trans hready, hfails⟩))
  | joinFailed =>
      obtain ⟨pc', hthread, hfails, -⟩ := fails_step (h.at hat hpc) hstep
      exact phase_of (hmain.trans hat) hthread hfails
  | cleanClient | cleanService | cleanEvent => exact (h.at hat hpc).elim
  | terminated => contradiction

/-- A `Start` that goes on finds no lost device. -/
def StartLaw (before : List CaptureCall) : CaptureCall → Prop
  | .starts => lost before = false
  | _ => True

/-- A `Start` has gone on, and the assignment to `thread_` terminates the process. -/
def Dooms (s : AudioCapture) : Prop :=
  s.main = .terminated ∨ (s.main = .spawning ∧ s.thread.isSome = true)

/-- At a join the thread has stopped, and without a thread none is lost. -/
theorem Phase.at_join (h : s.Phase gone) {next : MainPc} (hat : s.main.afterJoin = some next) :
    s.running = false ∧ (s.thread = none → gone = false) := by
  cases hmain : s.main with
  | joinFailed =>
      cases hthread : s.thread with
      | none => exact (h.at hmain hthread).elim
      | some pc => exact ⟨Fails.running (h.at hmain hthread), nofun⟩
  | joinStopped =>
      cases hthread : s.thread with
      | none =>
          obtain ⟨hrunning, hgone⟩ := h.at hmain hthread
          exact ⟨hrunning, fun _ => hgone⟩
      | some pc =>
          obtain ⟨hserves, hgone⟩ := h.at hmain hthread
          exact ⟨by simp [hserves.running, hgone], nofun⟩
  | joining =>
      cases hthread : s.thread with
      | none => exact (h.at hmain hthread).elim
      | some pc => exact ⟨Leaves.running (h.at hmain hthread), nofun⟩
  | _ =>
      rw [hmain] at hat
      contradiction

/-- Behind a join there is no thread. -/
theorem phase_joined {next : MainPc} (hnext : next ∈ [.idle, .cleanClient]) (hmain : s.main = next)
    (hthread : s.thread = none) (hrunning : s.running = false) (hgone : gone = false) :
    s.Phase gone := by
  simp only [List.mem_cons, List.not_mem_nil, or_false] at hnext
  rcases hnext with rfl | rfl <;> exact phase_of hmain hthread ⟨hrunning, hgone⟩

/-- The same thread serves when `Start` or `Stop` goes on. -/
theorem Serves.of_same (h : s.Serves pc gone) (hrunning : s'.running = s.running) :
    s'.Serves pc gone := ⟨h.serving, hrunning.trans h.running, h.past⟩

/-- **Step lemma**, of the phases: `Start` or `Stop` goes on. -/
theorem phase_mainStep (h : s.Phase gone) (hstep : s.mainStep = some (s', os)) :
    s'.Phase (os.foldl lostAfter gone) := by
  cases mainDoes_of_step hstep with
  | refuse hat hrunning =>
      cases hthread : s.thread with
      | none => exact absurd (hrunning.symm.trans (h.at hat hthread).1) (by simp)
      | some pc => exact phase_of rfl rfl (Serves.of_same (h.at hat hthread) rfl)
  | start hat hrunning =>
      cases hthread : s.thread with
      | none => exact phase_of rfl rfl (h.at hat hthread)
      | some pc =>
          have hserves : s.Serves pc gone := h.at hat hthread
          exact phase_of rfl rfl ⟨hserves.of_same rfl, by
            simpa [hserves.running, lostAfter] using hrunning⟩
  | terminate pc hat hthread => exact phase_of rfl hthread (h.at hat hthread).2
  | spawn hat hthread =>
      obtain ⟨hrunning, hgone⟩ := h.at hat hthread
      exact phase_of rfl rfl (.inl ⟨rfl, rfl, by simp [hrunning], hgone⟩)
  | await ok hat hok =>
      cases hthread : s.thread with
      | none => exact (h.at hat hthread).elim
      | some pc =>
          rcases h.at hat hthread with h | ⟨hready, h⟩ | ⟨hready, h⟩
          · exact absurd (hok.symm.trans h.ready) (by simp)
          · cases hready.symm.trans hok
            exact phase_of rfl rfl (h.of_same rfl)
          · cases hready.symm.trans hok
            exact phase_of rfl rfl ⟨h.failing, h.running, h.kept⟩
  | stop hat =>
      cases hthread : s.thread with
      | none =>
          obtain ⟨hrunning, hgone⟩ := h.at hat hthread
          exact phase_of (if_neg (Bool.eq_false_iff.mp hrunning)) rfl ⟨hrunning, hgone⟩
      | some pc =>
          have hserves : s.Serves pc gone := h.at hat hthread
          cases gone with
          | false => exact phase_of (if_pos hserves.running) rfl (hserves.of_same rfl)
          | true =>
              exact phase_of (if_neg (Bool.eq_false_iff.mp hserves.running)) rfl
                ⟨hserves.of_same rfl, rfl⟩
  | clear hat =>
      cases hthread : s.thread with
      | none => exact (h.at hat hthread).elim
      | some pc => exact phase_of rfl rfl ⟨Serves.serving (h.at hat hthread), rfl⟩
  | test hat | signal hat =>
      cases hthread : s.thread with
      | none => exact (h.at hat hthread).elim
      | some pc =>
          have hleaves : s.Leaves pc := h.at hat hthread
          refine phase_of rfl rfl ?_
          cases s.hEvent <;> exact ⟨hleaves.serving, hleaves.running⟩
  | pass next hat hthread =>
      obtain ⟨hrunning, hgone⟩ := h.at_join hat
      exact phase_joined (MainPc.of_afterJoin hat).2 rfl hthread hrunning (hgone hthread)
  | join next hat hthread =>
      obtain ⟨hrunning, -⟩ := h.at_join hat
      exact phase_joined (MainPc.of_afterJoin hat).2 rfl rfl hrunning rfl
  | cleanClient hat | cleanService hat | cleanEvent hat =>
      cases hthread : s.thread with
      | none =>
          obtain ⟨hrunning, hgone⟩ := h.at hat hthread
          exact phase_of rfl rfl ⟨hrunning, (lost_releaseIf _ _ _).trans hgone⟩
      | some pc => exact (h.at hat hthread).elim

theorem not_dooms {m : MainPc} (hmain : s.main = m) (hm : m ≠ .terminated ∧ m ≠ .spawning) :
    ¬ s.Dooms := by
  simp [Dooms, hmain, hm]

/-- No step of the thread is a `Start`'s. -/
theorem starts_threadStep (hstep : s.threadStep ok pc = some (s', os)) : .starts ∉ os := by
  cases pc with
  | exited => contradiction
  | cleaning stage failed =>
      cases stage with
      | client | service | device | enumerator =>
          cases hstep
          exact starts_releaseIf _ _ _
      | close =>
          simp only [threadStep, clean] at hstep
          split at hstep <;> cases hstep <;> simp
      | null | uninit | reply =>
          cases hstep
          simp
  | _ => cases ok <;> cases hstep <;> simp

/-- A `Start` that goes on dooms the process when the device is lost, and nothing else does. -/
theorem starts_mainStep (h : s.Phase gone) (hstep : s.mainStep = some (s', os)) :
    (os = [.starts] ∧ ¬ s.Dooms ∧ (s'.Dooms ↔ gone = true)) ∨
      (.starts ∉ os ∧ (s'.Dooms ↔ s.Dooms)) := by
  cases mainDoes_of_step hstep with
  | start hat hrunning =>
      refine .inl ⟨rfl, not_dooms hat (by decide), ?_⟩
      cases hthread : s.thread with
      | none => simp [Dooms, (h.at hat hthread).2]
      | some pc =>
          have hserves : s.Serves pc gone := h.at hat hthread
          simpa [Dooms, hthread, hserves.running] using hrunning
  | terminate pc hat hthread | spawn hat hthread =>
      exact .inr ⟨nofun, by simp [Dooms, hat, hthread]⟩
  | await ok hat => exact .inr ⟨nofun, by cases ok <;> simp [Dooms, hat]⟩
  | stop hat => exact .inr ⟨nofun, by cases s.running <;> simp [Dooms, hat]⟩
  | test hat => exact .inr ⟨nofun, by cases s.hEvent <;> simp [Dooms, hat]⟩
  | refuse hat | clear hat | signal hat => exact .inr ⟨by simp, by simp [Dooms, hat]⟩
  | pass next hat | join next hat =>
      obtain ⟨hmain, hnext⟩ := MainPc.of_afterJoin hat
      refine .inr ⟨by simp, iff_of_false (not_dooms (m := next) rfl ?_) (not_dooms rfl ?_)⟩
      · simp only [List.mem_cons, List.not_mem_nil, or_false] at hnext
        rcases hnext with rfl | rfl <;> decide
      · simp only [List.mem_cons, List.not_mem_nil, or_false] at hmain
        rcases hmain with hmain | hmain | hmain <;> simp [hmain]
  | cleanClient hat | cleanService hat | cleanEvent hat =>
      exact .inr ⟨starts_releaseIf _ _ _, by simp [Dooms, hat]⟩

/-- **Step lemma**, of the phases, and of the calls of `Start`. -/
theorem phase_step {tr : List CaptureCall} (h : s.Phase (lost tr)) {i : CaptureInput}
    (hstep : s.step i = some (s', os)) :
    s'.Phase (lost (tr ++ os)) ∧
      ((Each StartLaw tr ↔ ¬ s.Dooms) → (Each StartLaw (tr ++ os) ↔ ¬ s'.Dooms)) := by
  have hfree (hos : .starts ∉ os) : Each StartLaw (tr ++ os) ↔ Each StartLaw tr := by
    refine each_append_of_free fun before c hc => ?_
    cases c with
    | starts => exact absurd hc hos
    | _ => trivial
  simp only [step, Option.ite_none_left_eq_some] at hstep
  obtain ⟨hne, hstep⟩ := hstep
  rw [lost, List.foldl_append]
  cases i with
  | start | stop =>
      simp only [Option.ite_none_right_eq_some] at hstep
      obtain ⟨hat, hstep⟩ := hstep
      cases hstep
      refine ⟨?_, fun heach => ?_⟩
      · cases hthread : s.thread with
        | none => exact phase_of rfl rfl (h.at hat hthread)
        | some pc => exact phase_of rfl rfl (Serves.of_same (h.at hat hthread) rfl)
      · rw [hfree nofun, heach]
        simp [Dooms, hat]
  | main =>
      refine ⟨phase_mainStep h hstep, fun heach => ?_⟩
      rcases starts_mainStep h hstep with ⟨rfl, hnot, hdooms⟩ | ⟨hos, hdooms⟩
      · rw [each_concat, heach, hdooms]
        simp [StartLaw, hnot]
      · rw [hfree hos, heach, hdooms]
  | thread ok =>
      obtain ⟨pc, hpc, hstep⟩ := Option.bind_eq_some_iff.mp hstep
      have hphase := phase_threadStep h hne hpc hstep
      refine ⟨hphase, fun heach => ?_⟩
      obtain ⟨hmain, hthread⟩ := main_threadStep hstep
      rw [hfree (starts_threadStep hstep), heach]
      simp [Dooms, hmain, hthread, hpc]

end AudioCapture

open CaptureThread.AudioCapture in
/-- **Restarts.**  `Start` or `Stop` ends the process exactly when some `Start` has gone on while
the device was lost and its thread not joined: the thread has stopped by itself, `running_` says
so, and the assignment to `thread_`, which is joinable still, terminates. -/
theorem capture_terminates_iff {inputs : List CaptureInput} {s : AudioCapture}
    {calls : List CaptureCall} (hrun : capture.run {} inputs = some (s, calls))
    (hend : s.main = .idle ∨ s.main = .terminated) :
    s.main = .terminated ↔ ¬ Each StartLaw calls := by
  have hinv := @capture.run_invariant _ _ _
    (fun s tr => s.Phase (lost tr) ∧ (Each StartLaw tr ↔ ¬ s.Dooms)) (fun _ _ => True)
    (fun s tr i s' o h _ hstep => ?_) inputs {} s [] calls
    ⟨⟨rfl, rfl⟩, iff_of_true each_nil (not_dooms rfl (by decide))⟩ (capture.along_true {} inputs)
    hrun
  · rw [List.nil_append] at hinv
    rw [hinv.2, not_not]
    rcases hend with hidle | hterminated
    · simp [Dooms, hidle]
    · simp [Dooms, hterminated]
  · obtain ⟨hphase, heach⟩ := h
    obtain ⟨hphase', hstarts⟩ := phase_step hphase hstep
    exact ⟨hphase', hstarts heach⟩

/-- A start, the loss of the device, and another start. -/
def lostAndStarted : List CaptureInput :=
  [.start, .main, .main] ++ List.replicate 12 (.thread true) ++
    [.main, .thread true, .thread true, .thread false, .start, .main, .main]

theorem capture_terminates_iff_lost :
    ∃ s calls, capture.run {} lostAndStarted = some (s, calls) ∧ s.main = .terminated ∧
      ¬ Each AudioCapture.StartLaw calls := by
  have hrun : (capture.run {} lostAndStarted).map (fun r => r.1.main) = some .terminated := by
    decide +kernel
  obtain ⟨⟨s, calls⟩, hrun, hend⟩ := Option.map_eq_some_iff.mp hrun
  exact ⟨s, calls, hrun, hend, (capture_terminates_iff hrun (.inr hend)).mp hend⟩

end TwinScreen.Host.CaptureThread
