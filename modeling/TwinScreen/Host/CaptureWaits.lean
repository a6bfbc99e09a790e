import TwinScreen.Host.CaptureRestart

/-!
# TwinScreen.Host.CaptureWaits

`Start` waits for the answer of `CaptureLoop`, and `Start` and `Stop` for its end.

* `start_stop_return` — how long they wait.
-/

namespace TwinScreen.Host.CaptureThread

open Lib

/-! ## waits -/

/-- The steps that the thread has to take until it has answered `Start` at most. -/
def ThreadPc.untilReady : ThreadPc → Nat
  | .coInitialize => 16
  | .enumerator => 15
  | .endpoint => 14
  | .activate => 13
  | .mixFormat => 12
  | .createEvent => 11
  | .initClient => 10
  | .setEventHandle => 9
  | .getService => 8
  | .clientStart => 7
  | .publish => 2
  | .ready | .refusing => 1
  | .cleaning stage true => stage.steps - 2
  | _ => 0

/-- The steps that `Start` or `Stop` has to take until it returns at most. -/
def MainPc.steps : MainPc → Nat
  | .idle | .terminated => 0
  | .joinFailed | .joinStopped | .cleanEvent => 1
  | .awaiting | .cleanService => 2
  | .spawning | .cleanClient => 3
  | .starting | .joining => 4
  | .signalling => 5
  | .testing => 6
  | .clearing => 7
  | .stopping => 8

namespace AudioCapture

/-- `Start` or `Stop` waits for the thread. -/
def Waits (s : AudioCapture) : Prop :=
  s.main ≠ .idle ∧ s.main ≠ .terminated ∧ s.mainStep = none

instance (s : AudioCapture) : Decidable s.Waits := inferInstanceAs (Decidable (_ ∧ _ ∧ _))

/-- The steps that the thread has to take at most until it is waited for no longer. -/
def wait (s : AudioCapture) : Nat :=
  match s.main, s.thread with
  | .awaiting, some pc => pc.untilReady
  | _, some pc => pc.steps
  | _, none => 0

variable {s s' : AudioCapture} {pc : ThreadPc} {os : List CaptureCall} {ok gone : Bool}

theorem mainStep_eq_none (hwaits : s.Waits) :
    (s.main = .awaiting ∧ s.ready = none) ∨
      (s.main ∈ [.joinFailed, .joinStopped, .joining] ∧ s.thread ≠ none ∧
        s.thread ≠ some .exited) := by
  obtain ⟨hidle, hterminated, hnone⟩ := hwaits
  have hjoin {next : MainPc} (hjoin : s.join next = none) :
      s.thread ≠ none ∧ s.thread ≠ some .exited := by
    unfold join at hjoin
    split at hjoin <;> simp_all
  unfold mainStep at hnone
  cases hat : s.main with
  | idle | terminated => contradiction
  | joinFailed | joinStopped | joining =>
      simp only [hat] at hnone
      exact .inr ⟨by simp, hjoin hnone⟩
  | awaiting =>
      simp only [hat, Option.map_eq_none_iff] at hnone
      exact .inl ⟨rfl, hnone⟩
  | starting | spawning =>
      simp only [hat] at hnone
      split at hnone <;> contradiction
  | _ => simp [hat] at hnone

/-- A thread that sets up comes nearer to its answer. -/
theorem untilReady_threadStep (h : s.SetsUp pc gone)
    (hstep : s.threadStep ok pc = some (s', os)) :
    ∃ pc', s'.thread = some pc' ∧ pc'.untilReady < pc.untilReady := by
  have hsettingUp := h.settingUp
  cases pc with
  | coInitialize | enumerator | endpoint | activate | mixFormat | createEvent | initClient
  | setEventHandle | getService | clientStart | publish | refusing =>
      cases ok <;> cases hstep <;> exact ⟨_, rfl, by decide⟩
  | ready =>
      cases hstep
      exact ⟨_, rfl, by decide⟩
  | cleaning stage failed =>
      obtain ⟨hthread, -, -, -⟩ := @clean_goes gone s failed stage
      rw [Option.some.inj hstep] at hthread
      refine ⟨_, hthread, ?_⟩
      cases failed with
      | false => cases stage <;> contradiction
      | true =>
          cases stage with
          | device | enumerator => contradiction
          | close =>
              cases hevent : s.hEvent <;>
                simp [cleanNext, hevent, ThreadPc.untilReady, Cleanup.steps]
          | _ => simp [cleanNext, ThreadPc.untilReady, Cleanup.steps]
  | _ => contradiction

/-- A thread that has failed comes nearer to its end. -/
theorem steps_fails_step (h : s.Fails pc gone) (hstep : s.threadStep ok pc = some (s', os)) :
    ∃ pc', s'.thread = some pc' ∧ pc'.steps < pc.steps := by
  have hfailing := h.failing
  cases pc with
  | cleaning stage failed =>
      obtain ⟨hthread, -, -, -⟩ := @clean_goes gone s failed stage
      rw [Option.some.inj hstep] at hthread
      exact ⟨_, hthread, steps_cleanNext_lt s failed stage⟩
  | exited => contradiction
  | _ => contradiction

/-- **Step lemma**, of a wait: the thread alone goes on, and the wait gets shorter. -/
theorem wait_step (h : s.Phase gone) (hwaits : s.Waits) {i : CaptureInput}
    (hstep : s.step i = some (s', os)) : s'.wait < s.wait := by
  simp only [step, if_neg hwaits.2.1] at hstep
  cases i with
  | start | stop => simp [hwaits.1] at hstep
  | main =>
      rw [hwaits.2.2] at hstep
      contradiction
  | thread ok =>
      obtain ⟨pc, hpc, hstep⟩ := Option.bind_eq_some_iff.mp hstep
      have hmain := (main_threadStep hstep).1
      have hjoin {pc' : ThreadPc} (hne : s.main ≠ .awaiting) (hthread : s'.thread = some pc')
          (hlt : pc'.steps < pc.steps) : s'.wait < s.wait := by
        simp only [wait, hmain, hpc, hthread]
        cases hat : s.main <;> simp_all
      rcases mainStep_eq_none hwaits with ⟨hat, hready⟩ | ⟨hat, -⟩
      · rcases h.at hat hpc with h | ⟨hsome, -⟩ | ⟨hsome, -⟩
        · obtain ⟨pc', hthread, hlt⟩ := untilReady_threadStep h hstep
          simpa [wait, hmain, hat, hpc, hthread] using hlt
        · exact absurd (hready.symm.trans hsome) (by simp)
        · exact absurd (hready.symm.trans hsome) (by simp)
      · simp only [List.mem_cons, List.not_mem_nil, or_false] at hat
        rcases hat with hat | hat | hat
        · obtain ⟨pc', hthread, hlt⟩ := steps_fails_step (h.at hat hpc) hstep
          exact hjoin (by simp [hat]) hthread hlt
        · obtain ⟨hserves, rfl⟩ := h.at hat hpc
          obtain ⟨pc', hthread, -, hlt⟩ := leaves_step ⟨hserves.serving, hserves.running⟩ hstep
          exact hjoin (by simp [hat]) hthread hlt
        · obtain ⟨pc', hthread, -, hlt⟩ := leaves_step (h.at hat hpc) hstep
          exact hjoin (by simp [hat]) hthread hlt

theorem wait_le (s : AudioCapture) : s.wait ≤ 16 := by
  have hstage (stage : Cleanup) : stage.steps ≤ 8 := by cases stage <;> decide
  have hsteps (pc : ThreadPc) : pc.steps ≤ 16 := by
    cases pc with
    | cleaning stage failed => exact Nat.le_trans (hstage stage) (by decide)
    | _ => decide
  have huntil (pc : ThreadPc) : pc.untilReady ≤ 16 := by
    cases pc with
    | cleaning stage failed =>
        have := hstage stage
        cases failed <;> simp only [ThreadPc.untilReady] <;> omega
    | _ => decide
  unfold wait
  split
  · exact huntil _
  · exact hsteps _
  · decide

/-- While it is waited for, the thread goes on, whatever becomes of the call it makes. -/
theorem isSome_step_of_waits (h : s.Phase gone) (hwaits : s.Waits) (ok : Bool) :
    (s.step (.thread ok)).isSome = true := by
  have hgoes {pc : ThreadPc} (hpc : s.thread = some pc) (hne : pc ≠ .exited) :
      (s.step (.thread ok)).isSome = true := by
    simp only [step, if_neg hwaits.2.1, hpc, Option.bind_some]
    cases pc with
    | exited => contradiction
    | coInitialize | createEvent | draining => cases ok <;> rfl
    | _ => rfl
  rcases mainStep_eq_none hwaits with ⟨hat, hready⟩ | ⟨-, hnone, hexited⟩
  · cases hpc : s.thread with
    | none => exact (h.at hat hpc).elim
    | some pc =>
        refine hgoes hpc ?_
        rintro rfl
        rcases h.at hat hpc with h | ⟨hsome, -⟩ | ⟨hsome, -⟩
        · exact absurd h.settingUp (by decide)
        · exact absurd (hready.symm.trans hsome) (by simp)
        · exact absurd (hready.symm.trans hsome) (by simp)
  · obtain ⟨pc, hpc⟩ := Option.ne_none_iff_exists'.mp hnone
    exact hgoes hpc fun heq => hexited (by rw [hpc, heq])

/-- `Start` and `Stop` come nearer to their end. -/
theorem steps_mainStep (hstep : s.mainStep = some (s', os)) :
    s'.main.steps < s.main.steps := by
  have hjoin {m next : MainPc} (hat : m.afterJoin = some next) : next.steps < m.steps := by
    cases m <;> cases hat <;> decide
  cases mainDoes_of_step hstep with
  | pass next hat | join next hat => exact hjoin hat
  | await ok hat | stop hat | test hat =>
      rw [hat]
      dsimp only
      split <;> decide
  | refuse hat | start hat | terminate pc hat | spawn hat | clear hat | signal hat
  | cleanClient hat | cleanService hat | cleanEvent hat => simp [hat, MainPc.steps]

end AudioCapture

open CaptureThread.AudioCapture in
/-- **Waits.**  Wherever `Start` or `Stop` has come, it waits for sixteen steps of the thread at
most, all of which the thread can take; and it returns after eight steps of its own at most.  A
pass over the pending packets is one step of the thread, and is taken to end. -/
theorem start_stop_return {inputs more : List CaptureInput} {s s' : AudioCapture}
    {calls calls' : List CaptureCall} (hrun : capture.run {} inputs = some (s, calls))
    (hmore : capture.run s more = some (s', calls')) :
    (capture.Along (fun s _ => s.Waits) s more → more.length ≤ 16) ∧
      (s'.Waits → ∀ ok, (capture.step s' (.thread ok)).isSome = true) ∧
      (.start ∉ more → .stop ∉ more → more.count .main + s'.main.steps ≤ s.main.steps) := by
  have hphase {s s' : AudioCapture} {tr os : List CaptureCall} {is : List CaptureInput}
      (h : s.Phase (lost tr)) (hrun : capture.run s is = some (s', os)) :
      s'.Phase (lost (tr ++ os)) :=
    @capture.run_invariant _ _ _ (fun s tr => s.Phase (lost tr)) (fun _ _ => True)
      (fun _ _ _ _ _ h _ hstep => (phase_step h hstep).1) is s s' tr os h
      (capture.along_true s is) hrun
  have hat : s.Phase (lost calls) := @hphase {} s [] calls inputs ⟨rfl, rfl⟩ hrun
  refine ⟨fun hwaits => ?_, isSome_step_of_waits (hphase hat hmore), fun hstart hstop => ?_⟩
  · have hbound := @capture.countP_add_le _ _ _ (fun s => ∃ tr, s.Phase (lost tr))
      (fun s _ => s.Waits) wait (fun _ => true)
      (fun s i s' o ⟨tr, h⟩ hstep => ⟨_, (phase_step h hstep).1⟩)
      (fun s i s' o ⟨tr, h⟩ hwaits hstep => ?_) more s s' calls' ⟨_, hat⟩ hwaits hmore
    · have := wait_le s
      rw [List.countP_true] at hbound
      omega
    · have := wait_step h hwaits hstep
      rw [if_pos rfl]
      omega
  · refine @capture.countP_add_le _ _ _ (fun _ => True) (fun _ i => i ≠ .start ∧ i ≠ .stop)
      (fun s => s.main.steps) (· == .main) (fun _ _ _ _ _ _ => trivial)
      (fun s i s' o _ hnot hstep => ?_) more s s' calls' trivial
      (capture.along_of_forall (fun i hi => ⟨?_, ?_⟩) s) hmore
    · obtain ⟨-, hstep⟩ := Option.ite_none_left_eq_some.mp hstep
      cases i with
      | start | stop => simp at hnot
      | main =>
          have := steps_mainStep hstep
          simp
          omega
      | thread ok =>
          obtain ⟨pc, -, hstep⟩ := Option.bind_eq_some_iff.mp hstep
          simp [(main_threadStep hstep).1]
    · rintro rfl
      exact hstart hi
    · rintro rfl
      exact hstop hi

theorem start_stop_return_stopped :
    ∃ s calls, capture.run {} (startedAndStopped.take 21) = some (s, calls) ∧ s.Waits ∧
      ∀ ok, (capture.step s (.thread ok)).isSome = true := by
  have hrun : (capture.run {} (startedAndStopped.take 21)).map (fun r => decide r.1.Waits) =
      some true := by decide +kernel
  obtain ⟨⟨s, calls⟩, hrun, hend⟩ := Option.map_eq_some_iff.mp hrun
  have hwaits : s.Waits := of_decide_eq_true hend
  exact ⟨s, calls, hrun, hwaits, (start_stop_return hrun (capture.run_nil s)).2.1 hwaits⟩

end TwinScreen.Host.CaptureThread
