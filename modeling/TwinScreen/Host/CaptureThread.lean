import TwinScreen.Lib.Machine

/-!
# TwinScreen.Host.CaptureThread

The life of the audio capture, `host/src/audio/capture.cpp`: `Start` and `Stop` on the one
side, any number of times, and `CaptureLoop` on its thread on the other.  A step is a
statement of one of them that touches what they share, or a call that may fail; a pass over
the pending packets is one step.  What the thread acquires is `TwinScreen.Host.CaptureCustody`,
COM `TwinScreen.Host.CaptureCom`, and how `Start` and `Stop` get on with the thread
`TwinScreen.Host.CaptureRestart` and `TwinScreen.Host.CaptureWaits`.
-/

namespace TwinScreen.Host.CaptureThread

open Lib

/-! ## state -/

/-- What `CaptureLoop` acquires. -/
inductive Resource
  /-- `CoInitializeEx`. -/
  | com
  | enumerator
  | device
  /-- `client_`. -/
  | client
  /-- The mix format, which `CoTaskMemFree` frees. -/
  | mix
  | event
  /-- `capture_`. -/
  | service
  deriving DecidableEq, Repr

/-- The clean-up, `finish` or the end of `CaptureLoop`. -/
inductive Cleanup
  /-- At `client_`, then at `capture_`. -/
  | client
  | service
  /-- At `CloseHandle`, then at `h_event_ = nullptr`. -/
  | close
  | null
  | uninit
  /-- At `ready.set_value(false)`; only in `finish`. -/
  | reply
  /-- The destructors of the locals. -/
  | device
  | enumerator
  deriving DecidableEq, Repr

/-- Where `CaptureLoop` is. -/
inductive ThreadPc
  | coInitialize
  | enumerator
  | endpoint
  | activate
  | mixFormat
  | createEvent
  /-- At `client_->Initialize`. -/
  | initClient
  | setEventHandle
  | getService
  | clientStart
  /-- At `running_.store(true)`. -/
  | publish
  /-- At `ready.set_value(true)`. -/
  | ready
  /-- At `running_.load()`. -/
  | top
  /-- At `WaitForSingleObject`. -/
  | waiting
  /-- At the pending packets. -/
  | draining
  | cleaning (stage : Cleanup) (failed : Bool)
  /-- At `ready.set_value(false)` without COM. -/
  | refusing
  | exited
  deriving DecidableEq, Repr

/-- Where `Start` or `Stop` is. -/
inductive MainPc
  | idle
  /-- `Start`, at `running_.load()`. -/
  | starting
  /-- At the assignment to `thread_`. -/
  | spawning
  /-- At `fut.get()`. -/
  | awaiting
  /-- At the join after a failure. -/
  | joinFailed
  /-- `Stop`, at `running_.load()`. -/
  | stopping
  /-- At the join of a thread that has stopped by itself, if there is one. -/
  | joinStopped
  /-- At `running_.store(false)`. -/
  | clearing
  /-- At the test of `h_event_`, then at `SetEvent`. -/
  | testing
  | signalling
  | joining
  /-- At `client_`, `capture_` and `h_event_`. -/
  | cleanClient
  | cleanService
  | cleanEvent
  /-- After `std::terminate`. -/
  | terminated
  deriving DecidableEq, Repr

/-- `AudioCapture`, with the locals of its thread. -/
structure AudioCapture where
  running : Bool := false
  /-- `thread_`, when it is joinable. -/
  thread : Option ThreadPc := none
  /-- `ready`, when it has a value. -/
  ready : Option Bool := none
  main : MainPc := .idle
  client : Bool := false
  service : Bool := false
  /-- `h_event_` is set. -/
  hEvent : Bool := false
  /-- The event has not been closed. -/
  event : Bool := false
  com : Bool := false
  enumerator : Bool := false
  device : Bool := false
  mix : Bool := false
  deriving DecidableEq

/-- A step. -/
inductive CaptureInput
  | start
  | stop
  /-- `Start` or `Stop` goes on. -/
  | main
  /-- The thread goes on; `ok` is the outcome of the call it makes, if it makes one. -/
  | thread (ok : Bool)
  deriving DecidableEq

inductive CaptureCall
  | acquired (r : Resource)
  /-- `byStop`: in the clean-up of `Stop`. -/
  | released (r : Resource) (byStop : Bool)
  /-- `SetEvent`: whether its handle is that of an open event. -/
  | setEvent (isOpen : Bool)
  /-- `GetBuffer` has failed. -/
  | deviceLost
  /-- A `Start` that finds nothing running. -/
  | starts
  /-- A thread has been joined. -/
  | joined
  deriving DecidableEq

namespace AudioCapture

/-! ## steps -/

/-- The object of a pointer is released, if there is one. -/
def releaseIf (held : Bool) (r : Resource) (byStop : Bool) : List CaptureCall :=
  if held then [.released r byStop] else []

/-- `CaptureLoop` goes to a place. -/
def goto (s : AudioCapture) (pc : ThreadPc) : AudioCapture := { s with thread := some pc }

/-- `CaptureLoop` goes on to a place, or gives up. -/
def gotoIf (s : AudioCapture) (ok : Bool) (pc : ThreadPc) : AudioCapture :=
  s.goto (if ok then pc else .cleaning .client true)

/-- A step of the clean-up. -/
def clean (s : AudioCapture) (failed : Bool) : Cleanup → AudioCapture × List CaptureCall
  | .client =>
      ({ s with client := false }.goto (.cleaning .service failed),
        releaseIf s.client .client false)
  | .service =>
      ({ s with service := false }.goto (.cleaning .close failed),
        releaseIf s.service .service false)
  | .close =>
      if s.hEvent then
        ({ s with event := false }.goto (.cleaning .null failed), [.released .event false])
      else (s.goto (.cleaning .uninit failed), [])
  | .null => ({ s with hEvent := false }.goto (.cleaning .uninit failed), [])
  | .uninit =>
      ({ s with com := false }.goto (.cleaning (if failed then .reply else .device) failed),
        [.released .com false])
  | .reply => ({ s with ready := some false }.goto (.cleaning .device failed), [])
  | .device =>
      ({ s with device := false }.goto (.cleaning .enumerator failed),
        releaseIf s.device .device false)
  | .enumerator =>
      ({ s with enumerator := false }.goto .exited, releaseIf s.enumerator .enumerator false)

/-- A step of `CaptureLoop`. -/
def threadStep (s : AudioCapture) (ok : Bool) :
    ThreadPc → Option (AudioCapture × List CaptureCall)
  | .coInitialize =>
      if ok then some ({ s with com := true }.goto .enumerator, [.acquired .com])
      else some (s.goto .refusing, [])
  | .enumerator =>
      some ({ s with enumerator := ok }.gotoIf ok .endpoint,
        if ok then [.acquired .enumerator] else [])
  | .endpoint =>
      some ({ s with device := ok }.gotoIf ok .activate, if ok then [.acquired .device] else [])
  | .activate =>
      some ({ s with client := ok }.gotoIf ok .mixFormat, if ok then [.acquired .client] else [])
  | .mixFormat =>
      some ({ s with mix := ok }.gotoIf ok .createEvent, if ok then [.acquired .mix] else [])
  | .createEvent =>
      if ok then
        some ({ s with hEvent := true, event := true }.goto .initClient, [.acquired .event])
      else some ({ s with mix := false }.gotoIf false .initClient, [.released .mix false])
  | .initClient => some ({ s with mix := false }.gotoIf ok .setEventHandle, [.released .mix false])
  | .setEventHandle => some (s.gotoIf ok .getService, [])
  | .getService =>
      some ({ s with service := ok }.gotoIf ok .clientStart,
        if ok then [.acquired .service] else [])
  | .clientStart => some (s.gotoIf ok .publish, [])
  | .publish => some ({ s with running := true }.goto .ready, [])
  | .ready => some ({ s with ready := some true }.goto .top, [])
  | .top => some (s.goto (if s.running then .waiting else .cleaning .client false), [])
  | .waiting => some (s.goto (if ok then .draining else .top), [])
  | .draining =>
      if ok then some (s.goto .top, [])
      else some ({ s with running := false }.goto .top, [.deviceLost])
  | .cleaning stage failed => some (s.clean failed stage)
  | .refusing => some ({ s with ready := some false }.goto .exited, [])
  | .exited => none

/-- `if (thread_.joinable()) thread_.join()`. -/
def join (s : AudioCapture) (next : MainPc) : Option (AudioCapture × List CaptureCall) :=
  match s.thread with
  | none => some ({ s with main := next }, [])
  | some .exited => some ({ s with thread := none, main := next }, [.joined])
  | some _ => none

/-- A step of `Start` or `Stop`. -/
def mainStep (s : AudioCapture) : Option (AudioCapture × List CaptureCall) :=
  match s.main with
  | .starting =>
      if s.running then some ({ s with main := .idle }, [])
      else some ({ s with main := .spawning }, [.starts])
  | .spawning =>
      -- a thread that has not been joined is not to be assigned to
      if s.thread.isSome then some ({ s with main := .terminated }, [])
      else some ({ s with thread := some .coInitialize, ready := none, main := .awaiting }, [])
  | .awaiting =>
      s.ready.map fun ok => ({ s with main := if ok then .idle else .joinFailed }, [])
  | .joinFailed => s.join .idle
  | .stopping => some ({ s with main := if s.running then .clearing else .joinStopped }, [])
  | .joinStopped => s.join .idle
  | .clearing => some ({ s with running := false, main := .testing }, [])
  | .testing => some ({ s with main := if s.hEvent then .signalling else .joining }, [])
  | .signalling => some ({ s with main := .joining }, [.setEvent (s.hEvent && s.event)])
  | .joining => s.join .cleanClient
  | .cleanClient =>
      some ({ s with client := false, main := .cleanService }, releaseIf s.client .client true)
  | .cleanService =>
      some ({ s with service := false, main := .cleanEvent }, releaseIf s.service .service true)
  | .cleanEvent =>
      some ({ s with hEvent := false, event := s.event && !s.hEvent, main := .idle },
        releaseIf s.hEvent .event true)
  | .idle | .terminated => none

/-- One step. -/
def step (s : AudioCapture) (i : CaptureInput) : Option (AudioCapture × List CaptureCall) :=
  if s.main = .terminated then none
  else
    match i with
    | .start => if s.main = .idle then some ({ s with main := .starting }, []) else none
    | .stop => if s.main = .idle then some ({ s with main := .stopping }, []) else none
    | .main => s.mainStep
    | .thread ok => s.thread.bind (s.threadStep ok)

end AudioCapture

/-- Where `Start` or `Stop` goes on after a join. -/
def MainPc.afterJoin : MainPc → Option MainPc
  | .joinFailed | .joinStopped => some .idle
  | .joining => some .cleanClient
  | _ => none

theorem MainPc.of_afterJoin {m next : MainPc} (h : m.afterJoin = some next) :
    m ∈ [.joinFailed, .joinStopped, .joining] ∧ next ∈ [.idle, .cleanClient] := by
  cases m <;> cases h <;> decide

namespace AudioCapture

/-- What `Start` or `Stop` does when it goes on. -/
inductive MainDoes (s : AudioCapture) : AudioCapture → List CaptureCall → Prop
  | refuse (hat : s.main = .starting) (hrunning : s.running = true) :
      MainDoes s { s with main := .idle } []
  | start (hat : s.main = .starting) (hrunning : s.running = false) :
      MainDoes s { s with main := .spawning } [.starts]
  | terminate (pc : ThreadPc) (hat : s.main = .spawning) (hthread : s.thread = some pc) :
      MainDoes s { s with main := .terminated } []
  | spawn (hat : s.main = .spawning) (hthread : s.thread = none) :
      MainDoes s { s with thread := some .coInitialize, ready := none, main := .awaiting } []
  | await (ok : Bool) (hat : s.main = .awaiting) (hready : s.ready = some ok) :
      MainDoes s { s with main := if ok then .idle else .joinFailed } []
  | stop (hat : s.main = .stopping) :
      MainDoes s { s with main := if s.running then .clearing else .joinStopped } []
  | clear (hat : s.main = .clearing) : MainDoes s { s with running := false, main := .testing } []
  | test (hat : s.main = .testing) :
      MainDoes s { s with main := if s.hEvent then .signalling else .joining } []
  | signal (hat : s.main = .signalling) :
      MainDoes s { s with main := .joining } [.setEvent (s.hEvent && s.event)]
  | pass (next : MainPc) (hat : s.main.afterJoin = some next) (hthread : s.thread = none) :
      MainDoes s { s with main := next } []
  | join (next : MainPc) (hat : s.main.afterJoin = some next) (hthread : s.thread = some .exited) :
      MainDoes s { s with thread := none, main := next } [.joined]
  | cleanClient (hat : s.main = .cleanClient) :
      MainDoes s { s with client := false, main := .cleanService }
        (releaseIf s.client .client true)
  | cleanService (hat : s.main = .cleanService) :
      MainDoes s { s with service := false, main := .cleanEvent }
        (releaseIf s.service .service true)
  | cleanEvent (hat : s.main = .cleanEvent) :
      MainDoes s { s with hEvent := false, event := s.event && !s.hEvent, main := .idle }
        (releaseIf s.hEvent .event true)

theorem mainDoes_of_join {s s' : AudioCapture} {os : List CaptureCall} {next : MainPc}
    (hat : s.main.afterJoin = some next) (hstep : s.join next = some (s', os)) :
    s.MainDoes s' os := by
  unfold join at hstep
  split at hstep
  · next hthread =>
      cases hstep
      exact .pass next hat hthread
  · next hthread =>
      cases hstep
      exact .join next hat hthread
  · contradiction

theorem mainDoes_of_step {s s' : AudioCapture} {os : List CaptureCall}
    (hstep : s.mainStep = some (s', os)) : s.MainDoes s' os := by
  cases hat : s.main with
  | idle | terminated => simp [mainStep, hat] at hstep
  | joinFailed | joinStopped | joining =>
      rw [mainStep, hat] at hstep
      exact mainDoes_of_join (by rw [hat]; rfl) hstep
  | starting =>
      rw [mainStep, hat] at hstep
      dsimp only at hstep
      split at hstep
      · next hrunning =>
          cases hstep
          exact .refuse hat hrunning
      · next hrunning =>
          cases hstep
          exact .start hat (Bool.eq_false_iff.mpr hrunning)
  | spawning =>
      rw [mainStep, hat] at hstep
      dsimp only at hstep
      split at hstep
      · next hthread =>
          cases hstep
          obtain ⟨pc, hpc⟩ := Option.isSome_iff_exists.mp hthread
          exact .terminate pc hat hpc
      · next hthread =>
          cases hstep
          exact .spawn hat (Option.not_isSome_iff_eq_none.mp hthread)
  | awaiting =>
      rw [mainStep, hat] at hstep
      obtain ⟨ok, hready, hpair⟩ := Option.map_eq_some_iff.mp hstep
      cases hpair
      exact .await ok hat hready
  | stopping =>
      rw [mainStep, hat] at hstep
      cases hstep
      exact .stop hat
  | clearing =>
      rw [mainStep, hat] at hstep
      cases hstep
      exact .clear hat
  | testing =>
      rw [mainStep, hat] at hstep
      cases hstep
      exact .test hat
  | signalling =>
      rw [mainStep, hat] at hstep
      cases hstep
      exact .signal hat
  | cleanClient =>
      rw [mainStep, hat] at hstep
      cases hstep
      exact .cleanClient hat
  | cleanService =>
      rw [mainStep, hat] at hstep
      cases hstep
      exact .cleanService hat
  | cleanEvent =>
      rw [mainStep, hat] at hstep
      cases hstep
      exact .cleanEvent hat

/-- The thread leaves `Start` and `Stop` where they are, and goes on to be there. -/
theorem main_threadStep {s s' : AudioCapture} {pc : ThreadPc} {os : List CaptureCall} {ok : Bool}
    (hstep : s.threadStep ok pc = some (s', os)) :
    s'.main = s.main ∧ s'.thread.isSome = true := by
  cases pc with
  | coInitialize | createEvent | draining => cases ok <;> cases hstep <;> exact ⟨rfl, rfl⟩
  | exited => contradiction
  | cleaning stage failed =>
      cases stage with
      | close =>
          simp only [threadStep, clean] at hstep
          split at hstep <;> cases hstep <;> exact ⟨rfl, rfl⟩
      | _ =>
          cases hstep
          exact ⟨rfl, rfl⟩
  | _ =>
      cases hstep
      exact ⟨rfl, rfl⟩

/-- Where the clean-up goes on. -/
def cleanNext (s : AudioCapture) (failed : Bool) : Cleanup → ThreadPc
  | .client => .cleaning .service failed
  | .service => .cleaning .close failed
  | .close => .cleaning (if s.hEvent then .null else .uninit) failed
  | .null => .cleaning .uninit failed
  | .uninit => .cleaning (if failed then .reply else .device) failed
  | .reply => .cleaning .device failed
  | .device => .cleaning .enumerator failed
  | .enumerator => .exited

end AudioCapture

/-- The capture from its construction on. -/
def capture : Machine AudioCapture CaptureInput CaptureCall where
  step := AudioCapture.step

/-- A start, and a stop. -/
def startedAndStopped : List CaptureInput :=
  [.start, .main, .main] ++ List.replicate 12 (.thread true) ++ [.main, .stop] ++
    List.replicate 4 .main ++ List.replicate 8 (.thread true) ++ List.replicate 4 .main

end TwinScreen.Host.CaptureThread
