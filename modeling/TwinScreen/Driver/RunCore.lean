import TwinScreen.Lib.Machine
import TwinScreen.Lib.Trace

/-!
# TwinScreen.Driver.RunCore

The loop of `SwapChainProcessor::RunCore`, with its two events: that of new frames, which the
OS hands in, and that of termination, which the destructor sets and a wait resets.

* `leaves_iff` — in which runs a wait that the termination ended is the end of the loop.
* `join_waits` — where it is not, the destructor waits on.
-/

namespace TwinScreen.Driver

open Lib

/-! ## Windows -/

def ePending : UInt32 := 0x8000000A
def dxgiErrorAccessLost : UInt32 := 0x887A0026
def invalidHandleValue : UInt64 := 0xFFFFFFFFFFFFFFFF
def waitObject0 : UInt32 := 0
def waitFailed : UInt32 := 0xFFFFFFFF

/-- `SUCCEEDED` of an `HRESULT`. -/
def succeeded (hr : UInt32) : Bool := hr < 0x80000000

/-- The events of a processor. -/
inductive WaitHandle
  /-- `m_hAvailableBufferEvent`. -/
  | frame
  /-- `m_hTerminateEvent`. -/
  | terminate
  deriving DecidableEq, Repr

/-- What `WaitForMultipleObjects` returns when an event ends the wait; with `none` it fails. -/
def waitResult (handles : List WaitHandle) : Option WaitHandle → Option UInt32
  | none => some waitFailed
  | some h => (handles.idxOf? h).map fun i => waitObject0 + UInt32.ofNat i

/-! ## the loop -/

/-- Where `RunCore` is. -/
inductive RunCorePc
  /-- Before the loop. -/
  | binding
  /-- At the acquire. -/
  | acquiring
  /-- At `WaitForMultipleObjects`. -/
  | waiting
  /-- At `IddCxSwapChainFinishedProcessingFrame`. -/
  | finishing
  | returned
  deriving DecidableEq, Repr

/-- A `SwapChainProcessor`. -/
structure RunCore where
  hAvailableBufferEvent : UInt64
  hTerminateEvent : UInt64
  /-- The terminate event is signalled. -/
  terminateSet : Bool := false
  retryCount : UInt32 := 0
  pc : RunCorePc := .binding
  deriving DecidableEq, Repr

/-- What the calls return; and `SetEvent` of the destructor. -/
inductive RunCoreInput
  | setEvent
  /-- The device is set, or there is none. -/
  | bind (ok : Bool)
  | acquire (hr : UInt32)
  | wait (cause : Option WaitHandle)
  | finished (hr : UInt32)
  deriving DecidableEq, Repr

inductive RunCoreEvent
  /-- An acquire is issued. -/
  | acquired
  /-- An event has ended a wait. -/
  | woken (cause : WaitHandle)
  deriving DecidableEq, Repr

namespace RunCore

/-- The frame event is one. -/
def HasFrame (s : RunCore) : Prop :=
  s.hAvailableBufferEvent ≠ 0 ∧ s.hAvailableBufferEvent ≠ invalidHandleValue

instance (s : RunCore) : Decidable s.HasFrame := inferInstanceAs (Decidable (_ ∧ _))

/-- The array `waitHandles`. -/
def waitHandles (s : RunCore) : List WaitHandle :=
  (if s.HasFrame then [.frame] else []) ++ (if s.hTerminateEvent ≠ 0 then [.terminate] else [])

/-- After the acquire. -/
def afterAcquire (s : RunCore) (hr : UInt32) : RunCore :=
  if hr = ePending then
    { s with pc := .waiting }
  else if succeeded hr then
    { s with pc := .finishing }
  else if hr = dxgiErrorAccessLost ∧ s.retryCount < 5 then
    { s with retryCount := s.retryCount + 1, pc := .acquiring }
  else
    { s with pc := .returned }

/-- After the wait. -/
def afterWait (s : RunCore) (result : UInt32) : RunCore :=
  if result = waitObject0 then
    -- new frame available, try to acquire again
    { s with pc := .acquiring }
  else if 1 < s.waitHandles.length ∧ result = waitObject0 + 1 then
    -- terminate requested
    { s with pc := .returned }
  else
    { s with pc := .acquiring }

/-- The wait; it resets the terminate event that has ended it. -/
def wait (s : RunCore) (cause : Option WaitHandle) : Option (RunCore × List RunCoreEvent) :=
  if cause = some .terminate ∧ s.terminateSet = false then
    none
  else
    (waitResult s.waitHandles cause).map fun result =>
      let reset := if cause = some .terminate then { s with terminateSet := false } else s
      (reset.afterWait result, cause.toList.map .woken)

/-- After `IddCxSwapChainFinishedProcessingFrame`. -/
def afterFinished (s : RunCore) (hr : UInt32) : RunCore :=
  if succeeded hr then { s with retryCount := 0, pc := .acquiring } else { s with pc := .returned }

def step (s : RunCore) : RunCoreInput → Option (RunCore × List RunCoreEvent)
  | .setEvent => if s.hTerminateEvent ≠ 0 then some ({ s with terminateSet := true }, []) else none
  | .bind ok =>
      if s.pc = .binding then
        some ({ s with pc := if ok then .acquiring else .returned }, [])
      else none
  | .acquire hr => if s.pc = .acquiring then some (s.afterAcquire hr, [.acquired]) else none
  | .wait cause => if s.pc = .waiting then s.wait cause else none
  | .finished hr => if s.pc = .finishing then some (s.afterFinished hr, []) else none

end RunCore

/-- The machine of a processor. -/
def runCore : Machine RunCore RunCoreInput RunCoreEvent where
  step := RunCore.step

/-! ## one step -/

/-- What a step puts out. -/
def RunCoreInput.events : RunCoreInput → List RunCoreEvent
  | .acquire _ => [.acquired]
  | .wait cause => cause.toList.map .woken
  | .setEvent | .bind _ | .finished _ => []

/-- Where a step is taken, and where a wait ended by the termination leads. -/
def RunCore.Goes (s s' : RunCore) : RunCoreInput → Prop
  | .setEvent => s'.pc = s.pc
  | .bind _ => s.pc = .binding
  | .acquire _ => s.pc = .acquiring
  | .wait cause => s.pc = .waiting ∧
      (cause = some .terminate → s'.pc = if s.HasFrame then .returned else .acquiring)
  | .finished _ => s.pc = .finishing

/-- A wait that the termination ended: its index depends on the frame event. -/
theorem afterWait_terminate {s : RunCore} {result : UInt32}
    (h : waitResult s.waitHandles (some .terminate) = some result) :
    (s.afterWait result).pc = if s.HasFrame then .returned else .acquiring := by
  rw [RunCore.afterWait]
  rw [RunCore.waitHandles] at h ⊢
  by_cases hterm : s.hTerminateEvent ≠ 0
  · by_cases hframe : s.HasFrame
    · -- the second of two
      rw [if_pos hframe, if_pos hterm] at h ⊢
      cases h
      rw [if_pos hframe]
      rfl
    · -- the first of one
      rw [if_neg hframe, if_pos hterm] at h ⊢
      cases h
      rw [if_neg hframe]
      rfl
  · by_cases hframe : s.HasFrame
    · rw [if_pos hframe, if_neg hterm] at h
      contradiction
    · rw [if_neg hframe, if_neg hterm] at h
      contradiction

theorem afterWait_events (s : RunCore) (result : UInt32) :
    (s.afterWait result).hAvailableBufferEvent = s.hAvailableBufferEvent ∧
      (s.afterWait result).terminateSet = s.terminateSet := by
  unfold RunCore.afterWait
  split
  · exact ⟨rfl, rfl⟩
  · split <;> exact ⟨rfl, rfl⟩

theorem afterAcquire_event (s : RunCore) (hr : UInt32) :
    (s.afterAcquire hr).hAvailableBufferEvent = s.hAvailableBufferEvent := by
  unfold RunCore.afterAcquire
  split
  · rfl
  · split
    · rfl
    · split <;> rfl

theorem afterFinished_event (s : RunCore) (hr : UInt32) :
    (s.afterFinished hr).hAvailableBufferEvent = s.hAvailableBufferEvent := by
  unfold RunCore.afterFinished
  split <;> rfl

/-- What a wait does: the terminate event that has ended it is signalled, and reset. -/
theorem wait_cases {s s' : RunCore} {cause : Option WaitHandle} {o : List RunCoreEvent}
    (h : s.wait cause = some (s', o)) :
    o = cause.toList.map .woken ∧ (cause = some .terminate → s.terminateSet = true) ∧
      ∃ result, waitResult s.waitHandles cause = some result ∧
        s' = ({ s with terminateSet := s.terminateSet && cause != some .terminate } :
          RunCore).afterWait result := by
  rw [RunCore.wait, Option.ite_none_left_eq_some] at h
  obtain ⟨hset, h⟩ := h
  obtain ⟨result, hresult, hpair⟩ := Option.map_eq_some_iff.mp h
  cases hpair
  refine ⟨rfl, fun hcause => by simpa [hcause] using hset, result, hresult, ?_⟩
  by_cases hcause : cause = some .terminate
  · simp [hcause]
  · rw [if_neg hcause, bne_iff_ne.mpr hcause, Bool.and_true]

/-- **What one step does.** -/
theorem step_spec {s s' : RunCore} {i : RunCoreInput} {o : List RunCoreEvent}
    (h : s.step i = some (s', o)) :
    o = i.events ∧ s'.hAvailableBufferEvent = s.hAvailableBufferEvent ∧ s.Goes s' i := by
  cases i with
  | setEvent =>
      rw [RunCore.step, Option.ite_none_right_eq_some] at h
      cases h.2
      exact ⟨rfl, rfl, rfl⟩
  | bind ok =>
      rw [RunCore.step, Option.ite_none_right_eq_some] at h
      cases h.2
      exact ⟨rfl, rfl, h.1⟩
  | acquire hr =>
      rw [RunCore.step, Option.ite_none_right_eq_some] at h
      cases h.2
      exact ⟨rfl, afterAcquire_event s hr, h.1⟩
  | wait cause =>
      rw [RunCore.step, Option.ite_none_right_eq_some] at h
      obtain ⟨ho, -, result, hresult, rfl⟩ := wait_cases h.2
      refine ⟨ho, (afterWait_events _ result).1, h.1, fun hcause => ?_⟩
      rw [hcause] at hresult
      exact afterWait_terminate hresult
  | finished hr =>
      rw [RunCore.step, Option.ite_none_right_eq_some] at h
      cases h.2
      exact ⟨rfl, afterFinished_event s hr, h.1⟩

/-- No step changes the events. -/
theorem hasFrame_step {s s' : RunCore} {i : RunCoreInput} {o : List RunCoreEvent}
    (h : s.step i = some (s', o)) : s'.HasFrame ↔ s.HasFrame := by
  rw [RunCore.HasFrame, (step_spec h).2.1]
  rfl

/-! ## a run -/

/-- No acquire is issued once the termination has ended a wait. -/
def NoAcquireAfter : List RunCoreEvent → Prop :=
  Each fun p o => o = .acquired → .woken .terminate ∉ p

/-- Once the termination has ended a wait, `RunCore` has returned without another acquire. -/
structure LeavesOnTerminate (s : RunCore) (tr : List RunCoreEvent) : Prop where
  returned : .woken .terminate ∈ tr → s.pc = .returned
  noAcquire : NoAcquireAfter tr

/-- With a frame event the termination is recognised. -/
theorem leaves_step {s s' : RunCore} {tr o : List RunCoreEvent} {i : RunCoreInput}
    (hframe : s.HasFrame) (hs : LeavesOnTerminate s tr) (h : s.step i = some (s', o)) :
    LeavesOnTerminate s' (tr ++ o) := by
  obtain ⟨rfl, -, hgoes⟩ := step_spec h
  have hfresh (hpc : s.pc ≠ .returned) : .woken .terminate ∉ tr := fun hmem =>
    hpc (hs.returned hmem)
  cases i with
  | setEvent =>
      rw [RunCoreInput.events, List.append_nil]
      exact ⟨fun hmem => hgoes.trans (hs.returned hmem), hs.noAcquire⟩
  | bind ok | finished hr =>
      have hnot := hfresh (by rw [show s.pc = _ from hgoes]; decide)
      rw [RunCoreInput.events, List.append_nil]
      exact ⟨fun hmem => absurd hmem hnot, hs.noAcquire⟩
  | acquire hr =>
      have hnot := hfresh (by rw [show s.pc = _ from hgoes]; decide)
      constructor
      · intro hmem
        simp [RunCoreInput.events, hnot] at hmem
      · exact (each_concat tr _).mpr ⟨hs.noAcquire, fun _ => hnot⟩
  | wait cause =>
      obtain ⟨hpc, hterm⟩ := hgoes
      have hnot := hfresh (by rw [hpc]; decide)
      constructor
      · intro hmem
        have hcause : cause = some .terminate := by
          simpa [RunCoreInput.events, hnot] using hmem
        rw [hterm hcause, if_pos hframe]
      · refine (each_append_of_free ?_).mpr hs.noAcquire
        intro p o ho hacq
        simp [RunCoreInput.events, hacq] at ho

/-- A wait that has no frame event takes the terminate event for a frame: `RunCore` is at the next
acquire, or has passed it. -/
theorem misses_step {s s' : RunCore} {tr o : List RunCoreEvent} {i : RunCoreInput}
    (hframe : ¬ s.HasFrame)
    (hs : .woken .terminate ∈ tr → s.pc = .acquiring ∨ ¬ NoAcquireAfter tr)
    (h : s.step i = some (s', o)) (hmem : .woken .terminate ∈ tr ++ o) :
    s'.pc = .acquiring ∨ ¬ NoAcquireAfter (tr ++ o) := by
  obtain ⟨rfl, -, hgoes⟩ := step_spec h
  -- what was missed before stays missed
  have hkeep (hpc : s.pc ≠ .acquiring) (hmem : .woken .terminate ∈ tr) :
      ¬ NoAcquireAfter (tr ++ i.events) := fun hno =>
    (hs hmem).resolve_left hpc hno.of_append
  cases i with
  | setEvent =>
      rw [RunCoreInput.events, List.append_nil] at hmem ⊢
      rw [show s'.pc = s.pc from hgoes]
      exact hs hmem
  | bind ok | finished hr =>
      rw [RunCoreInput.events, List.append_nil] at hmem
      exact .inr (hkeep (by rw [show s.pc = _ from hgoes]; decide) hmem)
  | acquire hr =>
      have hold : .woken .terminate ∈ tr := by simpa [RunCoreInput.events] using hmem
      exact .inr fun hno => ((each_concat tr _).mp hno).2 rfl hold
  | wait cause =>
      obtain ⟨hpc, hterm⟩ := hgoes
      rcases List.mem_append.mp hmem with hold | hnew
      · exact .inr (hkeep (by rw [hpc]; decide) hold)
      · have hcause : cause = some .terminate := by simpa [RunCoreInput.events] using hnew
        rw [hterm hcause, if_neg hframe]
        exact .inl rfl

/-- With a frame event every run leaves the loop. -/
theorem leaves_of_frame {s₀ s : RunCore} {inputs : List RunCoreInput} {tr : List RunCoreEvent}
    (hframe : s₀.HasFrame) (hrun : runCore.run s₀ inputs = some (s, tr)) :
    LeavesOnTerminate s tr := by
  have hinit : s₀.HasFrame ∧ LeavesOnTerminate s₀ [] := ⟨hframe, nofun, each_nil⟩
  have hstep : ∀ s tr i s' o, s.HasFrame ∧ LeavesOnTerminate s tr → True →
      runCore.step s i = some (s', o) → s'.HasFrame ∧ LeavesOnTerminate s' (tr ++ o) := by
    intro s tr i s' o hs _ hstep
    exact ⟨(hasFrame_step hstep).mpr hs.1, leaves_step hs.1 hs.2 hstep⟩
  exact (runCore.run_invariant hstep hinit (runCore.along_true s₀ inputs) hrun).2

/-- Without a frame event every run in which the terminate event wakes the thread misses it. -/
theorem misses_of_not_frame {s₀ s : RunCore} {inputs : List RunCoreInput} {tr : List RunCoreEvent}
    (hframe : ¬ s₀.HasFrame) (hrun : runCore.run s₀ inputs = some (s, tr))
    (hmem : .woken .terminate ∈ tr) : s.pc = .acquiring ∨ ¬ NoAcquireAfter tr := by
  have hinit : ¬ s₀.HasFrame ∧
      (RunCoreEvent.woken .terminate ∈ [] → s₀.pc = .acquiring ∨ ¬ NoAcquireAfter []) :=
    ⟨hframe, nofun⟩
  have hstep : ∀ s tr i s' o, ¬ s.HasFrame ∧
      (.woken .terminate ∈ tr → s.pc = .acquiring ∨ ¬ NoAcquireAfter tr) → True →
      runCore.step s i = some (s', o) → ¬ s'.HasFrame ∧
        (.woken .terminate ∈ tr ++ o → s'.pc = .acquiring ∨ ¬ NoAcquireAfter (tr ++ o)) := by
    intro s tr i s' o hs _ hstep
    exact ⟨mt (hasFrame_step hstep).mp hs.1, misses_step hs.1 hs.2 hstep⟩
  exact (runCore.run_invariant hstep hinit (runCore.along_true s₀ inputs) hrun).2 hmem

/-- **In which runs a wait that the termination ended is the end of the loop**: those of a
processor with a frame event, and those without such a wait. -/
theorem leaves_iff (frame terminate : UInt64) (inputs : List RunCoreInput) (s : RunCore)
    (tr : List RunCoreEvent)
    (hrun : runCore.run { hAvailableBufferEvent := frame, hTerminateEvent := terminate } inputs =
      some (s, tr)) :
    LeavesOnTerminate s tr ↔
      (frame ≠ 0 ∧ frame ≠ invalidHandleValue) ∨ .wait (some .terminate) ∉ inputs := by
  have hwoken : .woken .terminate ∈ tr ↔ .wait (some .terminate) ∈ inputs := by
    refine runCore.mem_run_iff (fun s i s' o hstep => ?_) hrun
    rw [(step_spec hstep).1]
    cases i <;> simp [RunCoreInput.events]
  by_cases hframe : frame ≠ 0 ∧ frame ≠ invalidHandleValue
  · exact iff_of_true (@leaves_of_frame ⟨frame, terminate, false, 0, .binding⟩ _ _ _ hframe hrun)
      (.inl hframe)
  · rw [or_iff_right hframe, ← hwoken]
    constructor
    · intro hleaves hmem
      rcases @misses_of_not_frame ⟨frame, terminate, false, 0, .binding⟩ _ _ _ hframe hrun hmem
        with hpc | hno
      · rw [hleaves.returned hmem] at hpc
        contradiction
      · exact hno hleaves.noAcquire
    · intro hnot
      refine ⟨fun hmem => absurd hmem hnot, ?_⟩
      intro p o q heq _ hmem
      exact hnot (heq ▸ List.mem_append_left _ hmem)

/-- The destructor sets the terminate event while `RunCore` waits for a frame. -/
def terminated : List RunCoreInput :=
  [.bind true, .acquire ePending, .setEvent, .wait (some .terminate)]

theorem leaves_iff_terminated :
    LeavesOnTerminate ⟨8, 12, false, 0, .returned⟩ [.acquired, .woken .terminate] ↔
      ((8 : UInt64) ≠ 0 ∧ (8 : UInt64) ≠ invalidHandleValue) ∨
        .wait (some .terminate) ∉ terminated :=
  leaves_iff 8 12 terminated ⟨8, 12, false, 0, .returned⟩ [.acquired, .woken .terminate]
    (by decide)

/-- Without a frame event the next acquire follows. -/
theorem terminated_acquires :
    ∃ s tr, runCore.run { hAvailableBufferEvent := 0, hTerminateEvent := 12 }
        (terminated ++ [.acquire ePending]) = some (s, tr) ∧ ¬ LeavesOnTerminate s tr := by
  refine ⟨⟨0, 12, false, 0, .waiting⟩, [.acquired, .woken .terminate, .acquired], by decide, ?_⟩
  intro h
  exact absurd (h.returned (by decide)) (by decide)

/-! ## the destructor -/

/-- The termination has been missed, and the loop goes on. -/
structure RunCore.Missed (s : RunCore) : Prop where
  frame : ¬ s.HasFrame
  terminate : s.terminateSet = false
  pc : s.pc = .acquiring ∨ s.pc = .waiting

/-- No surface comes. -/
def Pends (i : RunCoreInput) : Prop := i = .acquire ePending ∨ ∃ cause, i = .wait cause

/-- A wait that the termination ended has reset its event. -/
theorem missed_of_wait {s s' : RunCore} {o : List RunCoreEvent} (hframe : ¬ s.HasFrame)
    (h : s.step (.wait (some .terminate)) = some (s', o)) : s'.Missed := by
  obtain ⟨-, -, -, hterm⟩ := step_spec h
  have hpc := hterm rfl
  rw [if_neg hframe] at hpc
  refine ⟨mt (hasFrame_step h).mp hframe, ?_, .inl hpc⟩
  rw [RunCore.step, Option.ite_none_right_eq_some] at h
  obtain ⟨-, -, result, -, rfl⟩ := wait_cases h.2
  rw [(afterWait_events _ result).2]
  exact Bool.and_false _

theorem missed_step {s s' : RunCore} {o : List RunCoreEvent} {i : RunCoreInput} (hs : s.Missed)
    (hi : Pends i) (h : s.step i = some (s', o)) : s'.Missed := by
  have hframe : ¬ s'.HasFrame := mt (hasFrame_step h).mp hs.frame
  rcases hi with rfl | ⟨cause, rfl⟩
  · rw [RunCore.step, Option.ite_none_right_eq_some] at h
    cases h.2
    exact ⟨hframe, hs.terminate, .inr rfl⟩
  · rw [RunCore.step, Option.ite_none_right_eq_some] at h
    obtain ⟨-, hset, result, hresult, rfl⟩ := wait_cases h.2
    have hterminate := (afterWait_events
      { s with terminateSet := s.terminateSet && cause != some .terminate } result).2
    refine ⟨hframe, by rw [hterminate, hs.terminate, Bool.false_and], .inl ?_⟩
    cases cause with
    | none =>
        -- the wait fails
        cases hresult
        rw [RunCore.afterWait, if_neg (by decide), if_neg (fun h => absurd h.2 (by decide))]
    | some event =>
        cases event with
        | terminate =>
            rw [hs.terminate] at hset
            exact absurd (hset rfl) (by decide)
        | frame =>
            rw [RunCore.waitHandles, if_neg hs.frame] at hresult
            split at hresult <;> contradiction

/-- **The destructor waits on**: when the termination has been missed, `RunCore` does not
return while no surface comes. -/
theorem join_waits {s s' : RunCore} {tr : List RunCoreEvent} (hs : s.Missed)
    {inputs : List RunCoreInput} (hpends : ∀ i ∈ inputs, Pends i)
    (hrun : runCore.run s inputs = some (s', tr)) : s'.pc ≠ .returned := by
  have hstep : ∀ (s : RunCore) (tr : List RunCoreEvent) i s' o, s.Missed → Pends i →
      runCore.step s i = some (s', o) → s'.Missed :=
    fun s tr i s' o hs hi hstep => missed_step hs hi hstep
  have hend := @Machine.run_invariant _ _ _ runCore (fun s _ => s.Missed) (fun _ i => Pends i) hstep
    inputs s s' [] tr hs (runCore.along_of_forall hpends s) hrun
  rcases hend.pc with hpc | hpc <;> rw [hpc] <;> decide

end TwinScreen.Driver
