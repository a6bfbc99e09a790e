import TwinScreen.Host.CaptureThread
import TwinScreen.Lib.Custody

/-!
# TwinScreen.Host.CaptureCustody

What `CaptureLoop` acquires, and who gives it back.

* `capture_released` — the thread gives back all it has got, once, however it ends, and
  leaves nothing to `Stop`.
-/

namespace TwinScreen.Host.CaptureThread

open Lib

/-! ## custody -/

instance : Fintype Resource :=
  ⟨{.com, .enumerator, .device, .client, .mix, .event, .service}, fun r => by cases r <;> decide⟩

/-- What a call acquires or releases. -/
def CaptureCall.receipt : CaptureCall → Receipt Resource
  | .acquired r => .acquires r
  | .released r _ => .releases r
  | .setEvent _ | .deviceLost | .starts | .joined => .neither

namespace AudioCapture

/-- What is held. -/
def holds (s : AudioCapture) : Resource → Bool
  | .com => s.com
  | .enumerator => s.enumerator
  | .device => s.device
  | .client => s.client
  | .mix => s.mix
  | .event => s.event
  | .service => s.service

end AudioCapture

/-- What may be held at a place. -/
def ThreadPc.may : ThreadPc → List Resource
  | .coInitialize | .refusing | .exited => []
  | .enumerator => [.com]
  | .endpoint => [.com, .enumerator]
  | .activate => [.com, .enumerator, .device]
  | .mixFormat => [.com, .enumerator, .device, .client]
  | .createEvent => [.com, .enumerator, .device, .client, .mix]
  | .initClient => [.com, .enumerator, .device, .client, .mix, .event]
  | .setEventHandle | .getService => [.com, .enumerator, .device, .client, .event]
  | .clientStart | .publish | .ready | .top | .waiting | .draining | .cleaning .client _ =>
      [.com, .enumerator, .device, .client, .event, .service]
  | .cleaning .service _ => [.com, .enumerator, .device, .event, .service]
  | .cleaning .close _ => [.com, .enumerator, .device, .event]
  | .cleaning .null _ | .cleaning .uninit _ => [.com, .enumerator, .device]
  | .cleaning .reply _ | .cleaning .device _ => [.enumerator, .device]
  | .cleaning .enumerator _ => [.enumerator]

/-- What is held at a place in any case. -/
def ThreadPc.must : ThreadPc → List Resource
  | .coInitialize | .refusing | .exited | .cleaning .reply _ | .cleaning .device _
  | .cleaning .enumerator _ => []
  | .createEvent | .initClient => [.com, .mix]
  | _ => [.com]

/-- `h_event_` has been closed and is not cleared yet. -/
def ThreadPc.closed : ThreadPc → Bool
  | .cleaning .null _ => true
  | _ => false

namespace AudioCapture

/-- The thread holds what it may and must hold where it is. -/
structure Holds (s : AudioCapture) (pc : ThreadPc) : Prop where
  may : ∀ r, s.holds r = true → r ∈ pc.may
  must : ∀ r ∈ pc.must, s.holds r = true
  hEvent : s.hEvent = (s.event || pc.closed)

/-- The handles outstanding after a step. -/
def Balances (s s' : AudioCapture) (os : List CaptureCall) : Prop :=
  os.foldl (outstanding CaptureCall.receipt) (some (flagged s.holds)) = some (flagged s'.holds)

/-- A step of the thread to a place. -/
structure Goes (s s' : AudioCapture) (os : List CaptureCall) (pc : ThreadPc) : Prop where
  thread : s'.thread = some pc
  balances : s.Balances s' os
  holds : s'.Holds pc
  byThread : ∀ r, .released r true ∉ os

variable {s s' : AudioCapture} {pc pc' : ThreadPc} {os : List CaptureCall} {ok : Bool}
  {r : Resource}

theorem Holds.not_holds (h : s.Holds pc) (hr : r ∉ pc.may) : s.holds r = false :=
  Bool.eq_false_iff.mpr fun hheld => hr (h.may r hheld)

/-- No call for an object, and none that gives one back. -/
theorem balances_same (hs : s'.holds = s.holds) (hos : ∀ c ∈ os, c.receipt = .neither) :
    s.Balances s' os := by
  unfold Balances
  rw [hs]
  induction os with
  | nil => rfl
  | cons c os ih =>
      rw [List.forall_mem_cons] at hos
      rw [List.foldl_cons, Attempt.outstanding_neither hos.1, ih hos.2]

theorem Holds.goes_same (h : s.Holds pc) (hthread : s'.thread = some pc')
    (hs : s'.holds = s.holds) (hos : ∀ c ∈ os, c.receipt = .neither)
    (hmay : ∀ x ∈ pc.may, x ∈ pc'.may) (hmust : ∀ x ∈ pc'.must, x ∈ pc.must)
    (hevent : s'.hEvent = (s'.event || pc'.closed)) : s.Goes s' os pc' where
  thread := hthread
  balances := balances_same hs hos
  holds :=
    { may := fun x hx => hmay x (h.may x (by rwa [← hs]))
      must := fun x hx => by rw [hs]; exact h.must x (hmust x hx)
      hEvent := hevent }
  byThread := fun _ hr => nomatch hos _ hr

/-- A call that gives an object. -/
theorem Holds.goes_acquired (h : s.Holds pc) (hthread : s'.thread = some pc')
    (hs : s'.holds = Function.update s.holds r true) (hr : r ∉ pc.may)
    (hmay : ∀ x ∈ r :: pc.may, x ∈ pc'.may) (hmust : ∀ x ∈ pc'.must, x ∈ r :: pc.must)
    (hevent : s'.hEvent = (s'.event || pc'.closed)) : s.Goes s' [.acquired r] pc' where
  thread := hthread
  balances := by
    unfold Balances
    rw [hs]
    exact outstanding_acquires_flagged rfl (h.not_holds hr)
  holds :=
    { may := fun x hx => by
        rw [hs] at hx
        by_cases hxr : x = r
        · exact hmay x (by simp [hxr])
        · exact hmay x (List.mem_cons_of_mem r (h.may x (by simpa [hxr] using hx)))
      must := fun x hx => by
        rw [hs]
        by_cases hxr : x = r
        · simp [hxr]
        · have := hmust x hx
          simpa [hxr] using h.must x (by simpa [hxr] using this)
      hEvent := hevent }
  byThread := by simp

/-- A call that asks for an object and may fail; then `finish` is called. -/
theorem Holds.goes_asked (h : s.Holds pc) (r : Resource)
    (hthread : s'.thread = some (if ok then pc' else .cleaning .client true))
    (hs : s'.holds = Function.update s.holds r ok) (hr : r ∉ pc.may)
    (hmay : ∀ x ∈ r :: pc.may, x ∈ pc'.may) (hmust : ∀ x ∈ pc'.must, x ∈ r :: pc.must)
    (hmay' : ∀ x ∈ pc.may, x ∈ (ThreadPc.cleaning .client true).may) (hmust' : .com ∈ pc.must)
    (hclosed : pc'.closed = false) (hevent : s'.hEvent = s'.event) :
    ∃ pc', s.Goes s' (if ok then [.acquired r] else []) pc' := by
  cases ok with
  | false =>
      rw [Function.update_eq_self_iff.mpr (h.not_holds hr).symm] at hs
      exact ⟨_, h.goes_same hthread hs nofun hmay' (by simpa [ThreadPc.must] using hmust')
        (hevent.trans (Bool.or_false _).symm)⟩
  | true => exact ⟨_, h.goes_acquired hthread hs hr hmay hmust (by simp [hevent, hclosed])⟩

/-- A call that gives an object back. -/
theorem Holds.goes_released (h : s.Holds pc) (hthread : s'.thread = some pc')
    (hs : s'.holds = Function.update s.holds r false) (hr : s.holds r = true)
    (hmay : ∀ x ∈ pc.may, x ∈ r :: pc'.may) (hmust : ∀ x ∈ pc'.must, x ≠ r ∧ x ∈ pc.must)
    (hevent : s'.hEvent = (s'.event || pc'.closed)) : s.Goes s' [.released r false] pc' where
  thread := hthread
  balances := by
    unfold Balances
    rw [hs]
    exact outstanding_releases_flagged rfl hr
  holds :=
    { may := fun x hx => by
        rw [hs] at hx
        by_cases hxr : x = r
        · simp [hxr] at hx
        · have := hmay x (h.may x (by simpa [hxr] using hx))
          simpa [hxr] using this
      must := fun x hx => by
        obtain ⟨hxr, hx⟩ := hmust x hx
        simpa [hs, hxr] using h.must x hx
      hEvent := hevent }
  byThread := by simp

/-- A call that gives the object back, if there is one. -/
theorem Holds.goes_releaseIf (h : s.Holds pc) (hthread : s'.thread = some pc')
    (hs : s'.holds = Function.update s.holds r false)
    (hmay : ∀ x ∈ pc.may, x ∈ r :: pc'.may) (hmust : ∀ x ∈ pc'.must, x ≠ r ∧ x ∈ pc.must)
    (hevent : s'.hEvent = (s'.event || pc'.closed)) :
    s.Goes s' (releaseIf (s.holds r) r false) pc' := by
  unfold releaseIf
  cases hr : s.holds r with
  | true => exact h.goes_released hthread hs hr hmay hmust hevent
  | false =>
      rw [Function.update_eq_self_iff.mpr hr.symm] at hs
      refine ⟨hthread, balances_same hs nofun, ⟨fun x hx => ?_, fun x hx => ?_, hevent⟩, nofun⟩
      · have hxr : x ≠ r := by
          rintro rfl
          simp [hs, hr] at hx
        have := hmay x (h.may x (by rwa [← hs]))
        simpa [hxr] using this
      · rw [hs]
        exact h.must x (hmust x hx).2

/-- A step of the clean-up gives back what there is. -/
theorem Holds.clean {stage : Cleanup} {failed : Bool} (h : s.Holds (.cleaning stage failed)) :
    s.Goes (s.clean failed stage).1 (s.clean failed stage).2 (s.cleanNext failed stage) := by
  have heq {f g : Resource → Bool} (h : ∀ x, f x = g x) : f = g := funext h
  cases stage with
  | client =>
      exact h.goes_releaseIf (r := .client) rfl (heq fun x => by cases x <;> rfl)
        (by simp [cleanNext, ThreadPc.may]) (by simp [cleanNext, ThreadPc.must]) h.hEvent
  | service =>
      exact h.goes_releaseIf (r := .service) rfl (heq fun x => by cases x <;> rfl)
        (by simp [cleanNext, ThreadPc.may]) (by simp [cleanNext, ThreadPc.must]) h.hEvent
  | device =>
      exact h.goes_releaseIf (r := .device) rfl (heq fun x => by cases x <;> rfl)
        (by simp [cleanNext, ThreadPc.may]) (by simp [cleanNext, ThreadPc.must]) h.hEvent
  | enumerator =>
      exact h.goes_releaseIf (r := .enumerator) rfl (heq fun x => by cases x <;> rfl)
        (by simp [cleanNext, ThreadPc.may]) (by simp [cleanNext, ThreadPc.must]) h.hEvent
  | close =>
      have hevent : s.hEvent = s.holds .event := h.hEvent.trans (Bool.or_false _)
      simp only [AudioCapture.clean, cleanNext, hevent]
      cases hopen : s.holds .event with
      | false =>
          -- `h_event_` is null
          have hsame : (s.goto (.cleaning .uninit failed)).holds =
              Function.update s.holds .event false := by
            rw [Function.update_eq_self_iff.mpr hopen.symm]
            exact heq fun x => by cases x <;> rfl
          have hgoes : s.Goes (s.goto (.cleaning .uninit failed))
              (releaseIf (s.holds .event) .event false) (.cleaning .uninit failed) :=
            h.goes_releaseIf rfl hsame (by simp [ThreadPc.may]) (by simp [ThreadPc.must]) h.hEvent
          rw [hopen] at hgoes
          exact hgoes
      | true =>
          exact h.goes_released rfl (heq fun x => by cases x <;> rfl) hopen
            (by simp [ThreadPc.may]) (by simp [ThreadPc.must]) rfl
  | null =>
      have hclosed : s.event = false := h.not_holds (r := .event) (by simp [ThreadPc.may])
      exact h.goes_same rfl (heq fun x => by cases x <;> rfl) (by simp [AudioCapture.clean])
        (by simp [cleanNext, ThreadPc.may]) (by simp [cleanNext, ThreadPc.must])
        (by simp [AudioCapture.clean, cleanNext, goto, ThreadPc.closed, hclosed])
  | uninit =>
      exact h.goes_released rfl (heq fun x => by cases x <;> rfl)
        (h.must .com (by simp [ThreadPc.must]))
        (by cases failed <;> simp [cleanNext, ThreadPc.may])
        (by cases failed <;> simp [cleanNext, ThreadPc.must]) (by cases failed <;> exact h.hEvent)
  | reply =>
      exact h.goes_same rfl (heq fun x => by cases x <;> rfl) (by simp [AudioCapture.clean])
        (by simp [cleanNext, ThreadPc.may]) (by simp [cleanNext, ThreadPc.must]) h.hEvent

/-- **Step lemma**, of the thread's custody. -/
theorem Holds.step (h : s.Holds pc) (hstep : s.threadStep ok pc = some (s', os)) :
    ∃ pc', s.Goes s' os pc' := by
  have heq {f g : Resource → Bool} (h : ∀ x, f x = g x) : f = g := funext h
  cases pc with
  | coInitialize =>
      cases ok with
      | false =>
          cases hstep
          exact ⟨_, h.goes_same rfl (heq fun x => by cases x <;> rfl) nofun (by decide)
            (by decide) h.hEvent⟩
      | true =>
          cases hstep
          exact ⟨_, h.goes_acquired rfl (heq fun x => by cases x <;> rfl) (by decide)
            (by decide) (by decide) h.hEvent⟩
  | enumerator =>
      cases hstep
      exact h.goes_asked .enumerator rfl (heq fun x => by cases x <;> rfl) (by decide) (by decide)
        (by decide) (by decide) (by decide) rfl (h.hEvent.trans (Bool.or_false _))
  | endpoint =>
      cases hstep
      exact h.goes_asked .device rfl (heq fun x => by cases x <;> rfl) (by decide) (by decide)
        (by decide) (by decide) (by decide) rfl (h.hEvent.trans (Bool.or_false _))
  | activate =>
      cases hstep
      exact h.goes_asked .client rfl (heq fun x => by cases x <;> rfl) (by decide) (by decide)
        (by decide) (by decide) (by decide) rfl (h.hEvent.trans (Bool.or_false _))
  | mixFormat =>
      cases hstep
      exact h.goes_asked .mix rfl (heq fun x => by cases x <;> rfl) (by decide) (by decide)
        (by decide) (by decide) (by decide) rfl (h.hEvent.trans (Bool.or_false _))
  | getService =>
      cases hstep
      exact h.goes_asked .service rfl (heq fun x => by cases x <;> rfl) (by decide) (by decide)
        (by decide) (by decide) (by decide) rfl (h.hEvent.trans (Bool.or_false _))
  | createEvent =>
      cases ok with
      | false =>
          cases hstep
          exact ⟨_, h.goes_released rfl (heq fun x => by cases x <;> rfl)
            (h.must .mix (by decide)) (by decide) (by decide) h.hEvent⟩
      | true =>
          cases hstep
          exact ⟨_, h.goes_acquired rfl (heq fun x => by cases x <;> rfl) (by decide)
            (by decide) (by decide) rfl⟩
  | initClient =>
      cases ok <;> cases hstep <;>
        exact ⟨_, h.goes_released rfl (heq fun x => by cases x <;> rfl) (h.must .mix (by decide))
          (by decide) (by decide) h.hEvent⟩
  | setEventHandle | clientStart | waiting =>
      cases ok <;> cases hstep <;>
        exact ⟨_, h.goes_same rfl (heq fun x => by cases x <;> rfl) nofun (by decide) (by decide)
          h.hEvent⟩
  | publish | ready | refusing =>
      cases hstep
      exact ⟨_, h.goes_same rfl (heq fun x => by cases x <;> rfl) nofun (by decide) (by decide)
        h.hEvent⟩
  | top =>
      simp only [threadStep, goto] at hstep
      cases hrunning : s.running <;> rw [hrunning] at hstep <;> cases hstep <;>
        exact ⟨_, h.goes_same rfl (heq fun x => by cases x <;> rfl) nofun (by decide) (by decide)
          h.hEvent⟩
  | draining =>
      cases ok with
      | false =>
          cases hstep
          exact ⟨_, h.goes_same rfl (heq fun x => by cases x <;> rfl)
            (by simp [CaptureCall.receipt]) (by decide) (by decide) h.hEvent⟩
      | true =>
          cases hstep
          exact ⟨_, h.goes_same rfl (heq fun x => by cases x <;> rfl) nofun (by decide)
            (by decide) h.hEvent⟩
  | exited => cases hstep
  | cleaning stage failed =>
      have hclean := h.clean
      rw [Option.some.inj hstep] at hclean
      exact ⟨_, hclean⟩

/-- Without a thread nothing is held. -/
def Vacant (s : AudioCapture) : Prop := (∀ r, s.holds r = false) ∧ s.hEvent = false

/-- The thread holds what it may and must, and `Stop` cleans up without a thread. -/
structure Sound (s : AudioCapture) : Prop where
  holds : ∀ pc, s.thread = some pc → s.Holds pc
  vacant : s.thread = none → s.Vacant
  cleans : s.main ∈ [.cleanClient, .cleanService, .cleanEvent] → s.thread = none

/-- A step that touches neither the thread nor what it holds. -/
theorem Sound.of_same (h : s.Sound) (hthread : s'.thread = s.thread) (hs : s'.holds = s.holds)
    (hevent : s'.hEvent = s.hEvent)
    (hcleans : s'.main ∈ [.cleanClient, .cleanService, .cleanEvent] → s.thread = none) :
    s'.Sound := by
  have hopen : s'.event = s.event := congrFun hs .event
  refine ⟨fun pc hpc => ?_, fun hnone => ?_, fun hmain => hthread.trans (hcleans hmain)⟩
  · obtain ⟨hmay, hmust, hclosed⟩ := h.holds pc (by rw [← hthread, hpc])
    exact ⟨by rwa [hs], by rwa [hs], by rw [hevent, hopen, hclosed]⟩
  · obtain ⟨hnothing, hnull⟩ := h.vacant (by rw [← hthread, hnone])
    exact ⟨by rwa [hs], by rw [hevent, hnull]⟩

/-- The thread has come to its end: nothing is held. -/
theorem Holds.vacant (h : s.Holds .exited) : s.Vacant := by
  have hnothing : ∀ r, s.holds r = false := fun r => h.not_holds (by simp [ThreadPc.may])
  exact ⟨hnothing, by simp [h.hEvent, ThreadPc.closed, show s.event = false from hnothing .event]⟩

/-- A step of the clean-up of `Stop`. -/
theorem sound_cleans (h : s.Sound)
    (hmain : s.main ∈ [.cleanClient, .cleanService, .cleanEvent])
    (hstep : s.mainStep = some (s', os)) :
    s.Balances s' os ∧ s'.Sound ∧ ∀ r, .released r true ∉ os := by
  have hnone := h.cleans hmain
  obtain ⟨hnothing, hnull⟩ := h.vacant hnone
  have hclient : s.client = false := hnothing .client
  have hservice : s.service = false := hnothing .service
  have hevent : s.event = false := hnothing .event
  have hquiet : os = [] ∧ s'.holds = s.holds ∧ s'.hEvent = s.hEvent ∧ s'.thread = s.thread := by
    simp only [List.mem_cons, List.not_mem_nil, or_false] at hmain
    rcases hmain with hmain | hmain | hmain <;> rw [mainStep, hmain] at hstep <;>
      simp only [hclient, hservice, hevent, hnull, releaseIf, Bool.false_eq_true, if_false]
        at hstep <;>
      cases hstep <;>
      exact ⟨rfl, funext fun r => by cases r <;> simp [holds, hclient, hservice, hevent],
        by simp [hnull], rfl⟩
  obtain ⟨rfl, hs, hsame, hthread⟩ := hquiet
  exact ⟨balances_same hs (by simp), h.of_same hthread hs hsame fun _ => hnone, by simp⟩

theorem sound_mainStep (h : s.Sound) (hstep : s.mainStep = some (s', os)) :
    s.Balances s' os ∧ s'.Sound ∧ ∀ r, .released r true ∉ os := by
  cases mainDoes_of_step hstep with
  | refuse | terminate | clear =>
      exact ⟨balances_same rfl nofun, h.of_same rfl rfl rfl (by simp), nofun⟩
  | await | stop | test =>
      refine ⟨balances_same rfl nofun, h.of_same rfl rfl rfl ?_, nofun⟩
      dsimp only
      split <;> simp
  | start | signal =>
      exact ⟨balances_same rfl (by simp [CaptureCall.receipt]), h.of_same rfl rfl rfl (by simp),
        by simp⟩
  | spawn hat hthread =>
      obtain ⟨hnothing, hnull⟩ := h.vacant hthread
      refine ⟨balances_same rfl nofun, ⟨?_, nofun, by simp⟩, nofun⟩
      rintro _ ⟨rfl⟩
      have hsame :
          holds { s with thread := some .coInitialize, ready := none, main := .awaiting } =
            s.holds := funext fun r => by cases r <;> rfl
      refine ⟨fun r hr => ?_, nofun, ?_⟩
      · simp [hsame, hnothing r] at hr
      · simp [hnull, ThreadPc.closed, show s.event = false from hnothing .event]
  | pass next hat hthread =>
      exact ⟨balances_same rfl nofun, h.of_same rfl rfl rfl fun _ => hthread, nofun⟩
  | join next hat hthread =>
      have hvacant := (h.holds _ hthread).vacant
      exact ⟨balances_same rfl (by simp [CaptureCall.receipt]),
        ⟨nofun, fun _ => hvacant, fun _ => rfl⟩, by simp⟩
  | cleanClient hat | cleanService hat | cleanEvent hat =>
      exact sound_cleans h (by simp [hat]) hstep

/-- **Step lemma**, of custody; and `Stop` finds nothing to release. -/
theorem sound_step (h : s.Sound) {i : CaptureInput} (hstep : s.step i = some (s', os)) :
    s.Balances s' os ∧ s'.Sound ∧ ∀ r, .released r true ∉ os := by
  simp only [step, Option.ite_none_left_eq_some] at hstep
  obtain ⟨hmain, hstep⟩ := hstep
  cases i with
  | start | stop =>
      simp only [Option.ite_none_right_eq_some] at hstep
      obtain ⟨-, hstep⟩ := hstep
      cases hstep
      exact ⟨balances_same rfl nofun, h.of_same rfl rfl rfl (by simp), nofun⟩
  | main => exact sound_mainStep h hstep
  | thread ok =>
      obtain ⟨pc, hpc, hstep⟩ := Option.bind_eq_some_iff.mp hstep
      obtain ⟨pc', hthread, hbalances, hholds, hby⟩ := (h.holds pc hpc).step hstep
      refine ⟨hbalances, ⟨fun pc₁ hpc₁ => ?_, by simp [hthread], fun hcleans => ?_⟩, hby⟩
      · rw [hthread] at hpc₁
        cases hpc₁
        exact hholds
      · rw [(main_threadStep hstep).1] at hcleans
        rw [h.cleans hcleans] at hpc
        contradiction

theorem sound_start : Sound {} :=
  ⟨nofun, fun _ => ⟨fun r => by cases r <;> rfl, rfl⟩, by simp⟩

end AudioCapture

open CaptureThread.AudioCapture in
/-- **What the thread acquires.**  Whatever `Start`, `Stop` and the thread do to each other, no
object is given back that is not held; while there is no thread, or it has come to its end, all
have been; and `Stop`'s own clean-up has never had to. -/
theorem capture_released {inputs : List CaptureInput} {s : AudioCapture} {calls : List CaptureCall}
    (hrun : capture.run {} inputs = some (s, calls)) :
    (∃ out, calls.foldl (outstanding CaptureCall.receipt) (some 0) = some out ∧
      (s.thread = none ∨ s.thread = some .exited → out = 0 ∧ s.hEvent = false)) ∧
      ∀ r, .released r true ∉ calls := by
  have hinv := @capture.run_invariant _ _ _
    (fun s tr => s.Sound ∧
      tr.foldl (outstanding CaptureCall.receipt) (some 0) = some (flagged s.holds) ∧
      ∀ r, .released r true ∉ tr) (fun _ _ => True)
    (fun s tr i s' o h _ hstep => ?_) inputs {} s [] calls ⟨sound_start, by decide, nofun⟩
    (capture.along_true {} inputs) hrun
  · obtain ⟨hsound, hbalance, hby⟩ := hinv
    refine ⟨⟨_, hbalance, fun hended => ?_⟩, hby⟩
    have hvacant : s.Vacant := by
      rcases hended with hnone | hexited
      · exact hsound.vacant hnone
      · exact (hsound.holds _ hexited).vacant
    exact ⟨flagged_eq_zero_iff.mpr hvacant.1, hvacant.2⟩
  · obtain ⟨hsound, hbalance, hby⟩ := h
    obtain ⟨hbalances, hsound', hby'⟩ := sound_step hsound hstep
    refine ⟨hsound', by rw [List.foldl_append, hbalance]; exact hbalances, fun r hr => ?_⟩
    rcases List.mem_append.mp hr with hr | hr
    · exact hby r hr
    · exact hby' r hr

theorem capture_released_startedAndStopped :
    ∃ s calls, capture.run {} startedAndStopped = some (s, calls) ∧ s.main = .idle ∧
      ∃ out, calls.foldl (outstanding CaptureCall.receipt) (some 0) = some out ∧ out = 0 := by
  have hrun : (capture.run {} startedAndStopped).map (fun r => (r.1.main, r.1.thread)) =
      some (.idle, none) := by decide +kernel
  obtain ⟨⟨s, calls⟩, hrun, hend⟩ := Option.map_eq_some_iff.mp hrun
  obtain ⟨hidle, hnone⟩ := Prod.mk.inj hend
  obtain ⟨⟨out, hout, hended⟩, -⟩ := capture_released hrun
  exact ⟨s, calls, hrun, hidle, out, hout, (hended (.inl hnone)).1⟩

end TwinScreen.Host.CaptureThread
