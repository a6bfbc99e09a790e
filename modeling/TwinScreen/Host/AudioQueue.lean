import TwinScreen.Host.Audio
import TwinScreen.Lib.DropOldest
import TwinScreen.Lib.Machine

/-!
# TwinScreen.Host.AudioQueue

The loop of `AudioCapture::CaptureLoop` with `PopFrame` and `Stop` called from
other threads at any time.  Packets are met after `ConvertToStereo`.

The queue is only touched under `mutex_`, and a frame is cut from the loop's own
`acc`, so a turn of the loop that emits frames is one step.

* `audioQueue_accounts` — over every run, what became of the captured samples.
-/

namespace TwinScreen.Host

open Lib

def kFrameSamples : Nat := 1024
def kMaxQueuedFrames : Nat := 20

/-- Where the loop is. -/
inductive CapturePc
  /-- At `running_.load()`. -/
  | top
  /-- At `WaitForSingleObject`. -/
  | waiting
  /-- Draining the pending packets. -/
  | draining
  /-- Emitting full frames. -/
  | emitting
  | done
  deriving DecidableEq, Repr

/-- `AudioCapture`, with the locals of its loop. -/
structure AudioCapture where
  running : Bool
  pc : CapturePc := .top
  resampler : StereoResampler
  acc : List Int16 := []
  frames : List (List Int16) := []
  deriving DecidableEq

/-- When the loop begins. -/
def AudioCapture.started (deviceRate targetRate : Nat) : AudioCapture where
  running := true
  resampler := resamplerFor deviceRate targetRate

/-- A step of one of the threads. -/
inductive AudioOp
  /-- The loop goes on by itself. -/
  | go
  /-- `WaitForSingleObject` returns. -/
  | woken (signalled : Bool)
  /-- `GetBuffer` returns a packet. -/
  | packet (pairs : List (Int16 × Int16))
  /-- `GetBuffer` fails. -/
  | getBufferFails
  /-- No packet is pending. -/
  | drained
  | popFrame
  | stop
  deriving DecidableEq

/-- What is seen of the capture. -/
inductive AudioEvent
  /-- A packet, and the samples it appended to `acc`. -/
  | captured (pairs : List (Int16 × Int16)) (samples : List Int16)
  | queue (e : DropOldest.Event (List Int16))
  deriving DecidableEq

/-- `while (acc.size() >= per_frame)`. -/
def AudioCapture.emit (c : AudioCapture) : AudioCapture × List AudioEvent :=
  let perFrame := kFrameSamples * 2
  if c.acc.length ≥ perFrame then
    let (frames, events) := DropOldest.push kMaxQueuedFrames c.frames (c.acc.take perFrame)
    ({ c with acc := c.acc.drop perFrame, frames := frames }, events.map .queue)
  else ({ c with pc := .top }, [])

/-- `PopFrame`. -/
def AudioCapture.popFrame (c : AudioCapture) : AudioCapture × List AudioEvent :=
  let (frames, events) := DropOldest.pop c.frames
  ({ c with frames := frames }, events.map .queue)

/-- One step. -/
def audioStep (deviceRate targetRate : Nat) (c : AudioCapture) :
    AudioOp → Option (AudioCapture × List AudioEvent)
  | .go =>
      match c.pc with
      | .top => some ({ c with pc := if c.running then .waiting else .done }, [])
      | .emitting => some c.emit
      | .waiting | .draining | .done => none
  | .woken signalled =>
      if c.pc = .waiting then
        some ({ c with pc := if signalled then .draining else .top }, [])
      else none
  | .packet pairs =>
      if c.pc = .draining then
        let (resampler, _, samples) := onPacket deviceRate targetRate c.resampler pairs
        some ({ c with resampler := resampler, acc := c.acc ++ samples },
          [.captured pairs samples])
      else none
  | .getBufferFails =>
      if c.pc = .draining then some ({ c with running := false, pc := .emitting }, []) else none
  | .drained => if c.pc = .draining then some ({ c with pc := .emitting }, []) else none
  | .popFrame => some c.popFrame
  | .stop => some ({ c with running := false }, [])

/-- The capture at these rates. -/
def audioMachine (deviceRate targetRate : Nat) : Machine AudioCapture AudioOp AudioEvent where
  step := audioStep deviceRate targetRate

/-! ## histories -/

/-- The packets captured. -/
def packetsOf (tr : List AudioEvent) : List (List (Int16 × Int16)) :=
  tr.filterMap fun e =>
    match e with
    | .captured pairs _ => some pairs
    | .queue _ => none

/-- What they appended to `acc`. -/
def samplesOf (tr : List AudioEvent) : List Int16 :=
  tr.flatMap fun e =>
    match e with
    | .captured _ samples => samples
    | .queue _ => []

/-- What happened at the queue. -/
def queueOf (tr : List AudioEvent) : List (DropOldest.Event (List Int16)) :=
  tr.filterMap fun e =>
    match e with
    | .captured .. => none
    | .queue e => some e

@[simp] theorem packetsOf_append (tr os : List AudioEvent) :
    packetsOf (tr ++ os) = packetsOf tr ++ packetsOf os := List.filterMap_append

@[simp] theorem samplesOf_append (tr os : List AudioEvent) :
    samplesOf (tr ++ os) = samplesOf tr ++ samplesOf os := List.flatMap_append

@[simp] theorem queueOf_append (tr os : List AudioEvent) :
    queueOf (tr ++ os) = queueOf tr ++ queueOf os := List.filterMap_append

/-- Events at the queue alone. -/
theorem of_queue (es : List (DropOldest.Event (List Int16))) :
    packetsOf (es.map .queue) = [] ∧ samplesOf (es.map .queue) = [] ∧
      queueOf (es.map .queue) = es := by
  simp [packetsOf, samplesOf, queueOf, List.filterMap_map]

/-! ## one step -/

/-- What a step does: it appends a packet, emits a frame, pops one, or leaves the
samples where they are. -/
inductive AudioDoes (deviceRate targetRate : Nat) (c : AudioCapture) :
    AudioCapture → List AudioEvent → Prop
  | packet (c' : AudioCapture) (pairs : List (Int16 × Int16)) (samples : List Int16)
      (hsamples : samples = (onPacket deviceRate targetRate c.resampler pairs).2.2)
      (hacc : c'.acc = c.acc ++ samples) (hframes : c'.frames = c.frames) :
      AudioDoes deviceRate targetRate c c' [.captured pairs samples]
  | emit (c' : AudioCapture) (h : kFrameSamples * 2 ≤ c.acc.length)
      (hacc : c'.acc = c.acc.drop (kFrameSamples * 2))
      (hframes : c'.frames = (DropOldest.push kMaxQueuedFrames c.frames
        (c.acc.take (kFrameSamples * 2))).1) :
      AudioDoes deviceRate targetRate c c' ((DropOldest.push kMaxQueuedFrames c.frames
        (c.acc.take (kFrameSamples * 2))).2.map .queue)
  | pop (c' : AudioCapture) (hacc : c'.acc = c.acc)
      (hframes : c'.frames = (DropOldest.pop c.frames).1) :
      AudioDoes deviceRate targetRate c c' ((DropOldest.pop c.frames).2.map .queue)
  | quiet (c' : AudioCapture) (hacc : c'.acc = c.acc) (hframes : c'.frames = c.frames) :
      AudioDoes deviceRate targetRate c c' []

/-- **Step lemma.** -/
theorem audioDoes_of_step {deviceRate targetRate : Nat} {c c' : AudioCapture} {op : AudioOp}
    {os : List AudioEvent} (h : audioStep deviceRate targetRate c op = some (c', os)) :
    AudioDoes deviceRate targetRate c c' os := by
  cases op with
  | go =>
      simp only [audioStep] at h
      split at h
      · cases h
        exact .quiet _ rfl rfl
      · simp only [AudioCapture.emit] at h
        split at h
        · next hfull =>
            cases h
            exact .emit _ hfull rfl rfl
        · cases h
          exact .quiet _ rfl rfl
      · contradiction
      · contradiction
      · contradiction
  | packet pairs =>
      simp only [audioStep, Option.ite_none_right_eq_some] at h
      cases h.2
      exact .packet _ pairs _ rfl rfl rfl
  | popFrame =>
      cases h
      exact .pop _ rfl rfl
  | stop =>
      cases h
      exact .quiet _ rfl rfl
  | woken | getBufferFails | drained =>
      simp only [audioStep, Option.ite_none_right_eq_some] at h
      cases h.2
      exact .quiet _ rfl rfl

/-! ## conservation -/

/-- The captured samples are in the emitted frames and in `acc`; the frames are full,
and the queue accounts for them. -/
structure Conserves (c : AudioCapture) (tr : List AudioEvent) : Prop where
  queue : DropOldest.Accounts kMaxQueuedFrames c.frames (queueOf tr)
  full : ∀ f ∈ DropOldest.pushed (queueOf tr), f.length = kFrameSamples * 2
  samples : (DropOldest.pushed (queueOf tr)).flatten ++ c.acc = samplesOf tr

theorem conserves_started (deviceRate targetRate : Nat) :
    Conserves (.started deviceRate targetRate) [] where
  queue := DropOldest.accounts_nil _
  full _ h := nomatch h
  samples := rfl

theorem Conserves.does {deviceRate targetRate : Nat} {c c' : AudioCapture}
    {tr os : List AudioEvent} (h : Conserves c tr)
    (hdoes : AudioDoes deviceRate targetRate c c' os) : Conserves c' (tr ++ os) := by
  cases hdoes with
  | packet pairs samples _ hacc hframes =>
      have hevents : queueOf (tr ++ [.captured pairs samples]) = queueOf tr := by simp [queueOf]
      have hsamples : samplesOf [.captured pairs samples] = samples := by simp [samplesOf]
      constructor
      · rw [hevents, hframes]
        exact h.queue
      · rw [hevents]
        exact h.full
      · rw [hevents, hacc, ← List.append_assoc, h.samples, samplesOf_append, hsamples]
  | emit hlen hacc hframes =>
      obtain ⟨-, hsamples, hevents⟩ := of_queue (DropOldest.push kMaxQueuedFrames c.frames
        (c.acc.take (kFrameSamples * 2))).2
      obtain ⟨-, hpushed, -⟩ := DropOldest.push_spec (by decide) h.queue.bound
        (c.acc.take (kFrameSamples * 2))
      constructor
      · rw [queueOf_append, hevents, hframes]
        exact h.queue.push (by decide) _
      · rw [queueOf_append, hevents, DropOldest.pushed_append, hpushed]
        have htake : (c.acc.take (kFrameSamples * 2)).length = kFrameSamples * 2 := by
          rw [List.length_take]
          omega
        grind [h.full]
      · -- the frame is cut from the front of `acc`
        rw [queueOf_append, hevents, DropOldest.pushed_append, hpushed, samplesOf_append, hsamples,
          ← h.samples, hacc]
        simp [List.take_append_drop]
  | pop hacc hframes =>
      obtain ⟨-, hsamples, hevents⟩ := of_queue (DropOldest.pop c.frames).2
      obtain ⟨-, hpushed, -⟩ := DropOldest.pop_spec c.frames
      constructor
      · rw [queueOf_append, hevents, hframes]
        exact h.queue.pop
      · rw [queueOf_append, hevents, DropOldest.pushed_append, hpushed, List.append_nil]
        exact h.full
      · rw [queueOf_append, hevents, DropOldest.pushed_append, hpushed, List.append_nil, hacc,
          samplesOf_append, hsamples, List.append_nil]
        exact h.samples
  | quiet hacc hframes =>
      rw [List.append_nil]
      exact ⟨hframes ▸ h.queue, h.full, hacc ▸ h.samples⟩

/-! ## the target rate -/

/-- At the target rate a packet is appended as it is. -/
theorem onPacket_same (rate : Nat) (s : StereoResampler) (packet : List (Int16 × Int16)) :
    (onPacket rate rate s packet).2.2 = interleave packet := by
  rw [onPacket]
  split
  · rw [if_pos rfl]
  · next h =>
      rw [List.length_eq_zero_iff.mp (Nat.eq_zero_of_not_pos h)]
      rfl

theorem samplesOf_does {rate : Nat} {c c' : AudioCapture} {os : List AudioEvent}
    (hdoes : AudioDoes rate rate c c' os) :
    samplesOf os = (packetsOf os).flatMap interleave := by
  cases hdoes with
  | packet pairs samples hsamples =>
      rw [onPacket_same] at hsamples
      simp [samplesOf, packetsOf, hsamples]
  | emit | pop =>
      obtain ⟨hpackets, hsamples, -⟩ := of_queue _
      rw [hpackets, hsamples]
      rfl
  | quiet => rfl

/-- At the target rate the samples are those of the packets. -/
structure ConservesPackets (c : AudioCapture) (tr : List AudioEvent) : Prop
    extends Conserves c tr where
  packets : samplesOf tr = (packetsOf tr).flatMap interleave

theorem ConservesPackets.step {rate : Nat} {c c' : AudioCapture} {tr os : List AudioEvent}
    {op : AudioOp} (h : ConservesPackets c tr)
    (hstep : (audioMachine rate rate).step c op = some (c', os)) :
    ConservesPackets c' (tr ++ os) where
  toConserves := h.does (audioDoes_of_step hstep)
  packets := by
    rw [samplesOf_append, packetsOf_append, List.flatMap_append, h.packets,
      samplesOf_does (audioDoes_of_step hstep)]

/-- **Conservation**: the captured samples are in the frames emitted and in `acc`, and the
frames emitted have been popped, dropped when the queue was full, or are still queued. -/
theorem audioQueue_accounts (rate : Nat) {ops : List AudioOp} {c : AudioCapture}
    {tr : List AudioEvent}
    (hrun : (audioMachine rate rate).run (.started rate rate) ops = some (c, tr)) :
    c.frames.length ≤ 20 ∧ (∀ f ∈ DropOldest.pushed (queueOf tr), f.length = 2048) ∧
      (DropOldest.pushed (queueOf tr)).flatten ++ c.acc = (packetsOf tr).flatMap interleave ∧
      (DropOldest.popped (queueOf tr)).Sublist (DropOldest.pushed (queueOf tr)) ∧
      DropOldest.removed (queueOf tr) ++ c.frames = DropOldest.pushed (queueOf tr) ∧
      ∀ f found next, .dropped f found next ∈ queueOf tr →
        found.length = 20 ∧ found.head? = some f := by
  have hstart : ConservesPackets (.started rate rate) [] := ⟨conserves_started rate rate, rfl⟩
  have h := (audioMachine rate rate).run_invariant
    (fun _ _ _ _ _ hkeeps _ hstep => hkeeps.step hstep) hstart (Machine.along_true _ _ _) hrun
  exact ⟨h.queue.bound, h.full, h.samples.trans h.packets, h.queue.popped_sublist, h.queue.order,
    h.queue.full⟩

/-- Two packets of 700 make one frame, which is popped; the rest stays in `acc`. -/
def twoPackets : List AudioOp :=
  [.go, .woken true, .packet (List.replicate 700 (1, -1)), .packet (List.replicate 700 (2, -2)),
    .drained, .go, .popFrame, .go]

theorem audioQueue_accounts_twoPackets :
    ∃ c tr, (audioMachine 48000 48000).run (.started 48000 48000) twoPackets = some (c, tr) ∧
      (DropOldest.pushed (queueOf tr)).flatten ++ c.acc = (packetsOf tr).flatMap interleave := by
  have hsome : ((audioMachine 48000 48000).run (.started 48000 48000) twoPackets).isSome := by
    decide +kernel
  obtain ⟨⟨c, tr⟩, hrun⟩ := Option.isSome_iff_exists.mp hsome
  exact ⟨c, tr, hrun, (audioQueue_accounts 48000 hrun).2.2.1⟩

end TwinScreen.Host
