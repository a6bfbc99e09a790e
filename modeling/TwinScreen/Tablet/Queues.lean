import TwinScreen.Lib.BoundedQueue
import TwinScreen.Tablet.Player

/-!
# TwinScreen.Tablet.Queues

The two frame queues of the client under every interleaving: the client thread,
which receives, keeps the queues short and clears them at the end of a link, and the
threads of the players, which poll.  Each test of a size, poll, add and clear is a
step of its own.

* `video_alone` / `audio_alone` — undisturbed, `receiveLoop` does what
  `Client.handleFrame` says.
* `queues_flow` — the bounds, the order, and that no frame of a link is polled after
  the link's cleanup, in every run.
-/

namespace TwinScreen.Tablet

open Lib

/-- A received frame: its link and its number, both counted from the start. -/
structure Received (α : Type) where
  link : Nat
  number : Nat
  frame : α
  deriving DecidableEq, Repr

/-- Where the client thread is, but for the message it handles. -/
inductive LinkPc
  | down
  | up
  /-- At `frames.clear()`. -/
  | clearingFrames
  /-- At `audioFrames.clear()`. -/
  | clearingAudio
  deriving DecidableEq, Repr

/-- The queues with their threads. -/
structure Queues where
  /-- Number of links so far. -/
  link : Nat := 0
  pc : LinkPc := .down
  /-- Number of frames received so far. -/
  arrived : Nat := 0
  frames : BoundedQueue (Received VideoFrame) := {}
  audioFrames : BoundedQueue (Received AudioFrame) := {}
  /-- Number of feed threads at the poll of their discard loop. -/
  discarding : Nat := 0
  deriving DecidableEq

/-- What can happen next. -/
inductive QueueInput
  /-- `tryConnect` returns a stream. -/
  | connect
  /-- `receiveLoop` has parsed a video frame. -/
  | video (f : VideoFrame)
  /-- `receiveLoop` has parsed an audio frame. -/
  | audio (f : AudioFrame)
  /-- `receiveLoop` goes on with the video frame in hand. -/
  | videoGo
  /-- `receiveLoop` goes on with the audio frame in hand. -/
  | audioGo
  /-- `receiveLoop` returns. -/
  | linkDrops
  /-- The cleanup of `run` goes on. -/
  | cleanup
  | nextFrame
  | nextAudioFrame
  /-- A feed thread tests `client.frames.size > MAX_STALE_FRAMES`. -/
  | staleTest
  /-- A feed thread behind that test polls. -/
  | staleDiscard
  deriving DecidableEq

/-- What is seen of the queues. -/
inductive QueueEvent
  | connected
  | video (e : BoundedQueue.Event (Received VideoFrame))
  | audio (e : BoundedQueue.Event (Received AudioFrame))
  /-- The cleanup at the end of a link has finished. -/
  | cleaned (link : Nat)
  deriving DecidableEq

namespace Queues

/-- An operation on `frames`. -/
def onFrames (s : Queues) (op : BoundedQueue.Op (Received VideoFrame)) :
    Option (Queues × List QueueEvent) :=
  (s.frames.step Client.maxQueuedFrames op).map fun (q, os) =>
    ({ s with frames := q }, os.map .video)

/-- An operation on `audioFrames`. -/
def onAudio (s : Queues) (op : BoundedQueue.Op (Received AudioFrame)) :
    Option (Queues × List QueueEvent) :=
  (s.audioFrames.step Client.maxQueuedAudioFrames op).map fun (q, os) =>
    ({ s with audioFrames := q }, os.map .audio)

/-- `receiveLoop` is between two messages. -/
def Between (s : Queues) : Prop :=
  s.pc = .up ∧ s.frames.producer = .idle ∧ s.audioFrames.producer = .idle

instance (s : Queues) : Decidable s.Between := inferInstanceAs (Decidable (_ ∧ _))

/-- One step. -/
def step (s : Queues) : QueueInput → Option (Queues × List QueueEvent)
  | .connect =>
      if s.pc = .down then some ({ s with link := s.link + 1, pc := .up }, [.connected]) else none
  | .video f =>
      if s.Between then
        onFrames { s with arrived := s.arrived + 1 } (.offer ⟨s.link, s.arrived, f⟩)
      else none
  | .audio f =>
      if s.Between then
        onAudio { s with arrived := s.arrived + 1 } (.offer ⟨s.link, s.arrived, f⟩)
      else none
  | .videoGo => s.onFrames .go
  | .audioGo => s.onAudio .go
  | .linkDrops => if s.Between then some ({ s with pc := .clearingFrames }, []) else none
  | .cleanup =>
      match s.pc with
      | .clearingFrames => onFrames { s with pc := .clearingAudio } .clear
      | .clearingAudio =>
          (onAudio { s with pc := .down } .clear).map fun (s', os) =>
            (s', os ++ [.cleaned s.link])
      | .down | .up => none
  | .nextFrame => s.onFrames .poll
  | .nextAudioFrame => s.onAudio .poll
  | .staleTest =>
      if maxStaleFrames < s.frames.items.length then
        some ({ s with discarding := s.discarding + 1 }, [])
      else some (s, [])
  | .staleDiscard =>
      if 0 < s.discarding then onFrames { s with discarding := s.discarding - 1 } .poll else none

end Queues

/-- The queues as a machine. -/
def queues : Machine Queues QueueInput QueueEvent where
  step := Queues.step

/-! ## the client thread alone -/

/-- Polling while the queue is full leaves room for one. -/
theorem pollWhileFull_eq_drop {α : Type} (max : Nat) (xs : List α) :
    Client.pollWhileFull max xs = xs.drop (xs.length + 1 - max) := by
  induction xs with
  | nil => simp [Client.pollWhileFull]
  | cons x xs ih =>
      rw [Client.pollWhileFull]
      split
      · next hfull =>
          have hdrop : (x :: xs).length + 1 - max = xs.length + 1 - max + 1 := by
            rw [List.length_cons] at hfull ⊢
            omega
          rw [ih, hdrop, List.drop_succ_cons]
      · next hroom =>
          have hdrop : (x :: xs).length + 1 - max = 0 := by omega
          rw [hdrop, List.drop_zero]

/-- The producer of `frames` is the client thread with a video frame. -/
theorem run_videoGo (s : Queues) {q : BoundedQueue (Received VideoFrame)} {n : Nat}
    {evs : List (BoundedQueue.Event (Received VideoFrame))}
    (hrun : (BoundedQueue.goes Client.maxQueuedFrames).run s.frames (List.replicate n ()) =
      some (q, evs)) :
    queues.run s (List.replicate n .videoGo) =
      some ({ s with frames := q }, evs.map .video) := by
  have hstep : ∀ q i q' evs, (BoundedQueue.goes Client.maxQueuedFrames).step q i = some (q', evs) →
      queues.step { s with frames := q } .videoGo =
        some ({ s with frames := q' }, evs.map .video) := by
    intro q _ q' evs hq
    have hq' : q.step Client.maxQueuedFrames .go = some (q', evs) := hq
    simp only [queues, Queues.step, Queues.onFrames, hq', Option.map_some]
  have hgo := Machine.run_embed _ queues hstep hrun
  rwa [List.map_replicate] at hgo

/-- The producer of `audioFrames` is the client thread with an audio frame. -/
theorem run_audioGo (s : Queues) {q : BoundedQueue (Received AudioFrame)} {n : Nat}
    {evs : List (BoundedQueue.Event (Received AudioFrame))}
    (hrun : (BoundedQueue.goes Client.maxQueuedAudioFrames).run s.audioFrames
      (List.replicate n ()) = some (q, evs)) :
    queues.run s (List.replicate n .audioGo) =
      some ({ s with audioFrames := q }, evs.map .audio) := by
  have hstep : ∀ q i q' evs,
      (BoundedQueue.goes Client.maxQueuedAudioFrames).step q i = some (q', evs) →
      queues.step { s with audioFrames := q } .audioGo =
        some ({ s with audioFrames := q' }, evs.map .audio) := by
    intro q _ q' evs hq
    have hq' : q.step Client.maxQueuedAudioFrames .go = some (q', evs) := hq
    simp only [queues, Queues.step, Queues.onAudio, hq', Option.map_some]
  have hgo := Machine.run_embed _ queues hstep hrun
  rwa [List.map_replicate] at hgo

/-- **Undisturbed**, the client thread polls and adds as `Client.handleFrame` does. -/
theorem video_alone {s : Queues} (h : s.Between) (f : VideoFrame) :
    ∃ n tr, queues.run s (.video f :: List.replicate n .videoGo) = some
      ({ s with
          arrived := s.arrived + 1
          frames := ⟨Client.pollWhileFull Client.maxQueuedFrames s.frames.items ++
            [⟨s.link, s.arrived, f⟩], .idle⟩ }, tr) := by
  have hmax : 0 < Client.maxQueuedFrames := by decide
  let r : Received VideoFrame := ⟨s.link, s.arrived, f⟩
  let s₁ : Queues :=
    { s with arrived := s.arrived + 1, frames := { s.frames with producer := .testing r } }
  have hoffer : queues.step s (.video f) = some (s₁, [.video (.offered r)]) := by
    show s.step (.video f) = _
    simp only [Queues.step, if_pos h, Queues.onFrames, BoundedQueue.step_offer h.2.1]
    rfl
  obtain ⟨n, evs, hrun⟩ := BoundedQueue.goes_alone (q := s₁.frames) hmax rfl
  rw [← pollWhileFull_eq_drop] at hrun
  refine ⟨n, [.video (.offered r)] ++ evs.map .video, ?_⟩
  rw [Machine.run, hoffer]
  simp only [run_videoGo s₁ hrun, Option.map_some]
  rfl

/-- **Undisturbed**, also with an audio frame. -/
theorem audio_alone {s : Queues} (h : s.Between) (f : AudioFrame) :
    ∃ n tr, queues.run s (.audio f :: List.replicate n .audioGo) = some
      ({ s with
          arrived := s.arrived + 1
          audioFrames := ⟨Client.pollWhileFull Client.maxQueuedAudioFrames s.audioFrames.items ++
            [⟨s.link, s.arrived, f⟩], .idle⟩ }, tr) := by
  have hmax : 0 < Client.maxQueuedAudioFrames := by decide
  let r : Received AudioFrame := ⟨s.link, s.arrived, f⟩
  let s₁ : Queues :=
    { s with
      arrived := s.arrived + 1, audioFrames := { s.audioFrames with producer := .testing r } }
  have hoffer : queues.step s (.audio f) = some (s₁, [.audio (.offered r)]) := by
    show s.step (.audio f) = _
    simp only [Queues.step, if_pos h, Queues.onAudio, BoundedQueue.step_offer h.2.2]
    rfl
  obtain ⟨n, evs, hrun⟩ := BoundedQueue.goes_alone (q := s₁.audioFrames) hmax rfl
  rw [← pollWhileFull_eq_drop] at hrun
  refine ⟨n, [.audio (.offered r)] ++ evs.map .audio, ?_⟩
  rw [Machine.run, hoffer]
  simp only [run_audioGo s₁ hrun, Option.map_some]
  rfl

/-! ## what a run shows -/

/-- The events of `frames`. -/
def videoEvents (tr : List QueueEvent) : List (BoundedQueue.Event (Received VideoFrame)) :=
  tr.filterMap fun e =>
    match e with
    | .video e => some e
    | _ => none

/-- The events of `audioFrames`. -/
def audioEvents (tr : List QueueEvent) : List (BoundedQueue.Event (Received AudioFrame)) :=
  tr.filterMap fun e =>
    match e with
    | .audio e => some e
    | _ => none

/-- Number of links so far. -/
def links (tr : List QueueEvent) : Nat := tr.countP (· = .connected)

/-- Number of frames received so far. -/
def arrivals (tr : List QueueEvent) : Nat :=
  (BoundedQueue.offered (videoEvents tr)).length + (BoundedQueue.offered (audioEvents tr)).length

/-- Links and frames are counted from the start, a link is cleaned up at its end, and
what is polled is not of a link that has been cleaned up. -/
def QueueLaw (before : List QueueEvent) : QueueEvent → Prop
  | .connected => True
  | .video (.offered a) => a.link = links before ∧ a.number = arrivals before
  | .audio (.offered a) => a.link = links before ∧ a.number = arrivals before
  | .video (.polled a) => ∀ k, .cleaned k ∈ before → k < a.link
  | .audio (.polled a) => ∀ k, .cleaned k ∈ before → k < a.link
  | .cleaned k => k = links before

section Append

variable (tr : List QueueEvent)

@[simp] theorem videoEvents_append (os : List QueueEvent) :
    videoEvents (tr ++ os) = videoEvents tr ++ videoEvents os := List.filterMap_append

@[simp] theorem audioEvents_append (os : List QueueEvent) :
    audioEvents (tr ++ os) = audioEvents tr ++ audioEvents os := List.filterMap_append

@[simp] theorem videoEvents_map (os : List (BoundedQueue.Event (Received VideoFrame))) :
    videoEvents (os.map .video) = os := by
  rw [videoEvents, List.filterMap_map]
  exact List.filterMap_some

@[simp] theorem videoEvents_map_audio (os : List (BoundedQueue.Event (Received AudioFrame))) :
    videoEvents (os.map .audio) = [] := by
  rw [videoEvents, List.filterMap_map, List.filterMap_eq_nil_iff]
  exact fun _ _ => rfl

@[simp] theorem audioEvents_map (os : List (BoundedQueue.Event (Received AudioFrame))) :
    audioEvents (os.map .audio) = os := by
  rw [audioEvents, List.filterMap_map]
  exact List.filterMap_some

@[simp] theorem audioEvents_map_video (os : List (BoundedQueue.Event (Received VideoFrame))) :
    audioEvents (os.map .video) = [] := by
  rw [audioEvents, List.filterMap_map, List.filterMap_eq_nil_iff]
  exact fun _ _ => rfl

@[simp] theorem links_append (os : List QueueEvent) : links (tr ++ os) = links tr + links os :=
  List.countP_append

@[simp] theorem links_map_video (os : List (BoundedQueue.Event (Received VideoFrame))) :
    links (os.map .video) = 0 := by
  simp [links, List.countP_map, Function.comp_def]

@[simp] theorem links_map_audio (os : List (BoundedQueue.Event (Received AudioFrame))) :
    links (os.map .audio) = 0 := by
  simp [links, List.countP_map, Function.comp_def]

theorem arrivals_append (os : List QueueEvent) :
    arrivals (tr ++ os) = arrivals tr + arrivals os := by
  simp only [arrivals, videoEvents_append, audioEvents_append, BoundedQueue.offered_append,
    List.length_append]
  omega

end Append

/-! ## one queue -/

/-- What a run leaves of one queue: the flow of its frames, all of the present link,
and numbered in the order of their arrival. -/
structure Lane {α : Type} (max link arrived : Nat) (q : BoundedQueue (Received α))
    (evs : List (BoundedQueue.Event (Received α))) : Prop where
  flows : BoundedQueue.Flows max q evs
  links : ∀ a ∈ q.held, a.link = link
  numbered : (BoundedQueue.offered evs).Pairwise (fun a b => a.number < b.number)
  below : ∀ a ∈ BoundedQueue.offered evs, a.number < arrived

section Lane

variable {α : Type} {max link arrived : Nat} {q q' : BoundedQueue (Received α)}
  {evs os : List (BoundedQueue.Event (Received α))}

/-- An operation, which may bring the next frame of the link. -/
theorem Lane.does (h : Lane max link arrived q evs) (hdoes : BoundedQueue.Does max q q' os)
    (hnew : ∀ a, .offered a ∈ os → a.link = link ∧ a.number = arrived) :
    Lane max link (arrived + (BoundedQueue.offered os).length) q' (evs ++ os) := by
  have hone : (BoundedQueue.offered os).Pairwise (fun a b => a.number < b.number) := by
    rcases hdoes.events with rfl | ⟨e, rfl⟩
    · exact .nil
    · cases e <;> simp [BoundedQueue.offered]
  refine ⟨h.flows.does hdoes, fun a ha => ?_, ?_, fun a ha => ?_⟩
  · cases hdoes.mem_held ha with
    | inl ha => exact h.links a ha
    | inr ha => exact (hnew a ha).1
  · rw [BoundedQueue.offered_append, List.pairwise_append]
    refine ⟨h.numbered, hone, fun a ha b hb => ?_⟩
    rw [(hnew b (BoundedQueue.mem_offered.mp hb)).2]
    exact h.below a ha
  · rw [BoundedQueue.offered_append, List.mem_append] at ha
    cases ha with
    | inl ha =>
        have := h.below a ha
        omega
    | inr ha =>
        have hpos := List.length_pos_of_mem ha
        rw [(hnew a (BoundedQueue.mem_offered.mp ha)).2]
        omega

/-- What is seen of an operation is nothing, a frame that comes, or one of the link. -/
theorem Lane.seen (h : Lane max link arrived q evs) (hdoes : BoundedQueue.Does max q q' os) :
    os = [] ∨ (∃ a, os = [.offered a]) ∨ ∃ a, os = [.polled a] ∧ a ∈ q.held ∧ a.link = link := by
  rcases hdoes.events with rfl | ⟨e, rfl⟩
  · exact .inl rfl
  · cases e with
    | offered a => exact .inr (.inl ⟨a, rfl⟩)
    | polled a =>
        have hmem : a ∈ q.held :=
          List.mem_append_left _ (hdoes.mem_of_polled List.mem_cons_self)
        exact .inr (.inr ⟨a, rfl, hmem, h.links a hmem⟩)

/-- Frames of the other queue are numbered too. -/
theorem Lane.mono (h : Lane max link arrived q evs) {n : Nat} (hle : arrived ≤ n) :
    Lane max link n q evs :=
  ⟨h.flows, h.links, h.numbered, fun a ha => Nat.lt_of_lt_of_le (h.below a ha) hle⟩

/-- An empty queue is ready for another link. -/
theorem Lane.relink (h : Lane max link arrived q evs) (hq : q.held = []) (n : Nat) :
    Lane max n arrived q evs :=
  ⟨h.flows, by simp [hq], h.numbered, h.below⟩

end Lane

/-! ## the invariant -/

/-- Both queues flow; behind the end of a link the client thread has empty hands, and
what it has cleared is empty. -/
structure Kept (s : Queues) (tr : List QueueEvent) : Prop where
  video : Lane Client.maxQueuedFrames s.link s.arrived s.frames (videoEvents tr)
  audio : Lane Client.maxQueuedAudioFrames s.link s.arrived s.audioFrames (audioEvents tr)
  link : s.link = links tr
  arrived : s.arrived = arrivals tr
  hands : s.pc ≠ .up → s.frames.producer.hand = [] ∧ s.audioFrames.producer.hand = []
  framesCleared : s.pc = .down ∨ s.pc = .clearingAudio → s.frames.held = []
  audioCleared : s.pc = .down → s.audioFrames.held = []
  cleaned : ∀ k, .cleaned k ∈ tr → k < s.link ∨ k = s.link ∧ s.pc = .down
  each : Each QueueLaw tr

variable {s s' : Queues} {tr : List QueueEvent}

/-- Nothing has come yet. -/
theorem lane_nil {α : Type} (max : Nat) : Lane max 0 0 ({} : BoundedQueue (Received α)) [] where
  flows := BoundedQueue.flows_nil max
  links := by simp [BoundedQueue.held, Producer.hand]
  numbered := .nil
  below := by simp [BoundedQueue.offered]

theorem kept_nil : Kept {} [] where
  video := lane_nil _
  audio := lane_nil _
  link := rfl
  arrived := rfl
  hands _ := ⟨rfl, rfl⟩
  framesCleared _ := rfl
  audioCleared _ := rfl
  cleaned k h := by contradiction
  each := each_nil

/-- A frame that is queued is not of a link that has been cleaned up. -/
theorem Kept.not_stale (h : Kept s tr) (hpc : s.pc ≠ .down) {k : Nat} (hk : .cleaned k ∈ tr) :
    k < s.link :=
  (h.cleaned k hk).resolve_right fun hdown => hpc hdown.2

/-- An operation on `frames`. -/
theorem Kept.onFrames (h : Kept s tr) {q : BoundedQueue (Received VideoFrame)}
    {os : List (BoundedQueue.Event (Received VideoFrame))}
    (hdoes : BoundedQueue.Does Client.maxQueuedFrames s.frames q os)
    (hnew : ∀ a, .offered a ∈ os → s.pc = .up ∧ a.link = s.link ∧ a.number = s.arrived) :
    Kept { s with frames := q, arrived := s.arrived + (BoundedQueue.offered os).length }
      (tr ++ os.map .video) := by
  have hquiet : s.pc ≠ .up → BoundedQueue.offered os = [] := fun hpc =>
    BoundedQueue.offered_eq_nil fun a ha => hpc (hnew a ha).1
  have hlane := h.video.does hdoes fun a ha => (hnew a ha).2
  refine ⟨?_, ?_, ?_, ?_, fun hpc => ?_, fun hpc => ?_, h.audioCleared, fun k hk => ?_, ?_⟩
  · rwa [videoEvents_append, videoEvents_map]
  · rw [audioEvents_append, audioEvents_map_video, List.append_nil]
    exact h.audio.mono (Nat.le_add_right _ _)
  · rw [links_append, links_map_video]
    exact h.link
  · rw [arrivals_append, ← h.arrived]
    simp [arrivals, BoundedQueue.offered]
  · exact ⟨hdoes.hand_eq_nil (hquiet hpc) (h.hands hpc).1, (h.hands hpc).2⟩
  · have hdown : s.pc ≠ .up := by
      rcases hpc with hpc | hpc <;> (intro hup; rw [hpc] at hup; contradiction)
    exact hdoes.held_eq_nil (hquiet hdown) (h.framesCleared hpc)
  · exact h.cleaned k (by simpa using hk)
  · rcases h.video.seen hdoes with rfl | ⟨a, rfl⟩ | ⟨a, rfl, hmem, hlink⟩
    · simpa using h.each
    · obtain ⟨-, hlink, hnumber⟩ := hnew a List.mem_cons_self
      exact (each_concat tr _).mpr ⟨h.each, hlink.trans h.link, hnumber.trans h.arrived⟩
    · refine (each_concat tr _).mpr ⟨h.each, fun k hk => ?_⟩
      have hup : s.pc ≠ .down := by
        intro hdown
        rw [h.framesCleared (.inl hdown)] at hmem
        contradiction
      rw [hlink]
      exact h.not_stale hup hk

/-- An operation on `audioFrames`. -/
theorem Kept.onAudio (h : Kept s tr) {q : BoundedQueue (Received AudioFrame)}
    {os : List (BoundedQueue.Event (Received AudioFrame))}
    (hdoes : BoundedQueue.Does Client.maxQueuedAudioFrames s.audioFrames q os)
    (hnew : ∀ a, .offered a ∈ os → s.pc = .up ∧ a.link = s.link ∧ a.number = s.arrived) :
    Kept { s with audioFrames := q, arrived := s.arrived + (BoundedQueue.offered os).length }
      (tr ++ os.map .audio) := by
  have hquiet : s.pc ≠ .up → BoundedQueue.offered os = [] := fun hpc =>
    BoundedQueue.offered_eq_nil fun a ha => hpc (hnew a ha).1
  have hlane := h.audio.does hdoes fun a ha => (hnew a ha).2
  refine ⟨?_, ?_, ?_, ?_, fun hpc => ?_, h.framesCleared, fun hpc => ?_, fun k hk => ?_, ?_⟩
  · rw [videoEvents_append, videoEvents_map_audio, List.append_nil]
    exact h.video.mono (Nat.le_add_right _ _)
  · rwa [audioEvents_append, audioEvents_map]
  · rw [links_append, links_map_audio]
    exact h.link
  · rw [arrivals_append, ← h.arrived]
    simp [arrivals, BoundedQueue.offered]
  · exact ⟨(h.hands hpc).1, hdoes.hand_eq_nil (hquiet hpc) (h.hands hpc).2⟩
  · have hdown : s.pc ≠ .up := by
      intro hup
      rw [hpc] at hup
      contradiction
    exact hdoes.held_eq_nil (hquiet hdown) (h.audioCleared hpc)
  · exact h.cleaned k (by simpa using hk)
  · rcases h.audio.seen hdoes with rfl | ⟨a, rfl⟩ | ⟨a, rfl, hmem, hlink⟩
    · simpa using h.each
    · obtain ⟨-, hlink, hnumber⟩ := hnew a List.mem_cons_self
      exact (each_concat tr _).mpr ⟨h.each, hlink.trans h.link, hnumber.trans h.arrived⟩
    · refine (each_concat tr _).mpr ⟨h.each, fun k hk => ?_⟩
      have hup : s.pc ≠ .down := by
        intro hdown
        rw [h.audioCleared hdown] at hmem
        contradiction
      rw [hlink]
      exact h.not_stale hup hk

/-! ## the steps -/

/-- A step that does one operation on `frames`. -/
theorem onFrames_eq_some {op : BoundedQueue.Op (Received VideoFrame)} {os : List QueueEvent}
    (hstep : s.onFrames op = some (s', os)) :
    ∃ q evs, s.frames.step Client.maxQueuedFrames op = some (q, evs) ∧
      s' = { s with frames := q } ∧ os = evs.map .video := by
  obtain ⟨⟨q, evs⟩, hq, hpair⟩ := Option.map_eq_some_iff.mp hstep
  cases hpair
  exact ⟨q, evs, hq, rfl, rfl⟩

/-- A step that does one operation on `audioFrames`. -/
theorem onAudio_eq_some {op : BoundedQueue.Op (Received AudioFrame)} {os : List QueueEvent}
    (hstep : s.onAudio op = some (s', os)) :
    ∃ q evs, s.audioFrames.step Client.maxQueuedAudioFrames op = some (q, evs) ∧
      s' = { s with audioFrames := q } ∧ os = evs.map .audio := by
  obtain ⟨⟨q, evs⟩, hq, hpair⟩ := Option.map_eq_some_iff.mp hstep
  cases hpair
  exact ⟨q, evs, hq, rfl, rfl⟩

/-- A step that does no more than one operation on `frames`. -/
theorem Kept.frames_step (h : Kept s tr) {op : BoundedQueue.Op (Received VideoFrame)}
    (hop : ∀ a, op ≠ .offer a) {os : List QueueEvent} (hstep : s.onFrames op = some (s', os)) :
    Kept s' (tr ++ os) := by
  obtain ⟨q, evs, hq, rfl, rfl⟩ := onFrames_eq_some hstep
  have hnone : ∀ a, .offered a ∉ evs := fun a ha => hop a (BoundedQueue.offer_of_step hq ha)
  have hkept := h.onFrames (BoundedQueue.does_of_step hq) fun a ha => absurd ha (hnone a)
  rwa [BoundedQueue.offered_eq_nil hnone] at hkept

/-- A step that does no more than one operation on `audioFrames`. -/
theorem Kept.audio_step (h : Kept s tr) {op : BoundedQueue.Op (Received AudioFrame)}
    (hop : ∀ a, op ≠ .offer a) {os : List QueueEvent} (hstep : s.onAudio op = some (s', os)) :
    Kept s' (tr ++ os) := by
  obtain ⟨q, evs, hq, rfl, rfl⟩ := onAudio_eq_some hstep
  have hnone : ∀ a, .offered a ∉ evs := fun a ha => hop a (BoundedQueue.offer_of_step hq ha)
  have hkept := h.onAudio (BoundedQueue.does_of_step hq) fun a ha => absurd ha (hnone a)
  rwa [BoundedQueue.offered_eq_nil hnone] at hkept

/-- The client thread moves on, with empty hands outside of a link and having cleared
what it is to have cleared. -/
theorem Kept.moveTo (h : Kept s tr) {pc : LinkPc} (hdown : s.pc ≠ .down)
    (hhands : pc ≠ .up → s.frames.producer.hand = [] ∧ s.audioFrames.producer.hand = [])
    (hframes : pc = .down ∨ pc = .clearingAudio → s.frames.held = [])
    (haudio : pc = .down → s.audioFrames.held = []) : Kept { s with pc := pc } tr :=
  ⟨h.video, h.audio, h.link, h.arrived, hhands, hframes, haudio,
    fun _ hk => .inl (h.not_stale hdown hk), h.each⟩

/-- The threads of the players move on. -/
theorem Kept.discard (h : Kept s tr) (n : Nat) : Kept { s with discarding := n } tr :=
  ⟨h.video, h.audio, h.link, h.arrived, h.hands, h.framesCleared, h.audioCleared, h.cleaned, h.each⟩

/-- A link comes up with empty queues. -/
theorem Kept.connect (h : Kept s tr) (hpc : s.pc = .down) :
    Kept { s with link := s.link + 1, pc := .up } (tr ++ [.connected]) where
  video := by simpa [videoEvents] using h.video.relink (h.framesCleared (.inl hpc)) (s.link + 1)
  audio := by simpa [audioEvents] using h.audio.relink (h.audioCleared hpc) (s.link + 1)
  link := by simp [h.link, links]
  arrived := by
    rw [arrivals_append, ← h.arrived]
    rfl
  hands hup := absurd rfl hup
  framesCleared hdown := by rcases hdown with hdown | hdown <;> contradiction
  audioCleared hdown := by contradiction
  cleaned k hk := by
    have hmem : .cleaned k ∈ tr := by simpa using hk
    rcases h.cleaned k hmem with hlt | ⟨rfl, -⟩
    · exact .inl (Nat.lt_succ_of_lt hlt)
    · exact .inl (Nat.lt_succ_self _)
  each := (each_concat tr _).mpr ⟨h.each, trivial⟩

/-- The cleanup ends with both queues empty. -/
theorem Kept.cleanedUp (h : Kept s tr) (hpc : s.pc = .down) :
    Kept s (tr ++ [.cleaned s.link]) where
  video := by simpa [videoEvents] using h.video
  audio := by simpa [audioEvents] using h.audio
  link := by
    rw [links_append, ← h.link]
    rfl
  arrived := by
    rw [arrivals_append, ← h.arrived]
    rfl
  hands := h.hands
  framesCleared := h.framesCleared
  audioCleared := h.audioCleared
  cleaned k hk := by
    rcases List.mem_append.mp hk with hk | hk
    · exact h.cleaned k hk
    · cases List.mem_singleton.mp hk
      exact .inr ⟨rfl, hpc⟩
  each := (each_concat tr _).mpr ⟨h.each, h.link⟩

/-- A video frame comes. -/
theorem Kept.offerVideo (h : Kept s tr) (hbetween : s.Between) {f : VideoFrame}
    {os : List QueueEvent}
    (hstep : Queues.onFrames { s with arrived := s.arrived + 1 }
      (.offer ⟨s.link, s.arrived, f⟩) = some (s', os)) : Kept s' (tr ++ os) := by
  obtain ⟨q, evs, hq, rfl, rfl⟩ := onFrames_eq_some hstep
  have hdoes := BoundedQueue.does_of_step hq
  rw [BoundedQueue.step_offer hbetween.2.1] at hq
  cases hq
  refine h.onFrames hdoes fun a ha => ?_
  cases List.mem_singleton.mp ha
  exact ⟨hbetween.1, rfl, rfl⟩

/-- An audio frame comes. -/
theorem Kept.offerAudio (h : Kept s tr) (hbetween : s.Between) {f : AudioFrame}
    {os : List QueueEvent}
    (hstep : Queues.onAudio { s with arrived := s.arrived + 1 }
      (.offer ⟨s.link, s.arrived, f⟩) = some (s', os)) : Kept s' (tr ++ os) := by
  obtain ⟨q, evs, hq, rfl, rfl⟩ := onAudio_eq_some hstep
  have hdoes := BoundedQueue.does_of_step hq
  rw [BoundedQueue.step_offer hbetween.2.2] at hq
  cases hq
  refine h.onAudio hdoes fun a ha => ?_
  cases List.mem_singleton.mp ha
  exact ⟨hbetween.1, rfl, rfl⟩

/-- The link drops between two messages. -/
theorem Kept.linkDrops (h : Kept s tr) (hbetween : s.Between) :
    Kept { s with pc := .clearingFrames } tr := by
  obtain ⟨hup, hvideo, haudio⟩ := hbetween
  refine h.moveTo (by simp [hup]) (fun _ => ?_) (fun hpc => ?_) fun hpc => by contradiction
  · simp [hvideo, haudio, Producer.hand]
  · rcases hpc with hpc | hpc <;> contradiction

/-- `frames.clear()`. -/
theorem Kept.clearFrames (h : Kept s tr) (hpc : s.pc = .clearingFrames) {os : List QueueEvent}
    (hstep : Queues.onFrames { s with pc := .clearingAudio } .clear = some (s', os)) :
    Kept s' (tr ++ os) := by
  obtain ⟨q, evs, hq, rfl, rfl⟩ := onFrames_eq_some hstep
  obtain ⟨hheld, rfl⟩ := BoundedQueue.step_clear hq
  have hkept := h.onFrames (BoundedQueue.does_of_step hq) fun a ha => by contradiction
  rw [List.map_nil, List.append_nil] at hkept ⊢
  refine hkept.moveTo (by simp [hpc]) (fun _ => ?_) (fun _ => hheld) fun hdown => by contradiction
  exact hkept.hands (by simp [hpc])

/-- `audioFrames.clear()`, with which the cleanup ends. -/
theorem Kept.clearAudio (h : Kept s tr) (hpc : s.pc = .clearingAudio) {os : List QueueEvent}
    (hstep : Queues.onAudio { s with pc := .down } .clear = some (s', os)) :
    Kept s' (tr ++ (os ++ [.cleaned s.link])) := by
  obtain ⟨q, evs, hq, rfl, rfl⟩ := onAudio_eq_some hstep
  obtain ⟨hheld, rfl⟩ := BoundedQueue.step_clear hq
  have hkept := h.onAudio (BoundedQueue.does_of_step hq) fun a ha => by contradiction
  rw [List.map_nil, List.append_nil] at hkept
  rw [List.map_nil, List.nil_append]
  have hdown : Kept { s with pc := .down, audioFrames := q } tr := by
    refine hkept.moveTo (by simp [hpc]) (fun _ => ?_) (fun _ => ?_) fun _ => hheld
    · exact hkept.hands (by simp [hpc])
    · exact hkept.framesCleared (.inr hpc)
  exact hdown.cleanedUp rfl

/-- **Every step keeps the invariant.** -/
theorem Kept.step (h : Kept s tr) {i : QueueInput} {os : List QueueEvent}
    (hstep : s.step i = some (s', os)) : Kept s' (tr ++ os) := by
  cases i with
  | connect =>
      simp only [Queues.step] at hstep
      split at hstep
      · next hpc =>
          cases hstep
          exact h.connect hpc
      · contradiction
  | video f =>
      simp only [Queues.step] at hstep
      split at hstep
      · next hbetween => exact h.offerVideo hbetween hstep
      · contradiction
  | audio f =>
      simp only [Queues.step] at hstep
      split at hstep
      · next hbetween => exact h.offerAudio hbetween hstep
      · contradiction
  | videoGo => exact h.frames_step (fun a ha => by contradiction) hstep
  | audioGo => exact h.audio_step (fun a ha => by contradiction) hstep
  | linkDrops =>
      simp only [Queues.step] at hstep
      split at hstep
      · next hbetween =>
          cases hstep
          rw [List.append_nil]
          exact h.linkDrops hbetween
      · contradiction
  | cleanup =>
      simp only [Queues.step] at hstep
      split at hstep
      · next hpc => exact h.clearFrames hpc hstep
      · next hpc =>
          obtain ⟨⟨s₁, evs⟩, hclear, hpair⟩ := Option.map_eq_some_iff.mp hstep
          cases hpair
          exact h.clearAudio hpc hclear
      · contradiction
      · contradiction
  | nextFrame => exact h.frames_step (fun a ha => by contradiction) hstep
  | nextAudioFrame => exact h.audio_step (fun a ha => by contradiction) hstep
  | staleTest =>
      simp only [Queues.step] at hstep
      split at hstep
      · cases hstep
        rw [List.append_nil]
        exact h.discard _
      · cases hstep
        rwa [List.append_nil]
  | staleDiscard =>
      simp only [Queues.step] at hstep
      split at hstep
      · exact (h.discard _).frames_step (fun a ha => by contradiction) hstep
      · contradiction

/-! ## every run -/

/-- Every run from the start leaves the queues kept. -/
theorem kept_of_run {is : List QueueInput} (hrun : queues.run {} is = some (s, tr)) : Kept s tr :=
  queues.run_invariant (fun _ _ _ _ _ h _ hstep => h.step hstep) kept_nil
    (queues.along_true {} is) hrun

/-- What a queue has seen polled is in the order of arrival, each frame once. -/
theorem Lane.order {α : Type} {max link arrived : Nat} {q : BoundedQueue (Received α)}
    {evs : List (BoundedQueue.Event (Received α))} (h : Lane max link arrived q evs) :
    (BoundedQueue.polled evs).Sublist (BoundedQueue.offered evs) ∧
      (BoundedQueue.polled evs).Pairwise fun a b => a.number < b.number := by
  have hsub : (BoundedQueue.polled evs).Sublist (BoundedQueue.offered evs) :=
    (List.sublist_append_left _ _).trans h.flows.order
  exact ⟨hsub, h.numbered.sublist hsub⟩

/-- **The queues**: in every run of the threads `frames` has at most four elements and
`audioFrames` at most eighty, what is polled was received and keeps the order of
arrival, each frame once, and once the cleanup of a link has finished no frame of it
or of a link before is polled (`QueueLaw`). -/
theorem queues_flow {is : List QueueInput} {s : Queues} {tr : List QueueEvent}
    (hrun : queues.run {} is = some (s, tr)) :
    s.frames.items.length ≤ 4 ∧ s.audioFrames.items.length ≤ 80 ∧
      (BoundedQueue.polled (videoEvents tr)).Sublist (BoundedQueue.offered (videoEvents tr)) ∧
      (BoundedQueue.polled (audioEvents tr)).Sublist (BoundedQueue.offered (audioEvents tr)) ∧
      ((BoundedQueue.polled (videoEvents tr)).Pairwise fun a b => a.number < b.number) ∧
      ((BoundedQueue.polled (audioEvents tr)).Pairwise fun a b => a.number < b.number) ∧
      Each QueueLaw tr := by
  have h := kept_of_run hrun
  obtain ⟨hvideo, hvideoOnce⟩ := h.video.order
  obtain ⟨haudio, haudioOnce⟩ := h.audio.order
  exact ⟨h.video.flows.bound, h.audio.flows.bound, hvideo, haudio, hvideoOnce, haudioOnce, h.each⟩

/-- A link with two frames, of which one is polled, and another link. -/
def relinked : List QueueInput :=
  [.connect, .video (frameOf true), .videoGo, .videoGo, .video (frameOf false), .videoGo, .videoGo,
    .nextFrame, .linkDrops, .cleanup, .cleanup, .connect, .video (frameOf true), .videoGo, .videoGo,
    .nextFrame]

theorem queues_flow_relinked :
    ∃ s tr, queues.run {} relinked = some (s, tr) ∧
      BoundedQueue.polled (videoEvents tr) = [⟨1, 0, frameOf true⟩, ⟨2, 2, frameOf true⟩] ∧
      s.frames.items.length ≤ 4 ∧ Each QueueLaw tr := by
  obtain ⟨⟨s, tr⟩, hrun⟩ := Option.isSome_iff_exists.mp
    (show (queues.run {} relinked).isSome = true from rfl)
  have hpolled : (queues.run {} relinked).map (fun r => BoundedQueue.polled (videoEvents r.2)) =
      some [⟨1, 0, frameOf true⟩, ⟨2, 2, frameOf true⟩] := rfl
  rw [hrun, Option.map_some] at hpolled
  have h := queues_flow hrun
  exact ⟨s, tr, hrun, Option.some.inj hpolled, h.1, h.2.2.2.2.2.2⟩

end TwinScreen.Tablet
