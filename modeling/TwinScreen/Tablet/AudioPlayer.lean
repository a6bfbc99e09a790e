import TwinScreen.Lib.Slot
import TwinScreen.Tablet.Protocol

/-!
# TwinScreen.Tablet.AudioPlayer

`AudioPlayer.kt`: the worker that plays the client's audio frames, and the UI thread that
calls `stop` when the surface goes.  Every access to a field that both use, and every call
on a `MediaCodec` or an `AudioTrack`, is a step of its own; what the calls answer is input.
The accesses of the two threads are taken as sequentially consistent, though only `running`
is `@Volatile`.  What the player leaves behind is `TwinScreen.Tablet.AudioRelease`, and what it
writes to its tracks `TwinScreen.Tablet.AudioFormat`.
-/

namespace TwinScreen.Tablet

open Lib

/-! ## the threads -/

inductive CodecState
  | uninitialized
  | executing
  | released
  deriving DecidableEq

/-- A `MediaCodec`, with the sample rate of its format. -/
structure Codec where
  sampleRate : Int
  state : CodecState := .uninitialized
  deriving DecidableEq

/-- An `AudioTrack`, with what it was built for. -/
structure Track where
  sampleRate : Int
  channels : Int
  released : Bool := false
  deriving DecidableEq

/-- Where a call of `writeTrack` goes on. -/
inductive WriteBack
  /-- It was `playPcm`'s. -/
  | loop
  /-- It wrote an output of the codec. -/
  | releaseOutput (c : Nat)
  /-- It followed a change of the output format. -/
  | drainOutput (c : Nat)
  deriving DecidableEq

/-- A call of `writeTrack`, and the frame that is played. -/
structure Write where
  frame : AudioFrame
  data : List UInt8
  sampleRate : Int
  channels : Int
  back : WriteBack
  deriving DecidableEq

/-- Where the worker is in `writeTrack`. -/
inductive TrackPoint
  | testTrack
  | testSampleRate
  | testChannels
  | readOld
  | releaseOld (t : Option Nat)
  | build
  | setTrack (t : Nat)
  | setSampleRate
  | setChannels
  | readTrack
  | write (t : Nat)
  deriving DecidableEq

/-- Where the worker is. -/
inductive WorkerPoint
  /-- At `while (running)`. -/
  | loop
  | nextAudioFrame
  /-- At `codec == null`. -/
  | testCodec (f : AudioFrame)
  | createDecoder (f : AudioFrame)
  /-- At `configure` and `start`. -/
  | configure (f : AudioFrame) (c : Nat)
  | setCodec (f : AudioFrame) (c : Nat)
  | resetTime (f : AudioFrame)
  | setFrameTime (f : AudioFrame)
  /-- At `codec ?: return`. -/
  | readCodec (f : AudioFrame)
  | dequeueInput (f : AudioFrame) (c : Nat)
  | clearCodec
  | getInput (f : AudioFrame) (c : Nat)
  | put (f : AudioFrame) (c : Nat)
  | queueInput (f : AudioFrame) (c : Nat)
  /-- At `aacTimeUs += aacFramesPerUs`, before it reads and before it writes. -/
  | readTime (f : AudioFrame) (c : Nat)
  | writeTime (f : AudioFrame) (c : Nat) (time : Int)
  | drainOutput (f : AudioFrame) (c : Nat)
  | getOutput (f : AudioFrame) (c : Nat)
  | releaseOutput (f : AudioFrame) (c : Nat)
  | outputFormat (f : AudioFrame) (c : Nat)
  | writeTrack (p : TrackPoint) (w : Write)
  | ended
  /-- An exception was not caught. -/
  | died
  deriving DecidableEq

/-- Where the UI thread is. -/
inductive StopPoint
  | playing
  | readToStop
  | stopCodec (c : Option Nat)
  | readToRelease
  | releaseCodec (c : Option Nat)
  | clearCodec
  /-- `track?.stop()` changes nothing, since no track is played. -/
  | stopTrack
  | readTrack
  | releaseTrack (t : Option Nat)
  | clearTrack
  | clearSampleRate
  | clearChannels
  | clearTime
  | stopped
  deriving DecidableEq

/-- `AudioPlayer`, once it is started; its decoders and tracks are numbered in the order of
making. -/
structure AudioPlayer where
  running : Bool := true
  codec : Option Nat := none
  track : Option Nat := none
  trackSampleRate : Int := 0
  trackChannels : Int := 0
  aacTimeUs : Int := 0
  aacFramesPerUs : Int := 0
  codecs : List Codec := []
  tracks : List Track := []
  worker : WorkerPoint := .loop
  ui : StopPoint := .playing
  deriving DecidableEq

/-- What is seen of it. -/
inductive AudioEvent
  | polled (f : AudioFrame)
  | queued (c : Nat) (f : AudioFrame) (time : Int)
  | wrote (f : AudioFrame) (t : Nat) (data : List UInt8)
  deriving DecidableEq

/-- What a call answers. -/
inductive Answer
  /-- No call, or one whose answer is of no account. -/
  | go
  | frame (f : Option AudioFrame)
  | threw
  /-- It returns; it may be an index or a buffer. -/
  | returned
  /-- A negative index, or no buffer. -/
  | nothing
  | tryAgainLater
  | outputFormatChanged
  /-- The bytes of an output. -/
  | bytes (data : List UInt8)
  | format (rate channels : Int)
  deriving DecidableEq

inductive AudioInput
  | worker (a : Answer)
  | ui
  deriving DecidableEq

/-- `Protocol.CODE_AUDIO_AAC`. -/
def codeAudioAac : Int := 1

namespace AudioPlayer

/-- The worker goes on there. -/
def goto (s : AudioPlayer) (p : WorkerPoint) : AudioPlayer := { s with worker := p }

/-- The state of a decoder. -/
def codecState (s : AudioPlayer) (c : Nat) : Option CodecState := (s.codecs[c]?).map Codec.state

def Executing (s : AudioPlayer) (c : Nat) : Prop := s.codecState c = some .executing

instance (s : AudioPlayer) (c : Nat) : Decidable (s.Executing c) :=
  inferInstanceAs (Decidable (_ = _))

def setState (s : AudioPlayer) (c : Nat) (state : CodecState) : AudioPlayer :=
  { s with codecs := s.codecs.modify c fun k => { k with state := state } }

/-- `stop()` of a decoder; where none is executing, it throws. -/
def stopCodec (s : AudioPlayer) (c : Nat) : AudioPlayer :=
  if s.Executing c then s.setState c .uninitialized else s

/-- `release()` of a decoder. -/
def releaseCodec (s : AudioPlayer) (c : Nat) : AudioPlayer := s.setState c .released

/-- `release()` of a track. -/
def releaseTrack (s : AudioPlayer) (t : Nat) : AudioPlayer :=
  { s with tracks := s.tracks.modify t fun k => { k with released := true } }

/-- A call on a decoder returns, as it does only when the decoder is executing. -/
def answered (s : AudioPlayer) (c : Nat) (p : WorkerPoint) :
    Option (AudioPlayer × List AudioEvent) :=
  if s.Executing c then some (s.goto p, []) else none

/-- A new decoder, for frames of this rate. -/
def addCodec (s : AudioPlayer) (sampleRate : Int) : AudioPlayer :=
  { s with codecs := s.codecs ++ [{ sampleRate := sampleRate }] }

/-- A new track. -/
def addTrack (s : AudioPlayer) (sampleRate channels : Int) : AudioPlayer :=
  { s with tracks := s.tracks ++ [{ sampleRate := sampleRate, channels := channels }] }

/-- The worker after `writeTrack`. -/
def afterWrite (s : AudioPlayer) (w : Write) : AudioPlayer :=
  match w.back with
  | .loop => s.goto .loop
  | .releaseOutput c => s.goto (.releaseOutput w.frame c)
  | .drainOutput c => s.goto (.drainOutput w.frame c)

/-- A step of `writeTrack`. -/
def stepTrack (s : AudioPlayer) (w : Write) :
    TrackPoint → Answer → Option (AudioPlayer × List AudioEvent)
  | .testTrack, .go =>
      some (s.goto (.writeTrack (if s.track = none then .readOld else .testSampleRate) w), [])
  | .testSampleRate, .go =>
      some (s.goto (.writeTrack
        (if s.trackSampleRate ≠ w.sampleRate then .readOld else .testChannels) w), [])
  | .testChannels, .go =>
      some (s.goto (.writeTrack
        (if s.trackChannels ≠ w.channels then .readOld else .readTrack) w), [])
  | .readOld, .go => some (s.goto (.writeTrack (.releaseOld s.track) w), [])
  | .releaseOld t, .go => some ((t.elim s s.releaseTrack).goto (.writeTrack .build w), [])
  | .build, .threw => some (s.goto .died, [])
  | .build, .returned =>
      some ((s.addTrack w.sampleRate w.channels).goto (.writeTrack (.setTrack s.tracks.length) w),
        [])
  | .setTrack t, .go => some ({ s with track := some t }.goto (.writeTrack .setSampleRate w), [])
  | .setSampleRate, .go =>
      some ({ s with trackSampleRate := w.sampleRate }.goto (.writeTrack .setChannels w), [])
  | .setChannels, .go =>
      some ({ s with trackChannels := w.channels }.goto (.writeTrack .readTrack w), [])
  | .readTrack, .go =>
      match s.track with
      | none => some (s.afterWrite w, [])
      | some t => some (s.goto (.writeTrack (.write t) w), [])
  | .write t, .go => some (s.afterWrite w, if w.data = [] then [] else [.wrote w.frame t w.data])
  | _, _ => none

/-- A step of the worker. -/
def step (s : AudioPlayer) : WorkerPoint → Answer → Option (AudioPlayer × List AudioEvent)
  | .loop, .go => some (s.goto (if s.running then .nextAudioFrame else .ended), [])
  | .nextAudioFrame, .frame none => some (s.goto .loop, [])
  | .nextAudioFrame, .frame (some f) =>
      if f.codec = codeAudioAac then some (s.goto (.testCodec f), [.polled f])
      else
        some (s.goto (.writeTrack .testTrack ⟨f, f.data, f.sampleRate, f.channels, .loop⟩),
          [.polled f])
  | .testCodec f, .go =>
      some (s.goto (if s.codec = none then .createDecoder f else .readCodec f), [])
  | .createDecoder _, .threw => some (s.goto .loop, [])
  | .createDecoder f, .returned =>
      some ((s.addCodec f.sampleRate).goto (.configure f s.codecs.length), [])
  | .configure _ c, .threw => some ((s.releaseCodec c).goto .loop, [])
  | .configure f c, .returned =>
      if s.codecState c = some .uninitialized then
        some ((s.setState c .executing).goto (.setCodec f c), [])
      else none
  | .setCodec f c, .go => some ({ s with codec := some c }.goto (.resetTime f), [])
  | .resetTime f, .go => some ({ s with aacTimeUs := 0 }.goto (.setFrameTime f), [])
  | .setFrameTime f, .go =>
      if f.sampleRate = 0 then some (s.goto .died, [])
      else
        some ({ s with aacFramesPerUs := (1024 * 1000000 : Int).tdiv f.sampleRate }.goto
          (.readCodec f), [])
  | .readCodec f, .go =>
      match s.codec with
      | none => some (s.goto .loop, [])
      | some c => some (s.goto (.dequeueInput f c), [])
  | .dequeueInput _ _, .threw => some (s.goto .clearCodec, [])
  | .dequeueInput _ c, .nothing => s.answered c .loop
  | .dequeueInput f c, .returned => s.answered c (.getInput f c)
  | .clearCodec, .go => some ({ s with codec := none }.goto .loop, [])
  | .getInput _ _, .threw => some (s.goto .died, [])
  | .getInput _ c, .nothing => s.answered c .loop
  | .getInput f c, .returned => s.answered c (.put f c)
  -- the frame may be larger than the buffer, or the buffer taken back
  | .put _ _, .threw => some (s.goto .died, [])
  | .put f c, .returned => some (s.goto (.queueInput f c), [])
  | .queueInput _ _, .threw => some (s.goto .died, [])
  | .queueInput f c, .returned =>
      if s.Executing c then some (s.goto (.readTime f c), [.queued c f s.aacTimeUs]) else none
  | .readTime f c, .go => some (s.goto (.writeTime f c (s.aacTimeUs + s.aacFramesPerUs)), [])
  | .writeTime f c time, .go => some ({ s with aacTimeUs := time }.goto (.drainOutput f c), [])
  | .drainOutput _ _, .threw => some (s.goto .loop, [])
  | .drainOutput _ c, .tryAgainLater => s.answered c .loop
  | .drainOutput f c, .outputFormatChanged =>
      s.answered c (.outputFormat f c)
  -- another negative number
  | .drainOutput f c, .nothing => s.answered c (.drainOutput f c)
  | .drainOutput f c, .returned => s.answered c (.getOutput f c)
  | .getOutput _ _, .threw => some (s.goto .died, [])
  | .getOutput f c, .nothing => s.answered c (.releaseOutput f c)
  | .getOutput f c, .bytes data =>
      if s.Executing c ∧ data ≠ [] then
        some (s.goto (.writeTrack .testTrack
          ⟨f, data, f.sampleRate, f.channels, .releaseOutput c⟩), [])
      else none
  | .releaseOutput _ _, .threw => some (s.goto .died, [])
  | .releaseOutput f c, .returned =>
      s.answered c (.drainOutput f c)
  | .outputFormat _ _, .threw => some (s.goto .died, [])
  | .outputFormat f c, .format rate channels =>
      if s.Executing c then
        if 0 < rate ∧ 0 < channels ∧ (rate ≠ f.sampleRate ∨ channels ≠ f.channels) then
          some (s.goto (.writeTrack .testTrack ⟨f, [], rate, channels, .drainOutput c⟩), [])
        else some (s.goto (.drainOutput f c), [])
      else none
  | .writeTrack p w, a => s.stepTrack w p a
  | _, _ => none

/-- A step of `stop`. -/
def stepStop (s : AudioPlayer) : StopPoint → Option AudioPlayer
  | .playing => some { s with running := false, ui := .readToStop }
  | .readToStop => some { s with ui := .stopCodec s.codec }
  | .stopCodec c => some { c.elim s s.stopCodec with ui := .readToRelease }
  | .readToRelease => some { s with ui := .releaseCodec s.codec }
  | .releaseCodec c => some { c.elim s s.releaseCodec with ui := .clearCodec }
  | .clearCodec => some { s with codec := none, ui := .stopTrack }
  | .stopTrack => some { s with ui := .readTrack }
  | .readTrack => some { s with ui := .releaseTrack s.track }
  | .releaseTrack t => some { t.elim s s.releaseTrack with ui := .clearTrack }
  | .clearTrack => some { s with track := none, ui := .clearSampleRate }
  | .clearSampleRate => some { s with trackSampleRate := 0, ui := .clearChannels }
  | .clearChannels => some { s with trackChannels := 0, ui := .clearTime }
  | .clearTime => some { s with aacTimeUs := 0, ui := .stopped }
  | .stopped => none

end AudioPlayer

/-- The player as a machine. -/
def audioPlayer : Machine AudioPlayer AudioInput AudioEvent where
  step s
    | .worker a => s.step s.worker a
    | .ui => (s.stepStop s.ui).map fun s' => (s', [])

/-! ## the decoder and the track, each as a slot -/

def WorkerPoint.codecFiller : WorkerPoint → Filler
  | .configure _ c | .setCodec _ c => .holding false c
  | _ => .idle

def StopPoint.codecCloser : StopPoint → Closer
  | .playing | .readToStop | .stopCodec _ | .readToRelease => .before
  | .releaseCodec c => .holding c
  | _ => .after

def WorkerPoint.trackFiller : WorkerPoint → Filler
  | .writeTrack (.releaseOld t) _ => .renouncing t
  | .writeTrack .build _ => .making
  | .writeTrack (.setTrack t) _ => .holding true t
  | .died => .gone
  | _ => .idle

def StopPoint.trackCloser : StopPoint → Closer
  | .releaseTrack t => .holding t
  | .clearTrack | .clearSampleRate | .clearChannels | .clearTime | .stopped => .after
  | _ => .before

/-- The answers that the worker does not survive. -/
def WorkerPoint.Fatal : WorkerPoint → Answer → Prop
  | .setFrameTime f, _ => f.sampleRate = 0
  | .getInput _ _, a | .put _ _, a | .queueInput _ _, a | .getOutput _ _, a
  | .releaseOutput _ _, a | .outputFormat _ _, a | .writeTrack .build _, a => a = .threw
  | _, _ => False

instance : (p : WorkerPoint) → (a : Answer) → Decidable (p.Fatal a) := by
  intro p a
  unfold WorkerPoint.Fatal
  split <;> infer_instance

/-- The frame that is on its way through the decoder. -/
def WorkerPoint.frame : WorkerPoint → Option AudioFrame
  | .testCodec f | .createDecoder f | .configure f _ | .setCodec f _ | .resetTime f
  | .setFrameTime f | .readCodec f | .dequeueInput f _ | .getInput f _ | .put f _
  | .queueInput f _ | .readTime f _ | .writeTime f _ _ | .drainOutput f _ | .getOutput f _
  | .releaseOutput f _ | .outputFormat f _ => some f
  | _ => none

namespace AudioPlayer

def codecSlot (s : AudioPlayer) : Slot where
  made := s.codecs.length
  released := Slot.marked s.codecs fun k => k.state = .released
  field := s.codec
  filler := s.worker.codecFiller
  closer := s.ui.codecCloser

def trackSlot (s : AudioPlayer) : Slot where
  made := s.tracks.length
  released := Slot.marked s.tracks fun k => k.released = true
  field := s.track
  filler := s.worker.trackFiller
  closer := s.ui.trackCloser

/-- What a step does to the decoder's slot. -/
def codecInput (s : AudioPlayer) : AudioInput → Option SlotInput
  | .worker a =>
      match s.worker, a with
      | .createDecoder _, .returned => some .make
      | .configure _ _, .threw => some .discard
      | .setCodec _ _, _ => some .put
      | .clearCodec, _ => some .drop
      | _, _ => none
  | .ui =>
      match s.ui with
      | .readToRelease => some .closerRead
      | .releaseCodec _ => some .closerRelease
      | .clearCodec => some .closerClear
      | _ => none

/-- What a step does to the track's slot. -/
def trackInput (s : AudioPlayer) : AudioInput → Option SlotInput
  | .worker a =>
      if s.worker.Fatal a then some .quit
      else
        match s.worker with
        | .writeTrack .readOld _ => some .grip
        | .writeTrack (.releaseOld _) _ => some .renounce
        | .writeTrack .build _ => some .make
        | .writeTrack (.setTrack _) _ => some .put
        | _ => none
  | .ui =>
      match s.ui with
      | .readTrack => some .closerRead
      | .releaseTrack _ => some .closerRelease
      | .clearTrack => some .closerClear
      | _ => none

/-! ## what a step does -/

variable {s s' : AudioPlayer} {a : Answer} {o : List AudioEvent}

/-- A step of `writeTrack`, by what it finds and does. -/
inductive TrackDoes (s : AudioPlayer) (w : Write) :
    TrackPoint → Answer → AudioPlayer → List AudioEvent → Prop
  | testTrack : TrackDoes s w .testTrack .go
      (s.goto (.writeTrack (if s.track = none then .readOld else .testSampleRate) w)) []
  | testSampleRate : TrackDoes s w .testSampleRate .go
      (s.goto (.writeTrack
        (if s.trackSampleRate ≠ w.sampleRate then .readOld else .testChannels) w)) []
  | testChannels : TrackDoes s w .testChannels .go
      (s.goto (.writeTrack (if s.trackChannels ≠ w.channels then .readOld else .readTrack) w)) []
  | readOld : TrackDoes s w .readOld .go (s.goto (.writeTrack (.releaseOld s.track) w)) []
  | releaseOld (t : Option Nat) : TrackDoes s w (.releaseOld t) .go
      ((t.elim s s.releaseTrack).goto (.writeTrack .build w)) []
  | buildThrew : TrackDoes s w .build .threw (s.goto .died) []
  | built : TrackDoes s w .build .returned
      ((s.addTrack w.sampleRate w.channels).goto (.writeTrack (.setTrack s.tracks.length) w)) []
  | setTrack (t : Nat) : TrackDoes s w (.setTrack t) .go
      ({ s with track := some t }.goto (.writeTrack .setSampleRate w)) []
  | setSampleRate : TrackDoes s w .setSampleRate .go
      ({ s with trackSampleRate := w.sampleRate }.goto (.writeTrack .setChannels w)) []
  | setChannels : TrackDoes s w .setChannels .go
      ({ s with trackChannels := w.channels }.goto (.writeTrack .readTrack w)) []
  | noTrack (hnone : s.track = none) : TrackDoes s w .readTrack .go (s.afterWrite w) []
  | readTrack (t : Nat) (ht : s.track = some t) : TrackDoes s w .readTrack .go
      (s.goto (.writeTrack (.write t) w)) []
  | write (t : Nat) : TrackDoes s w (.write t) .go (s.afterWrite w)
      (if w.data = [] then [] else [.wrote w.frame t w.data])

theorem trackDoes_of_step {w : Write} {p : TrackPoint}
    (hstep : s.stepTrack w p a = some (s', o)) : s.TrackDoes w p a s' o := by
  unfold stepTrack at hstep
  split at hstep
  all_goals first
    | contradiction
    | cases hstep
      constructor
    | split at hstep <;> cases hstep
      · exact .noTrack ‹_›
      · exact .readTrack _ ‹_›

/-- A step outside of `writeTrack` that only goes on: it is none of those that a slot knows, and
the frame on its way stays or is let go. -/
structure Leads (s : AudioPlayer) (a : Answer) (q : WorkerPoint) : Prop where
  codecInput : s.codecInput (.worker a) = none
  codecFiller : s.worker.codecFiller = .idle ∧ q.codecFiller = .idle
  trackInput : s.trackInput (.worker a) = if q = .died then some .quit else none
  trackFiller : s.worker.trackFiller = .idle ∧ q.trackFiller = if q = .died then .gone else .idle
  vacant : ∀ f, q = .createDecoder f → s.codec = none
  frame : ∀ f, q.frame = some f → s.worker.frame = some f
  outside : ∀ p w, q ≠ .writeTrack p w

/-- A step of the worker, by what it does. -/
inductive WorkerDoes (s : AudioPlayer) : Answer → AudioPlayer → List AudioEvent → Prop
  | goes {a : Answer} (q : WorkerPoint) (hleads : s.Leads a q) : WorkerDoes s a (s.goto q) []
  | pollAac (f : AudioFrame) (hat : s.worker = .nextAudioFrame) (haac : f.codec = codeAudioAac) :
      WorkerDoes s (.frame (some f)) (s.goto (.testCodec f)) [.polled f]
  | pollPcm (f : AudioFrame) (hat : s.worker = .nextAudioFrame) :
      WorkerDoes s (.frame (some f))
        (s.goto (.writeTrack .testTrack ⟨f, f.data, f.sampleRate, f.channels, .loop⟩)) [.polled f]
  | create (f : AudioFrame) (hat : s.worker = .createDecoder f) :
      WorkerDoes s .returned ((s.addCodec f.sampleRate).goto (.configure f s.codecs.length)) []
  | discard (f : AudioFrame) (c : Nat) (hat : s.worker = .configure f c) :
      WorkerDoes s .threw ((s.releaseCodec c).goto .loop) []
  | configure (f : AudioFrame) (c : Nat) (hat : s.worker = .configure f c)
      (hfresh : s.codecState c = some .uninitialized) :
      WorkerDoes s .returned ((s.setState c .executing).goto (.setCodec f c)) []
  | setCodec (f : AudioFrame) (c : Nat) (hat : s.worker = .setCodec f c) :
      WorkerDoes s .go ({ s with codec := some c }.goto (.resetTime f)) []
  | resetTime (f : AudioFrame) (hat : s.worker = .resetTime f) :
      WorkerDoes s .go ({ s with aacTimeUs := 0 }.goto (.setFrameTime f)) []
  | setFrameTime (f : AudioFrame) (hat : s.worker = .setFrameTime f) (hrate : f.sampleRate ≠ 0) :
      WorkerDoes s .go ({ s with aacFramesPerUs := (1024 * 1000000 : Int).tdiv f.sampleRate }.goto
        (.readCodec f)) []
  | clearCodec (hat : s.worker = .clearCodec) :
      WorkerDoes s .go ({ s with codec := none }.goto .loop) []
  | queueInput (f : AudioFrame) (c : Nat) (hat : s.worker = .queueInput f c) :
      WorkerDoes s .returned (s.goto (.readTime f c)) [.queued c f s.aacTimeUs]
  | writeTime (f : AudioFrame) (c : Nat) (time : Int) (hat : s.worker = .writeTime f c time) :
      WorkerDoes s .go ({ s with aacTimeUs := time }.goto (.drainOutput f c)) []
  | getOutput (f : AudioFrame) (c : Nat) (data : List UInt8) (hat : s.worker = .getOutput f c) :
      WorkerDoes s (.bytes data) (s.goto (.writeTrack .testTrack
        ⟨f, data, f.sampleRate, f.channels, .releaseOutput c⟩)) []
  | outputFormat (f : AudioFrame) (c : Nat) (rate channels : Int)
      (hat : s.worker = .outputFormat f c) (hrate : 0 < rate) (hchannels : 0 < channels) :
      WorkerDoes s (.format rate channels)
        (s.goto (.writeTrack .testTrack ⟨f, [], rate, channels, .drainOutput c⟩)) []
  | writeTrack {a : Answer} {s' : AudioPlayer} {o : List AudioEvent} (p : TrackPoint) (w : Write)
      (hat : s.worker = .writeTrack p w) (hdoes : s.TrackDoes w p a s' o) : WorkerDoes s a s' o

theorem workerDoes_of_step (hstep : s.step s.worker a = some (s', o)) : s.WorkerDoes a s' o := by
  generalize hat : s.worker = p at hstep
  unfold step at hstep
  split at hstep
  all_goals try simp only [answered] at hstep
  all_goals try split at hstep
  all_goals try split at hstep
  all_goals try cases hstep
  all_goals first
    | exact .pollAac _ hat ‹_›
    | exact .pollPcm _ hat
    | exact .create _ hat
    | exact .discard _ _ hat
    | exact .configure _ _ hat ‹_›
    | exact .setCodec _ _ hat
    | exact .resetTime _ hat
    | exact .setFrameTime _ hat ‹_›
    | exact .clearCodec hat
    | exact .queueInput _ _ hat
    | exact .writeTime _ _ _ hat
    | exact .getOutput _ _ _ hat
    | exact .outputFormat _ _ _ _ hat (And.left ‹_›) (And.left (And.right ‹_›))
    | exact .writeTrack _ _ hat (trackDoes_of_step hstep)
    -- all others only lead on
    | refine .goes _ ?_
      constructor <;> simp_all [codecInput, trackInput, WorkerPoint.Fatal, WorkerPoint.codecFiller,
        WorkerPoint.trackFiller, WorkerPoint.frame]

theorem stopCodec_eq (s : AudioPlayer) (c : Nat) :
    ∃ codecs, s.stopCodec c = { s with codecs := codecs } := by
  unfold stopCodec
  split
  · exact ⟨_, rfl⟩
  · exact ⟨s.codecs, rfl⟩

theorem stepStop_of_step (hstep : audioPlayer.step s .ui = some (s', o)) :
    s.stepStop s.ui = some s' := by
  obtain ⟨s₁, hstop, hpair⟩ := Option.map_eq_some_iff.mp hstep
  cases hpair
  exact hstop

end AudioPlayer

end TwinScreen.Tablet
