import TwinScreen.Lib.Slot
import TwinScreen.Tablet.AudioPlayer

/-!
# TwinScreen.Tablet.Decoder

`VideoPlayer.kt` and its `MediaCodec`: the feed thread, which makes and configures the
decoder, the render thread, and the UI thread that calls `stop` when the surface goes.  Every
access to `codec`, `configured` and `running`, and every call on a decoder, is a step of its
own; what the calls answer is input.  The accesses of the threads are taken as sequentially
consistent, though only `running` is `@Volatile`.  What becomes of the frames is
`TwinScreen.Tablet.Player`.

* `decoder_released_iff` — which runs leave no decoder behind.
* `decoder_survives` — with a sound decoder, no thread dies before `stop` has stopped it.
-/

namespace TwinScreen.Tablet

open Lib

/-! ## the threads -/

/-- Where the feed thread is. -/
inductive FeedPoint
  /-- At `while (running)`. -/
  | loop
  | nextFrame
  | testConfigured
  | createDecoder
  /-- At `configure` and `start`. -/
  | configure (c : Nat)
  | setCodec (c : Nat)
  | setConfigured
  /-- At `codec ?: continue`. -/
  | readCodec
  | dequeueInput (c : Nat)
  | getInput (c : Nat)
  | put (c : Nat)
  | queueInput (c : Nat)
  | ended
  /-- An exception was not caught. -/
  | died
  deriving DecidableEq

/-- Where the render thread is. -/
inductive RenderPoint
  | loop
  | readCodec
  | dequeueOutput (c : Nat)
  | releaseOutput (c : Nat)
  | outputFormat (c : Nat)
  | ended
  | died
  deriving DecidableEq

/-- Where the UI thread is. -/
inductive SurfacePoint
  | shown
  | clearConfigured
  | readToStop
  | stopCodec (c : Option Nat)
  | readToRelease
  | releaseCodec (c : Option Nat)
  | clearCodec
  | stopped
  deriving DecidableEq

/-- `VideoPlayer`, once it is started; its decoders are numbered in the order of making. -/
structure VideoPlayer where
  running : Bool := true
  codec : Option Nat := none
  configured : Bool := false
  codecs : List CodecState := []
  feed : FeedPoint := .loop
  render : RenderPoint := .loop
  ui : SurfacePoint := .shown
  deriving DecidableEq

/-- What a call answers. -/
inductive CallAnswer
  /-- No call, or one whose answer is of no account. -/
  | go
  | threw
  /-- It returns; it may be an index, a buffer or a frame. -/
  | returned
  /-- A negative index, no buffer or no frame. -/
  | nothing
  | outputFormatChanged
  deriving DecidableEq

inductive DecoderInput
  | feed (a : CallAnswer)
  | render (a : CallAnswer)
  | ui
  deriving DecidableEq

namespace VideoPlayer

def Executing (s : VideoPlayer) (c : Nat) : Prop := s.codecs[c]? = some .executing

instance (s : VideoPlayer) (c : Nat) : Decidable (s.Executing c) :=
  inferInstanceAs (Decidable (_ = _))

def setState (s : VideoPlayer) (c : Nat) (state : CodecState) : VideoPlayer :=
  { s with codecs := s.codecs.modify c fun _ => state }

/-- A new decoder. -/
def addCodec (s : VideoPlayer) : VideoPlayer := { s with codecs := s.codecs ++ [.uninitialized] }

/-- `stop()` of a decoder; where none is executing, it throws. -/
def stopCodec (s : VideoPlayer) (c : Nat) : VideoPlayer :=
  if s.Executing c then s.setState c .uninitialized else s

/-- The feed thread goes on there. -/
def feedTo (s : VideoPlayer) (p : FeedPoint) : VideoPlayer := { s with feed := p }

def renderTo (s : VideoPlayer) (p : RenderPoint) : VideoPlayer := { s with render := p }

/-- A call on a decoder returns, as it does only when the decoder is executing. -/
def fed (s : VideoPlayer) (c : Nat) (p : FeedPoint) : Option VideoPlayer :=
  if s.Executing c then some (s.feedTo p) else none

def rendered (s : VideoPlayer) (c : Nat) (p : RenderPoint) : Option VideoPlayer :=
  if s.Executing c then some (s.renderTo p) else none

/-- A step of `feedLoop`. -/
def feedLoop (s : VideoPlayer) : FeedPoint → CallAnswer → Option VideoPlayer
  | .loop, .go => some (s.feedTo (if s.running then .nextFrame else .ended))
  | .nextFrame, .nothing => some (s.feedTo .loop)
  | .nextFrame, .returned => some (s.feedTo .testConfigured)
  | .testConfigured, .go => some (s.feedTo (if s.configured then .readCodec else .createDecoder))
  | .createDecoder, .threw => some (s.feedTo .loop)
  | .createDecoder, .returned =>
      some (s.addCodec.feedTo (.configure s.codecs.length))
  | .configure c, .threw => some ((s.setState c .released).feedTo .loop)
  | .configure c, .returned =>
      if s.codecs[c]? = some .uninitialized then
        some ((s.setState c .executing).feedTo (.setCodec c))
      else none
  | .setCodec c, .go => some ({ s with codec := some c }.feedTo .setConfigured)
  | .setConfigured, .go => some ({ s with configured := true }.feedTo .readCodec)
  | .readCodec, .go =>
      match s.codec with
      | none => some (s.feedTo .loop)
      | some c => some (s.feedTo (.dequeueInput c))
  | .dequeueInput _, .threw => some (s.feedTo .loop)
  | .dequeueInput c, .nothing => s.fed c .loop
  | .dequeueInput c, .returned => s.fed c (.getInput c)
  | .getInput _, .threw => some (s.feedTo .died)
  | .getInput c, .nothing => s.fed c .loop
  | .getInput c, .returned => s.fed c (.put c)
  -- the frame may be larger than the buffer, or the buffer taken back
  | .put _, .threw => some (s.feedTo .died)
  | .put c, .returned => some (s.feedTo (.queueInput c))
  | .queueInput _, .threw => some (s.feedTo .died)
  | .queueInput c, .returned => s.fed c .loop
  | _, _ => none

/-- A step of `renderLoop`. -/
def renderLoop (s : VideoPlayer) : RenderPoint → CallAnswer → Option VideoPlayer
  | .loop, .go => some (s.renderTo (if s.running then .readCodec else .ended))
  | .readCodec, .go =>
      match s.codec with
      | none => some (s.renderTo .loop)
      | some c => some (s.renderTo (.dequeueOutput c))
  | .dequeueOutput _, .threw => some (s.renderTo .loop)
  | .dequeueOutput c, .nothing => s.rendered c .loop
  | .dequeueOutput c, .returned => s.rendered c (.releaseOutput c)
  | .dequeueOutput c, .outputFormatChanged => s.rendered c (.outputFormat c)
  | .releaseOutput _, .threw => some (s.renderTo .died)
  | .releaseOutput c, .returned => s.rendered c .loop
  | .outputFormat _, .threw => some (s.renderTo .died)
  | .outputFormat c, .returned => s.rendered c .loop
  | _, _ => none

/-- A step of `stop`. -/
def stop (s : VideoPlayer) : SurfacePoint → Option VideoPlayer
  | .shown => some { s with running := false, ui := .clearConfigured }
  | .clearConfigured => some { s with configured := false, ui := .readToStop }
  | .readToStop => some { s with ui := .stopCodec s.codec }
  | .stopCodec c => some { c.elim s s.stopCodec with ui := .readToRelease }
  | .readToRelease => some { s with ui := .releaseCodec s.codec }
  | .releaseCodec c =>
      some { c.elim s fun c => s.setState c .released with ui := .clearCodec }
  | .clearCodec => some { s with codec := none, ui := .stopped }
  | .stopped => none

def step (s : VideoPlayer) : DecoderInput → Option VideoPlayer
  | .feed a => s.feedLoop s.feed a
  | .render a => s.renderLoop s.render a
  | .ui => s.stop s.ui

end VideoPlayer

/-- The player as a machine. -/
def videoPlayer : Machine VideoPlayer DecoderInput Unit where
  step s i := (s.step i).map fun s' => (s', [])

/-! ## the decoder as a slot -/

def FeedPoint.filler : FeedPoint → Filler
  | .configure c | .setCodec c => .holding false c
  | _ => .idle

def SurfacePoint.closer : SurfacePoint → Closer
  | .shown | .clearConfigured | .readToStop | .stopCodec _ | .readToRelease => .before
  | .releaseCodec c => .holding c
  | .clearCodec | .stopped => .after

/-- The decoder whose input buffer the feed thread has. -/
def FeedPoint.buffer : FeedPoint → Option Nat
  | .getInput c | .put c | .queueInput c => some c
  | _ => none

/-- The decoder whose output the render thread has. -/
def RenderPoint.output : RenderPoint → Option Nat
  | .releaseOutput c | .outputFormat c => some c
  | _ => none

namespace VideoPlayer

def slot (s : VideoPlayer) : Slot where
  made := s.codecs.length
  released := Slot.marked s.codecs (· = .released)
  field := s.codec
  filler := s.feed.filler
  closer := s.ui.closer

/-- What a step does to the slot. -/
def slotInput (s : VideoPlayer) : DecoderInput → Option SlotInput
  | .feed a =>
      match s.feed, a with
      | .createDecoder, .returned => some .make
      | .configure _, .threw => some .discard
      | .setCodec _, _ => some .put
      | _, _ => none
  | .render _ => none
  | .ui =>
      match s.ui with
      | .readToRelease => some .closerRead
      | .releaseCodec _ => some .closerRelease
      | .clearCodec => some .closerClear
      | _ => none

variable {s s' : VideoPlayer} {a : CallAnswer}

/-- A step of `feedLoop`, by what it finds and does. -/
inductive FeedDoes (s : VideoPlayer) : FeedPoint → CallAnswer → VideoPlayer → Prop
  | loop : FeedDoes s .loop .go (s.feedTo (if s.running then .nextFrame else .ended))
  | noFrame : FeedDoes s .nextFrame .nothing (s.feedTo .loop)
  | nextFrame : FeedDoes s .nextFrame .returned (s.feedTo .testConfigured)
  | testConfigured : FeedDoes s .testConfigured .go
      (s.feedTo (if s.configured then .readCodec else .createDecoder))
  | noDecoder : FeedDoes s .createDecoder .threw (s.feedTo .loop)
  | create : FeedDoes s .createDecoder .returned (s.addCodec.feedTo (.configure s.codecs.length))
  | discard (c : Nat) : FeedDoes s (.configure c) .threw ((s.setState c .released).feedTo .loop)
  | configure (c : Nat) (hfresh : s.codecs[c]? = some .uninitialized) :
      FeedDoes s (.configure c) .returned ((s.setState c .executing).feedTo (.setCodec c))
  | setCodec (c : Nat) :
      FeedDoes s (.setCodec c) .go ({ s with codec := some c }.feedTo .setConfigured)
  | setConfigured :
      FeedDoes s .setConfigured .go ({ s with configured := true }.feedTo .readCodec)
  | noCodec : FeedDoes s .readCodec .go (s.feedTo .loop)
  | readCodec (c : Nat) : FeedDoes s .readCodec .go (s.feedTo (.dequeueInput c))
  | noInput (c : Nat) (a : CallAnswer) : FeedDoes s (.dequeueInput c) a (s.feedTo .loop)
  | dequeueInput (c : Nat) (hexecuting : s.Executing c) :
      FeedDoes s (.dequeueInput c) .returned (s.feedTo (.getInput c))
  | noBuffer (c : Nat) : FeedDoes s (.getInput c) .nothing (s.feedTo .loop)
  | getInput (c : Nat) (hexecuting : s.Executing c) :
      FeedDoes s (.getInput c) .returned (s.feedTo (.put c))
  | put (c : Nat) : FeedDoes s (.put c) .returned (s.feedTo (.queueInput c))
  | queueInput (c : Nat) : FeedDoes s (.queueInput c) .returned (s.feedTo .loop)
  | dies (p : FeedPoint) (c : Nat) (hbuffer : p.buffer = some c) :
      FeedDoes s p .threw (s.feedTo .died)

theorem feedDoes_of_step {p : FeedPoint} (hstep : s.feedLoop p a = some s') :
    s.FeedDoes p a s' := by
  unfold feedLoop at hstep
  split at hstep
  all_goals first
    | contradiction
    | cases hstep
      first
        | exact .dies _ _ rfl
        | constructor
    | simp only [fed, Option.ite_none_right_eq_some] at hstep
      obtain ⟨hstate, hstep⟩ := hstep
      cases hstep
      constructor <;> assumption
    | split at hstep <;> cases hstep <;> constructor

theorem slot_feedLoop (h : s.slot.Wf) (hstep : s.feedLoop s.feed a = some s') :
    match s.slotInput (.feed a) with
    | none => s'.slot = s.slot
    | some j => s.slot.step j = some s'.slot := by
  generalize hf : s.feed = p at hstep
  cases feedDoes_of_step hstep with
  | create =>
      simp only [slotInput, hf, slot, FeedPoint.filler, feedTo, addCodec, Slot.step]
      rw [Slot.marked_concat _ (by simp)]
      simp
  | discard c =>
      have hmade : c < s.codecs.length :=
        (h.hand c (by simp [slot, hf, FeedPoint.filler, Filler.hand])).1
      simp only [slotInput, hf, slot, FeedPoint.filler, feedTo, setState, Slot.step, Slot.release]
      rw [Slot.marked_modify hmade (by simp)]
      simp
  | configure c hfresh =>
      have hsame : Slot.marked (s.setState c .executing).codecs (· = .released) =
          Slot.marked s.codecs (· = .released) := by
        apply Slot.marked_modify_of_iff
        intro k hk
        rw [hfresh] at hk
        cases hk
        simp
      simp only [slotInput, hf, slot, FeedPoint.filler, feedTo, hsame]
      simp [setState]
  | loop | testConfigured =>
      simp only [slotInput, hf, slot, feedTo]
      split <;> rfl
  | dies p c hbuffer =>
      cases p <;> cases hbuffer <;> simp [slotInput, hf, slot, FeedPoint.filler, feedTo]
  | _ => simp [slotInput, hf, slot, FeedPoint.filler, feedTo, Slot.step]

/-- Where a step of `renderLoop` leads. -/
inductive RenderDoes (s : VideoPlayer) : RenderPoint → CallAnswer → RenderPoint → Prop
  | goes {p : RenderPoint} {a : CallAnswer} (q : RenderPoint) (hlives : q ≠ .died)
      (hnone : q.output = none) : RenderDoes s p a q
  | takes {a : CallAnswer} (c : Nat) (q : RenderPoint) (hexecuting : s.Executing c)
      (hlives : q ≠ .died) (houtput : q.output = some c) : RenderDoes s (.dequeueOutput c) a q
  | dies {p : RenderPoint} (c : Nat) (houtput : p.output = some c) : RenderDoes s p .threw .died

theorem renderDoes_of_step {p : RenderPoint} (hstep : s.renderLoop p a = some s') :
    ∃ q, s' = s.renderTo q ∧ s.RenderDoes p a q := by
  unfold renderLoop at hstep
  split at hstep
  all_goals try simp only [rendered] at hstep
  all_goals try split at hstep
  all_goals cases hstep
  all_goals refine ⟨_, rfl, ?_⟩
  all_goals first
    | exact .dies _ rfl
    | exact .takes _ _ ‹_› nofun rfl
    | exact .goes _ nofun rfl

theorem slot_renderLoop (hstep : s.renderLoop s.render a = some s') : s'.slot = s.slot := by
  obtain ⟨q, rfl, -⟩ := renderDoes_of_step hstep
  rfl

/-- A decoder that is stopped is not released. -/
theorem slot_stopCodec (s : VideoPlayer) (c : Nat) : (s.stopCodec c).slot = s.slot := by
  unfold stopCodec
  split
  case isFalse => rfl
  case isTrue hexecuting =>
    have hsame : Slot.marked (s.setState c .uninitialized).codecs (· = .released) =
        Slot.marked s.codecs (· = .released) := by
      apply Slot.marked_modify_of_iff
      intro k hk
      rw [Executing, hk] at hexecuting
      cases hexecuting
      simp
    simp only [slot, hsame]
    simp [setState]

theorem slot_stop (h : s.slot.Wf) (hstep : s.stop s.ui = some s') :
    match s.slotInput .ui with
    | none => s'.slot = s.slot
    | some j => s.slot.step j = some s'.slot := by
  generalize hui : s.ui = p at hstep
  cases p <;> cases hstep
  case stopCodec c =>
    cases c with
    | none => simp [slotInput, hui, slot, SurfacePoint.closer]
    | some c =>
        have hsame := slot_stopCodec s c
        simp only [slot, Slot.mk.injEq] at hsame
        simp [slotInput, hui, slot, SurfacePoint.closer, hsame]
  case releaseCodec c =>
    cases c with
    | none => simp [slotInput, hui, slot, SurfacePoint.closer, Slot.step, Slot.release]
    | some c =>
        have hmade : c < s.codecs.length := h.closer c (by simp [slot, hui, SurfacePoint.closer])
        simp [slotInput, hui, slot, SurfacePoint.closer, Slot.step, Slot.release, setState,
          Slot.marked_modify hmade]
  all_goals simp [slotInput, hui, slot, SurfacePoint.closer, Slot.step]

theorem step_of_machine {i : DecoderInput} {o : List Unit}
    (hstep : videoPlayer.step s i = some (s', o)) : s.step i = some s' := by
  obtain ⟨s₁, hone, hpair⟩ := Option.map_eq_some_iff.mp hstep
  cases hpair
  exact hone

/-- The decoder is a slot of the player, between the feed thread and `stop`. -/
theorem shows_slot : Slot.Shows videoPlayer slot slotInput := by
  intro s i s' o h hstep
  have hstep := step_of_machine hstep
  cases i with
  | feed a => exact slot_feedLoop h hstep
  | render a => exact slot_renderLoop hstep
  | ui => exact slot_stop h hstep

/-! ## what is left behind -/

/-- The steps that leave nothing behind: a decoder is put where `stop` has not looked yet, and
where there is no other one to be released. -/
def Orderly (s : VideoPlayer) : DecoderInput → Prop
  | .feed _ =>
      match s.feed with
      | .setCodec _ => s.ui.closer = .before ∧ ∀ c ∈ s.codec, s.codecs[c]? = some .released
      | _ => True
  | _ => True

theorem kept_iff_orderly (s : VideoPlayer) (i : DecoderInput) :
    (∀ j, s.slotInput i = some j → s.slot.Kept j) ↔ s.Orderly i := by
  cases i with
  | feed a =>
      simp only [slotInput, Orderly]
      cases hf : s.feed
      case setCodec c => simp [Slot.Kept, slot, Slot.marked]
      all_goals cases a <;> simp [Slot.Kept]
  | render a => exact iff_of_true (fun j hj => by simp [slotInput] at hj) trivial
  | ui =>
      refine iff_of_true (fun j hj => ?_) trivial
      simp only [slotInput] at hj
      split at hj <;> cases hj <;> trivial

theorem slot_start : slot {} = {} := by
  simp [slot, Slot.marked, FeedPoint.filler, SurfacePoint.closer]

end VideoPlayer

open VideoPlayer in
/-- **What the player leaves behind.**  Once the feed thread has returned and so has `stop`, all
decoders have been released exactly if each step was orderly. -/
theorem decoder_released_iff {inputs : List DecoderInput} {s : VideoPlayer} {tr : List Unit}
    (hrun : videoPlayer.run {} inputs = some (s, tr)) (hfeed : s.feed = .ended)
    (hui : s.ui = .stopped) :
    (∀ state ∈ s.codecs, state = .released) ↔ videoPlayer.Along Orderly {} inputs := by
  have hslot := shows_slot.released_iff_along slot_start hrun
    (by simp [slot, hfeed, FeedPoint.filler]) (by simp [slot, hui, SurfacePoint.closer])
  rw [← videoPlayer.along_congr kept_iff_orderly, ← hslot]
  exact Slot.all_marked.symm

/-- The surface goes while the decoder is being made. -/
def madeLate : List DecoderInput :=
  [.feed .go, .feed .returned, .feed .go, .feed .returned] ++ List.replicate 7 .ui ++
    [.feed .returned, .feed .go, .feed .go, .feed .go, .feed .nothing, .feed .go]

/-- A decoder that is made while the surface goes is not released. -/
theorem decoder_released_late :
    ∃ s tr, videoPlayer.run {} madeLate = some (s, tr) ∧ s.feed = .ended ∧ s.ui = .stopped ∧
      ((∀ state ∈ s.codecs, state = .released) ↔
        videoPlayer.Along VideoPlayer.Orderly {} madeLate) ∧
      s.codecs = [.executing] :=
  ⟨_, _, rfl, rfl, rfl, @decoder_released_iff madeLate _ _ rfl rfl rfl, rfl⟩

/-! ## what the threads do not survive -/

/-- `stop` has been through the call of `stop` on the decoder. -/
def SurfacePoint.Past : SurfacePoint → Prop
  | .readToRelease | .releaseCodec _ | .clearCodec | .stopped => True
  | _ => False

namespace VideoPlayer

/-- A call throws only on a decoder that is not executing, and frames fit the buffers of one that
is. -/
def Fair (s : VideoPlayer) : DecoderInput → Prop
  | .feed a => a = .threw → ∀ c ∈ s.feed.buffer, ¬ s.Executing c
  | .render a => a = .threw → ∀ c ∈ s.render.output, ¬ s.Executing c
  | .ui => True

instance (s : VideoPlayer) : (i : DecoderInput) → Decidable (s.Fair i)
  | .feed _ | .render _ => inferInstanceAs (Decidable (_ → _))
  | .ui => inferInstanceAs (Decidable True)

/-- The threads live, and what they hold on to is executing. -/
structure Alive (s : VideoPlayer) : Prop where
  feed : s.feed ≠ .died
  render : s.render ≠ .died
  fresh : ∀ c, s.feed = .configure c → s.codecs[c]? = some .uninitialized
  buffer : ∀ c, s.feed.buffer = some c → s.Executing c
  output : ∀ c, s.render.output = some c → s.Executing c

variable {s s' : VideoPlayer} {a : CallAnswer}

theorem executing_setState {c d : Nat} {state : CodecState} (h : s.Executing d)
    (hc : s.codecs[c]? ≠ some .executing) : (s.setState c state).Executing d := by
  have hne : c ≠ d := by
    rintro rfl
    exact hc h
  simpa [Executing, setState, List.getElem?_modify, hne] using h

theorem Alive.feedTo (h : s.Alive) {p : FeedPoint} (hp : p ≠ .died)
    (hfresh : ∀ c, p = .configure c → s.codecs[c]? = some .uninitialized)
    (hbuffer : ∀ c, p.buffer = some c → s.Executing c) : (s.feedTo p).Alive :=
  ⟨hp, h.render, hfresh, hbuffer, h.output⟩

/-- Where the feed thread has no buffer. -/
theorem Alive.feedIdle (h : s.Alive) {p : FeedPoint} (hp : p ≠ .died)
    (hfresh : ∀ c, p ≠ .configure c) (hbuffer : p.buffer = none) : (s.feedTo p).Alive :=
  h.feedTo hp (fun c hc => absurd hc (hfresh c)) fun c hc => by rw [hbuffer] at hc; contradiction

theorem Alive.renderTo (h : s.Alive) {p : RenderPoint} (hp : p ≠ .died)
    (houtput : ∀ c, p.output = some c → s.Executing c) : (s.renderTo p).Alive :=
  ⟨h.feed, hp, h.fresh, h.buffer, houtput⟩

theorem alive_feedLoop (h : s.Alive) (hfair : s.Fair (.feed a))
    (hstep : s.feedLoop s.feed a = some s') : s'.Alive := by
  simp only [Fair] at hfair
  have hfresh := h.fresh
  have hbuffer := h.buffer
  generalize hf : s.feed = p at hstep
  rw [hf] at hfresh hbuffer hfair
  cases feedDoes_of_step hstep with
  | loop | testConfigured => split <;> exact h.feedIdle nofun nofun rfl
  | noFrame | nextFrame | noDecoder | noCodec | readCodec c | noInput c | noBuffer c
  | queueInput c => exact h.feedIdle nofun nofun rfl
  | create =>
      refine ⟨nofun, h.render, ?_, nofun, fun c hc => ?_⟩
      · rintro _ ⟨⟩
        simp [feedTo, addCodec]
      · have hlt := (List.getElem?_eq_some_iff.mp (h.output c hc)).1
        exact (List.getElem?_append_left hlt).trans (h.output c hc)
  | discard c =>
      refine ⟨nofun, h.render, nofun, nofun, fun d hd => ?_⟩
      exact executing_setState (h.output d hd) (by simp [hfresh c rfl])
  | configure c hstate =>
      refine ⟨nofun, h.render, nofun, nofun, fun d hd => ?_⟩
      exact executing_setState (h.output d hd) (by simp [hstate])
  | setCodec c | setConfigured => exact ⟨nofun, h.render, nofun, nofun, h.output⟩
  | dequeueInput c hexecuting | getInput c hexecuting =>
      refine h.feedTo nofun nofun ?_
      rintro _ ⟨⟩
      exact hexecuting
  | put c => exact h.feedTo nofun nofun hbuffer
  | dies _ c hc => exact absurd (hbuffer c hc) (hfair rfl c hc)

theorem alive_renderLoop (h : s.Alive) (hfair : s.Fair (.render a))
    (hstep : s.renderLoop s.render a = some s') : s'.Alive := by
  simp only [Fair] at hfair
  have houtput := h.output
  generalize hr : s.render = p at hstep
  rw [hr] at houtput hfair
  obtain ⟨q, rfl, hdoes⟩ := renderDoes_of_step hstep
  cases hdoes with
  | goes _ hlives hnone => exact h.renderTo hlives fun c hc => by simp [hnone] at hc
  | takes c _ hexecuting hlives hc =>
      refine h.renderTo hlives fun d hd => ?_
      cases hc.symm.trans hd
      exact hexecuting
  | dies c hc => exact absurd (houtput c hc) (hfair rfl c hc)

/-- `stop` touches no decoder before it stops one. -/
theorem alive_stop (h : s.Alive) (hstep : s.stop s.ui = some s') : s'.ui.Past ∨ s'.Alive := by
  generalize s.ui = p at hstep
  cases p <;> cases hstep
  case shown | clearConfigured | readToStop =>
    exact .inr ⟨h.feed, h.render, h.fresh, h.buffer, h.output⟩
  all_goals exact .inl trivial

theorem past_stop (h : s.ui.Past) (hstep : s.stop s.ui = some s') : s'.ui.Past := by
  generalize s.ui = p at hstep h
  cases p <;> cases hstep
  case shown | clearConfigured | readToStop => exact h.elim
  all_goals trivial

theorem ui_feedLoop (hstep : s.feedLoop s.feed a = some s') : s'.ui = s.ui := by
  generalize s.feed = p at hstep
  cases feedDoes_of_step hstep <;> rfl

theorem ui_renderLoop (hstep : s.renderLoop s.render a = some s') : s'.ui = s.ui := by
  obtain ⟨q, rfl, -⟩ := renderDoes_of_step hstep
  rfl

/-- **Step lemma.** -/
theorem past_or_alive_step {i : DecoderInput} (h : s.ui.Past ∨ s.Alive) (hfair : s.Fair i)
    (hstep : s.step i = some s') : s'.ui.Past ∨ s'.Alive := by
  rcases h with hpast | halive
  · refine .inl ?_
    cases i with
    | feed a => rwa [ui_feedLoop hstep]
    | render a => rwa [ui_renderLoop hstep]
    | ui => exact past_stop hpast hstep
  · cases i with
    | feed a => exact .inr (alive_feedLoop halive hfair hstep)
    | render a => exact .inr (alive_renderLoop halive hfair hstep)
    | ui => exact alive_stop halive hstep

end VideoPlayer

open VideoPlayer in
/-- **The threads survive.**  As long as the decoder's calls only throw when it is not executing,
neither thread dies of an exception before `stop` has called `stop` on the decoder. -/
theorem decoder_survives {inputs : List DecoderInput} {s : VideoPlayer} {tr : List Unit}
    (hrun : videoPlayer.run {} inputs = some (s, tr)) (hfair : videoPlayer.Along Fair {} inputs)
    (hdied : s.feed = .died ∨ s.render = .died) : s.ui.Past := by
  have hstart : Alive {} := ⟨nofun, nofun, nofun, nofun, nofun⟩
  have hinv := @videoPlayer.run_invariant _ _ _ (fun s _ => s.ui.Past ∨ s.Alive) Fair
    (fun s _ i s' _ h hok hstep => past_or_alive_step h hok (step_of_machine hstep))
    inputs {} s [] tr (.inr hstart) hfair hrun
  rcases hinv with hpast | halive
  · exact hpast
  · rcases hdied with hdied | hdied
    · exact absurd hdied halive.feed
    · exact absurd hdied halive.render

/-- The surface goes when a frame has been put into a buffer. -/
def stoppedWhileFeeding : List DecoderInput :=
  [.feed .go, .feed .returned, .feed .go, .feed .returned, .feed .returned, .feed .go, .feed .go,
    .feed .go, .feed .returned, .feed .returned, .feed .returned] ++ List.replicate 7 .ui ++
    [.feed .threw]

/-- When the surface goes while a buffer is being filled, `queueInputBuffer` throws and the feed
thread dies. -/
theorem decoder_survives_feeding :
    ∃ s tr, videoPlayer.run {} stoppedWhileFeeding = some (s, tr) ∧ s.feed = .died ∧ s.ui.Past :=
  ⟨_, _, rfl, rfl, @decoder_survives stoppedWhileFeeding _ _ rfl (by decide) (.inl rfl)⟩

end TwinScreen.Tablet
