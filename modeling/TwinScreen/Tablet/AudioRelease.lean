import TwinScreen.Tablet.AudioPlayer

/-!
# TwinScreen.Tablet.AudioRelease

What the player of `AudioPlayer.kt` leaves behind: its decoder and its track are slots between
the worker, which fills them, and `stop`.

* `audio_released_iff` — which runs leave no decoder and no track behind.
-/

namespace TwinScreen.Tablet

open Lib

/-! ## the slots of the player -/

namespace AudioPlayer

variable {s s' : AudioPlayer} {a : Answer} {o : List AudioEvent}

/-- `writeTrack` has nothing to do with the decoder. -/
theorem codecSlot_track {w : Write} {p : TrackPoint} (hw : s.worker = .writeTrack p w)
    (hdoes : s.TrackDoes w p a s' o) : s'.codecSlot = s.codecSlot := by
  have hafter : (s.afterWrite w).codecSlot = s.codecSlot := by
    unfold afterWrite
    split <;> simp [codecSlot, goto, hw, WorkerPoint.codecFiller]
  cases hdoes with
  | noTrack | write t => exact hafter
  | releaseOld t =>
      cases t <;> simp [codecSlot, goto, hw, WorkerPoint.codecFiller, releaseTrack]
  | _ => simp [codecSlot, goto, hw, WorkerPoint.codecFiller, addTrack]

theorem codecSlot_worker (h : s.codecSlot.Wf) (hdoes : s.WorkerDoes a s' o) :
    match s.codecInput (.worker a) with
    | none => s'.codecSlot = s.codecSlot
    | some j => s.codecSlot.step j = some s'.codecSlot := by
  cases hdoes with
  | goes q hleads =>
      obtain ⟨hidle, hq⟩ := hleads.codecFiller
      rw [hleads.codecInput]
      simp [codecSlot, goto, hidle, hq]
  | create f hat =>
      simp only [codecInput, hat, codecSlot, WorkerPoint.codecFiller, goto, addCodec, Slot.step]
      rw [Slot.marked_concat _ (by simp)]
      simp
  | discard f c hat =>
      have hmade : c < s.codecs.length :=
        (h.hand c (by simp [codecSlot, hat, WorkerPoint.codecFiller, Filler.hand])).1
      simp only [codecInput, hat, codecSlot, WorkerPoint.codecFiller, goto, releaseCodec, setState,
        Slot.step, Slot.release]
      rw [Slot.marked_modify hmade (by simp)]
      simp
  | configure f c hat hfresh =>
      simp only [codecInput, hat, codecSlot, WorkerPoint.codecFiller, goto, setState]
      have hsame : Slot.marked (s.codecs.modify c fun k => { k with state := .executing })
          (fun k => k.state = .released) = Slot.marked s.codecs fun k => k.state = .released := by
        apply Slot.marked_modify_of_iff
        intro k hk
        have hk' : k.state = .uninitialized := by simpa [codecState, hk] using hfresh
        simp [hk']
      simp [hsame]
  | writeTrack p w hat hdoes =>
      have hsame := codecSlot_track hat hdoes
      simpa [codecInput, hat] using hsame
  | pollAac f hat | pollPcm f hat | setCodec f c hat | resetTime f hat | setFrameTime f hat
  | clearCodec hat | queueInput f c hat | writeTime f c time hat | getOutput f c data hat
  | outputFormat f c rate channels hat =>
      simp [codecInput, hat, codecSlot, WorkerPoint.codecFiller, goto, Slot.step]

/-- A decoder that is stopped is not released. -/
theorem codecSlot_stopCodec (s : AudioPlayer) (c : Nat) :
    (s.stopCodec c).codecSlot = s.codecSlot := by
  unfold stopCodec
  split
  case isFalse => rfl
  case isTrue hexecuting =>
    have hsame : Slot.marked (s.setState c .uninitialized).codecs (fun k => k.state = .released) =
        Slot.marked s.codecs fun k => k.state = .released := by
      apply Slot.marked_modify_of_iff
      intro k hk
      have hk' : k.state = .executing := by simpa [Executing, codecState, hk] using hexecuting
      simp [hk']
    simp only [codecSlot, hsame]
    simp [setState]

theorem codecSlot_stop (h : s.codecSlot.Wf) (hstep : s.stepStop s.ui = some s') :
    match s.codecInput .ui with
    | none => s'.codecSlot = s.codecSlot
    | some j => s.codecSlot.step j = some s'.codecSlot := by
  generalize hui : s.ui = p at hstep
  cases p <;> cases hstep
  case stopCodec c =>
    cases c with
    | none => simp [codecInput, hui, codecSlot, StopPoint.codecCloser]
    | some c =>
        have hsame := codecSlot_stopCodec s c
        simp only [codecSlot, Slot.mk.injEq] at hsame
        simp [codecInput, hui, codecSlot, StopPoint.codecCloser, hsame]
  case releaseCodec c =>
    cases c with
    | none => simp [codecInput, hui, codecSlot, StopPoint.codecCloser, Slot.step, Slot.release]
    | some c =>
        have hmade : c < s.codecs.length :=
          h.closer c (by simp [codecSlot, hui, StopPoint.codecCloser])
        simp [codecInput, hui, codecSlot, StopPoint.codecCloser, Slot.step, Slot.release,
          releaseCodec, setState, Slot.marked_modify hmade]
  case releaseTrack t =>
    cases t <;> simp [codecInput, hui, codecSlot, StopPoint.codecCloser, releaseTrack]
  all_goals simp [codecInput, hui, codecSlot, StopPoint.codecCloser, Slot.step]

theorem trackSlot_track {w : Write} {p : TrackPoint} (h : s.trackSlot.Wf)
    (hw : s.worker = .writeTrack p w) (hdoes : s.TrackDoes w p a s' o) :
    match s.trackInput (.worker a) with
    | none => s'.trackSlot = s.trackSlot
    | some j => s.trackSlot.step j = some s'.trackSlot := by
  have hafter : (s.afterWrite w).trackSlot = { s.trackSlot with filler := .idle } := by
    unfold afterWrite
    split <;> simp [trackSlot, goto, WorkerPoint.trackFiller]
  cases hdoes with
  | noTrack | write t =>
      rw [hafter]
      simp [trackInput, WorkerPoint.Fatal, hw, trackSlot, WorkerPoint.trackFiller]
  | testTrack | testSampleRate | testChannels =>
      simp only [trackInput, WorkerPoint.Fatal, hw, trackSlot, goto, if_false]
      split <;> rfl
  | releaseOld t =>
      cases t with
      | none =>
          simp [trackInput, WorkerPoint.Fatal, hw, trackSlot, WorkerPoint.trackFiller, goto,
            Slot.step, Slot.release]
      | some t =>
          have hmade : t < s.tracks.length :=
            h.renouncing t (by simp [trackSlot, hw, WorkerPoint.trackFiller])
          simp [trackInput, WorkerPoint.Fatal, hw, trackSlot, WorkerPoint.trackFiller, goto,
            Slot.step, Slot.release, releaseTrack, Slot.marked_modify hmade]
  | built =>
      simp only [trackInput, WorkerPoint.Fatal, hw, trackSlot, WorkerPoint.trackFiller, goto,
        addTrack, Slot.step]
      rw [Slot.marked_concat _ (by simp)]
      simp
  | _ =>
      simp [trackInput, WorkerPoint.Fatal, hw, trackSlot, WorkerPoint.trackFiller, goto, Slot.step]

theorem trackSlot_worker (h : s.trackSlot.Wf) (hdoes : s.WorkerDoes a s' o) :
    match s.trackInput (.worker a) with
    | none => s'.trackSlot = s.trackSlot
    | some j => s.trackSlot.step j = some s'.trackSlot := by
  cases hdoes with
  | goes q hleads =>
      obtain ⟨hidle, hq⟩ := hleads.trackFiller
      rw [hleads.trackInput]
      by_cases hdied : q = .died
      · simp [hdied, trackSlot, goto, WorkerPoint.trackFiller, Slot.step]
      · simp [hdied, trackSlot, goto, hidle, hq]
  | writeTrack p w hat hdoes => exact trackSlot_track h hat hdoes
  | setFrameTime f hat hrate =>
      simp [trackInput, WorkerPoint.Fatal, hat, hrate, trackSlot, WorkerPoint.trackFiller, goto]
  | pollAac f hat | pollPcm f hat | create f hat | discard f c hat | configure f c hat
  | setCodec f c hat | resetTime f hat | clearCodec hat | queueInput f c hat
  | writeTime f c time hat | getOutput f c data hat | outputFormat f c rate channels hat =>
      simp [trackInput, WorkerPoint.Fatal, hat, trackSlot, WorkerPoint.trackFiller, goto, addCodec,
        releaseCodec, setState]

theorem trackSlot_stop (h : s.trackSlot.Wf) (hstep : s.stepStop s.ui = some s') :
    match s.trackInput .ui with
    | none => s'.trackSlot = s.trackSlot
    | some j => s.trackSlot.step j = some s'.trackSlot := by
  generalize hui : s.ui = p at hstep
  cases p <;> cases hstep
  case stopCodec c =>
    cases c with
    | none => simp [trackInput, hui, trackSlot, StopPoint.trackCloser]
    | some c =>
        obtain ⟨codecs, heq⟩ := stopCodec_eq s c
        simp [trackInput, hui, trackSlot, StopPoint.trackCloser, heq]
  case releaseCodec c =>
    cases c <;> simp [trackInput, hui, trackSlot, StopPoint.trackCloser, releaseCodec, setState]
  case releaseTrack t =>
    cases t with
    | none => simp [trackInput, hui, trackSlot, StopPoint.trackCloser, Slot.step, Slot.release]
    | some t =>
        have hmade : t < s.tracks.length :=
          h.closer t (by simp [trackSlot, hui, StopPoint.trackCloser])
        simp [trackInput, hui, trackSlot, StopPoint.trackCloser, Slot.step, Slot.release,
          releaseTrack, Slot.marked_modify hmade]
  all_goals simp [trackInput, hui, trackSlot, StopPoint.trackCloser, Slot.step]

/-- The decoder is a slot of the player, between the worker and `stop`. -/
theorem shows_codec : Slot.Shows audioPlayer codecSlot codecInput := by
  intro s i s' o h hstep
  cases i with
  | worker a => exact codecSlot_worker h (workerDoes_of_step hstep)
  | ui => exact codecSlot_stop h (stepStop_of_step hstep)

/-- The track is a slot of the player, between the worker and `stop`. -/
theorem shows_track : Slot.Shows audioPlayer trackSlot trackInput := by
  intro s i s' o h hstep
  cases i with
  | worker a => exact trackSlot_worker h (workerDoes_of_step hstep)
  | ui => exact trackSlot_stop h (stepStop_of_step hstep)

/-! ## what is left behind -/

/-- Every decoder and every track has been released. -/
structure Released (s : AudioPlayer) : Prop where
  codecs : ∀ k ∈ s.codecs, k.state = .released
  tracks : ∀ k ∈ s.tracks, k.released = true

/-- The steps that leave nothing behind: nothing new is put where `stop` has already looked, and
a decoder that fails is only forgotten when it is released, or about to be. -/
def Tidy (s : AudioPlayer) : AudioInput → Prop
  | .worker _ =>
      match s.worker with
      | .setCodec _ _ => s.ui.codecCloser = .before
      | .clearCodec =>
          ∀ c, s.codec = some c → s.codecState c = some .released ∨ s.ui = .releaseCodec (some c)
      | .writeTrack (.setTrack _) _ => s.ui.trackCloser = .before
      | _ => True
  | .ui => True

/-- A decoder is only made where there is none. -/
def Vacant (s : AudioPlayer) : Prop :=
  match s.worker with
  | .createDecoder _ | .configure _ _ | .setCodec _ _ => s.codec = none
  | _ => True

theorem vacant_stop (h : s.Vacant) (hstep : s.stepStop s.ui = some s') : s'.Vacant := by
  generalize s.ui = p at hstep
  cases p <;> cases hstep
  case stopCodec c =>
    cases c with
    | none => exact h
    | some c =>
        obtain ⟨codecs, heq⟩ := stopCodec_eq s c
        rw [Option.elim_some, heq]
        exact h
  case releaseCodec o | releaseTrack o => cases o <;> exact h
  case clearCodec =>
    unfold Vacant
    split <;> trivial
  all_goals exact h

theorem vacant_track {w : Write} {p : TrackPoint} (hdoes : s.TrackDoes w p a s' o) :
    s'.Vacant := by
  have hafter : (s.afterWrite w).Vacant := by
    unfold afterWrite
    split <;> trivial
  cases hdoes with
  | noTrack | write t => exact hafter
  | _ => trivial

theorem vacant_worker (h : s.Vacant) (hdoes : s.WorkerDoes a s' o) : s'.Vacant := by
  cases hdoes with
  | goes q hleads =>
      cases q with
      | createDecoder f => exact hleads.vacant f rfl
      | configure f c | setCodec f c => cases hleads.codecFiller.2
      | _ => trivial
  | create f hat | configure f c hat =>
      rw [Vacant, hat] at h
      exact h
  | writeTrack p w hat hdoes => exact vacant_track hdoes
  | _ => trivial

/-- What holds of every state that is reached. -/
structure Sound (s : AudioPlayer) : Prop where
  codec : s.codecSlot.Wf
  track : s.trackSlot.Wf
  vacant : s.Vacant

theorem sound_step {i : AudioInput} (h : s.Sound) (hstep : audioPlayer.step s i = some (s', o)) :
    s'.Sound where
  codec := shows_codec.wf_step h.codec hstep
  track := shows_track.wf_step h.track hstep
  vacant := by
    cases i with
    | worker a => exact vacant_worker h.vacant (workerDoes_of_step hstep)
    | ui => exact vacant_stop h.vacant (stepStop_of_step hstep)

/-- A step is tidy when neither slot loses anything by it. -/
theorem kept_iff_tidy (h : s.Sound) (i : AudioInput) :
    ((∀ j, s.codecInput i = some j → s.codecSlot.Kept j) ∧
      ∀ j, s.trackInput i = some j → s.trackSlot.Kept j) ↔ s.Tidy i := by
  cases i with
  | ui =>
      refine iff_of_true ⟨?_, ?_⟩ trivial
      · intro j hj
        simp only [codecInput] at hj
        split at hj <;> cases hj <;> trivial
      · intro j hj
        simp only [trackInput] at hj
        split at hj <;> cases hj <;> trivial
  | worker a =>
      simp only [codecInput, trackInput, Tidy]
      cases hw : s.worker
      case setCodec f c =>
        have hvacant := h.vacant
        simp only [Vacant, hw] at hvacant
        simp [WorkerPoint.Fatal, Slot.Kept, codecSlot, hvacant]
      case clearCodec =>
        have hcloser (c : Nat) :
            s.ui.codecCloser = .holding (some c) ↔ s.ui = .releaseCodec (some c) := by
          cases s.ui <;> simp [StopPoint.codecCloser]
        simp [WorkerPoint.Fatal, Slot.Kept, codecSlot, Slot.marked, codecState, hcloser]
      case writeTrack p w =>
        cases p
        case setTrack t =>
          have hanew := h.track.anew (.inr ⟨t, by simp [trackSlot, hw, WorkerPoint.trackFiller]⟩)
          simp only [trackSlot] at hanew
          simpa [WorkerPoint.Fatal, Slot.Kept, trackSlot] using fun _ => hanew
        all_goals cases a <;> simp [WorkerPoint.Fatal, Slot.Kept]
      case setFrameTime f => by_cases hzero : f.sampleRate = 0 <;> simp [WorkerPoint.Fatal, hzero,
        Slot.Kept]
      all_goals cases a <;> simp [WorkerPoint.Fatal, Slot.Kept]

theorem codecSlot_start : codecSlot {} = {} := by
  simp [codecSlot, Slot.marked, WorkerPoint.codecFiller, StopPoint.codecCloser]

theorem trackSlot_start : trackSlot {} = {} := by
  simp [trackSlot, Slot.marked, WorkerPoint.trackFiller, StopPoint.trackCloser]

theorem sound_start : Sound {} where
  codec := codecSlot_start ▸ Slot.wf_start
  track := trackSlot_start ▸ Slot.wf_start
  vacant := trivial

end AudioPlayer

open AudioPlayer in
/-- **What the player leaves behind.**  Once the worker has returned and so has `stop`, all decoders
and tracks have been released exactly if each step was tidy. -/
theorem audio_released_iff {inputs : List AudioInput} {s : AudioPlayer} {events : List AudioEvent}
    (hrun : audioPlayer.run {} inputs = some (s, events)) (hworker : s.worker = .ended)
    (hui : s.ui = .stopped) : s.Released ↔ audioPlayer.Along Tidy {} inputs := by
  have hcodec := shows_codec.released_iff_along codecSlot_start hrun
    (by simp [codecSlot, hworker, WorkerPoint.codecFiller])
    (by simp [codecSlot, hui, StopPoint.codecCloser])
  have htrack := shows_track.released_iff_along trackSlot_start hrun
    (by simp [trackSlot, hworker, WorkerPoint.trackFiller])
    (by simp [trackSlot, hui, StopPoint.trackCloser])
  have htidy := audioPlayer.along_iff_along
    (fun s i (hs : Sound s) (_ : True) => kept_iff_tidy hs i)
    (fun s i s' o hs _ _ hstep => sound_step hs hstep) sound_start
    (audioPlayer.along_true {} inputs)
  rw [← htidy, Machine.along_and, ← hcodec, ← htrack]
  constructor
  · rintro ⟨hcodecs, htracks⟩
    exact ⟨Slot.all_marked.mpr hcodecs, Slot.all_marked.mpr htracks⟩
  · rintro ⟨hcodecs, htracks⟩
    exact ⟨Slot.all_marked.mp hcodecs, Slot.all_marked.mp htracks⟩

/-- A frame of AAC. -/
def aacFrame : AudioFrame := ⟨48000, codeAudioAac, 2, [0xFF, 0xF1]⟩

/-- A decoder is made for that frame, and fails; the surface goes later. -/
def decoderFails : List AudioInput :=
  [.worker .go, .worker (.frame (some aacFrame)), .worker .go, .worker .returned,
    .worker .returned, .worker .go, .worker .go, .worker .go, .worker .go, .worker .threw,
    .worker .go] ++ List.replicate 13 .ui ++ [.worker .go]

/-- A decoder that has failed is not released. -/
theorem audio_released_fails :
    ∃ s events, audioPlayer.run {} decoderFails = some (s, events) ∧ s.worker = .ended ∧
      s.ui = .stopped ∧ (s.Released ↔ audioPlayer.Along AudioPlayer.Tidy {} decoderFails) ∧
      s.codecs = [⟨48000, .executing⟩] :=
  ⟨_, _, rfl, rfl, rfl, @audio_released_iff decoderFails _ _ rfl rfl rfl, rfl⟩

end TwinScreen.Tablet
