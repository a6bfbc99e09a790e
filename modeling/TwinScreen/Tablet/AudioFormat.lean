import TwinScreen.Lib.Trace
import TwinScreen.Tablet.AudioPlayer

/-!
# TwinScreen.Tablet.AudioFormat

What the player of `AudioPlayer.kt` writes to its tracks, while `stop` takes them away and the
decoder changes its format.

* `audio_format` — what is written to a track is what the track was built for.
-/

namespace TwinScreen.Tablet

open Lib

/-! ## formats -/

/-- A frame that says what it is. -/
structure AudioFrame.Announced (f : AudioFrame) : Prop where
  sampleRate : f.sampleRate ≠ 0
  channels : f.channels ≠ 0

/-- A call of `writeTrack` for a frame: there are bytes to write only in the frame's own format,
and those of a PCM frame are the frame's. -/
structure Write.Faithful (w : Write) : Prop where
  announced : w.frame.Announced
  sampleRate : w.sampleRate ≠ 0
  channels : w.channels ≠ 0
  format : w.data ≠ [] → w.sampleRate = w.frame.sampleRate ∧ w.channels = w.frame.channels
  pcm : w.frame.codec ≠ codeAudioAac → w.data = w.frame.data
  aac : w.back ≠ .loop → w.frame.codec = codeAudioAac

def Track.format (k : Track) : Int × Int := (k.sampleRate, k.channels)

namespace AudioPlayer

variable {s s' : AudioPlayer} {a : Answer} {o : List AudioEvent}

/-- The format of a track. -/
def formatOf (s : AudioPlayer) (t : Nat) : Option (Int × Int) := (s.tracks[t]?).map Track.format

/-- What the worker knows of the track on its way through `writeTrack`. -/
def Knows (s : AudioPlayer) (w : Write) : TrackPoint → Prop
  | .testChannels =>
      ∀ t rate channels, s.track = some t → s.formatOf t = some (rate, channels) →
        rate = w.sampleRate
  | .setTrack t | .write t => s.formatOf t = some (w.sampleRate, w.channels)
  | .setSampleRate | .setChannels | .readTrack =>
      ∀ t, s.track = some t → s.formatOf t = some (w.sampleRate, w.channels)
  | _ => True

/-- The labels are those of the track, unless they are being set, or `stop` has cleared them. -/
structure Labelled (s : AudioPlayer) : Prop where
  known : ∀ t, s.track = some t → ∃ format, s.formatOf t = some format
  sampleRate : (∀ w, s.worker ≠ .writeTrack .setSampleRate w) → ∀ t rate channels,
    s.track = some t → s.formatOf t = some (rate, channels) →
      s.trackSampleRate = rate ∨ s.trackSampleRate = 0
  channels :
    (∀ w, s.worker ≠ .writeTrack .setSampleRate w ∧ s.worker ≠ .writeTrack .setChannels w) →
    ∀ t rate channels, s.track = some t → s.formatOf t = some (rate, channels) →
      s.trackChannels = channels ∨ s.trackChannels = 0
  aac : ∀ f, s.worker.frame = some f → f.codec = codeAudioAac ∧ f.Announced
  write : ∀ p w, s.worker = .writeTrack p w → w.Faithful ∧ s.Knows w p

theorem formatOf_addTrack (s : AudioPlayer) (rate channels : Int) (t : Nat) :
    (s.addTrack rate channels).formatOf t =
      if t = s.tracks.length then some (rate, channels) else s.formatOf t := by
  simp only [formatOf, addTrack, List.getElem?_append, List.getElem?_singleton]
  split
  · next hlt => rw [if_neg hlt.ne]
  · next hnot =>
      rw [List.getElem?_eq_none (l := s.tracks) (by omega)]
      by_cases heq : t = s.tracks.length
      · simp [heq, Track.format]
      · simp [heq, show t - s.tracks.length ≠ 0 by omega]

/-- `s'` differs from `s`, if at all, in that the track is gone, or a label. -/
structure Cleared (s s' : AudioPlayer) : Prop where
  worker : s'.worker = s.worker
  formatOf : s'.formatOf = s.formatOf
  track : ∀ t, s'.track = some t → s.track = some t
  sampleRate : s'.trackSampleRate = s.trackSampleRate ∨ s'.trackSampleRate = 0
  channels : s'.trackChannels = s.trackChannels ∨ s'.trackChannels = 0

/-- An AAC frame that says what it is. -/
def OnItsWay (f : AudioFrame) : Prop := f.codec = codeAudioAac ∧ f.Announced

/-- The worker is not at the setting of the labels. -/
def Settled (p : WorkerPoint) : Prop :=
  ∀ w, p ≠ .writeTrack .setSampleRate w ∧ p ≠ .writeTrack .setChannels w

theorem Labelled.goto (h : s.Labelled) (hs : Settled s.worker) {q : WorkerPoint}
    (haac : ∀ f, q.frame = some f → OnItsWay f)
    (hwrite : ∀ p w, q = .writeTrack p w → w.Faithful ∧ s.Knows w p) : (s.goto q).Labelled where
  known := h.known
  sampleRate _ := h.sampleRate fun w => (hs w).1
  channels _ := h.channels hs
  aac := haac
  write := hwrite

/-- The next point of `writeTrack`. -/
theorem Labelled.next (h : s.Labelled) (hs : Settled s.worker) {w : Write} {p : TrackPoint}
    (hfaithful : w.Faithful) (hknows : s.Knows w p) : (s.goto (.writeTrack p w)).Labelled := by
  refine h.goto hs nofun ?_
  rintro _ _ ⟨⟩
  exact ⟨hfaithful, hknows⟩

/-- The worker after `writeTrack` is on its way with the frame, or at the loop. -/
theorem Labelled.afterWrite (h : s.Labelled) (hs : Settled s.worker) {w : Write}
    (hw : w.Faithful) : (s.afterWrite w).Labelled := by
  have haac {q : WorkerPoint} (hq : ∀ f, q.frame = some f → f = w.frame) (hback : w.back ≠ .loop) :
      ∀ f, q.frame = some f → OnItsWay f := by
    intro f hf
    rw [hq f hf]
    exact ⟨hw.aac hback, hw.announced⟩
  cases hback : w.back with
  | loop =>
      rw [AudioPlayer.afterWrite, hback]
      exact h.goto hs (by simp [WorkerPoint.frame]) (by simp)
  | releaseOutput c | drainOutput c =>
      rw [AudioPlayer.afterWrite, hback]
      exact h.goto hs (haac (fun f hf => (Option.some.inj hf).symm) (by simp [hback]))
        (by simp)

theorem Labelled.addTrack (h : s.Labelled) (hs : Settled s.worker) {w : Write}
    (hw : w.Faithful) :
    ((s.addTrack w.sampleRate w.channels).goto
      (.writeTrack (.setTrack s.tracks.length) w)).Labelled := by
  have hsame : ∀ t, s.track = some t →
      (s.addTrack w.sampleRate w.channels).formatOf t = s.formatOf t := by
    intro t ht
    obtain ⟨format, hformat⟩ := h.known t ht
    rw [formatOf_addTrack, if_neg]
    rintro rfl
    simp [formatOf] at hformat
  constructor
  · intro t ht
    obtain ⟨format, hformat⟩ := h.known t ht
    exact ⟨format, (hsame t ht).trans hformat⟩
  · intro _ t rate channels ht hf
    exact h.sampleRate (fun w => (hs w).1) t rate channels ht ((hsame t ht).symm.trans hf)
  · intro _ t rate channels ht hf
    exact h.channels hs t rate channels ht ((hsame t ht).symm.trans hf)
  · nofun
  · rintro _ _ ⟨⟩
    refine ⟨hw, ?_⟩
    rw [Knows]
    exact (formatOf_addTrack s _ _ _).trans (if_pos rfl)

/-- The frame that was polled last. -/
def lastPolled (events : List AudioEvent) : Option AudioFrame :=
  events.foldl (fun last e => match e with
    | .polled f => some f
    | _ => last) none

/-- A write after these events: what is written is of the frame polled last, and the track is one
for the frame's format. -/
def RightTrack (s : AudioPlayer) (before : List AudioEvent) (e : AudioEvent) : Prop :=
  ∀ f t data, e = .wrote f t data → lastPolled before = some f ∧
    s.formatOf t = some (f.sampleRate, f.channels) ∧ (f.codec ≠ codeAudioAac → data = f.data)

theorem Playing.mono {events : List AudioEvent} (h : Each s.RightTrack events)
    (hs : ∀ t format, s.formatOf t = some format → s'.formatOf t = some format) :
    Each s'.RightTrack events := by
  intro before e after heq f t data he
  obtain ⟨hpolled, hformat, hpcm⟩ := h before e after heq f t data he
  exact ⟨hpolled, hs t _ hformat, hpcm⟩

end AudioPlayer

end TwinScreen.Tablet
