import Mathlib.Data.Rat.Floor
import TwinScreen.Host.Inbound
import TwinScreen.Host.Nal
import TwinScreen.Host.Scaler
import TwinScreen.Lib.Machine
import TwinScreen.Lib.Trace

/-!
# TwinScreen.Host.MainLoop

The main loop of `host/src/main.cpp`, one pass a step: adaptive resolution, the
encoder, the congestion controller, and the drain of inbound messages.  What the
other components answer (the capture, `Resize`, the `Create` calls under `Scale`,
`Encode`, `SendFrame` and its time, the messages read) is the pass's input; the
encoder itself is the size it is configured for.  Send times are exact rationals.
The audio part of a pass touches nothing of this.

* `keyframes_have_idr_iff` — when every message marked as a keyframe has an IDR
  slice.
* `encoded_sizes_agree_iff` — when every texture handed to the encoder has the
  size the encoder is configured for, and the message carries it.
-/

namespace TwinScreen.Host

open Lib

/-! ## constants -/

def kScaleSteps : List ℚ := [1, 3 / 4, 1 / 2, 3 / 8]
def kScaleCount : Nat := kScaleSteps.length
def kSendUpMs : ℚ := 18
def kSendDownMs : ℚ := 6
def kSendUpFrames : Nat := 45
def kSendDownFrames : Nat := 150

/-! ## state -/

/-- What is fixed before the loop: `--raw`, whether the scaler came up, and the
size of the captured monitor. -/
structure Config where
  keepRaw : Bool
  adaptive : Bool
  native : Size
  deriving DecidableEq

/-- The locals of the loop, the scaler, and the size the encoder has. -/
structure Loop where
  running : Bool
  scaleIdx : Nat
  cur : Size
  avgSendMs : ℚ
  sendUpStreak : Nat
  sendDownStreak : Nat
  keyframePending : Bool
  scaler : GpuScaler
  enc : Size
  deriving DecidableEq

/-- The state at the loop's entry: the encoder is started at the native size. -/
def Config.entry (cfg : Config) : Loop where
  running := true
  scaleIdx := 0
  cur := cfg.native
  avgSendMs := 0
  sendUpStreak := 0
  sendDownStreak := 0
  keyframePending := true
  scaler := { ctx := cfg.adaptive }
  enc := cfg.native

/-- A video message, `sp_video_frame` and its NALs. -/
structure VideoMessage where
  keyframe : Bool
  codec : UInt8
  display : Size
  nals : List (List UInt8)
  deriving DecidableEq

/-- What one pass meets. -/
structure Pass where
  captured : Bool
  resize : Bool
  scale : ScaleEnv
  encode : Option EncodedFrame
  sent : Bool
  sendMs : ℚ
  inbound : List Message
  hasClient : Bool
  deriving DecidableEq

/-- What a pass does with the encoder and the connection. -/
inductive LoopEvent
  /-- A `Resize` that returned true. -/
  | resized (size : Size)
  /-- A keyframe request of the tablet, handed on to the encoder. -/
  | keyframeRequested
  | setBitrate (bitrate : UInt32)
  /-- An `Encode` call: its texture's size, the size the encoder is configured
  for, its outcome, and the message then handed to `SendFrame`. -/
  | encoded (texture enc : Size) (out : Option EncodedFrame) (msg : Option VideoMessage)
  deriving DecidableEq

/-! ## adaptive resolution -/

/-- One side of the scaled size, `static_cast<uint32_t>(n * f) & ~1u`. -/
def scaledSide (n : UInt32) (f : ℚ) : UInt32 := UInt32.ofNat ⌊(n.toNat : ℚ) * f⌋.toNat &&& ~~~1

/-- The size of a scale step. -/
def Config.scaledSize (cfg : Config) (idx : Nat) : Size :=
  let f := kScaleSteps.getD idx 1
  (scaledSide cfg.native.1 f, scaledSide cfg.native.2 f)

/-- The resize to the current scale step. -/
def resizeToStep (cfg : Config) (s : Loop) (resize : Bool) : Loop × List LoopEvent :=
  let size := cfg.scaledSize s.scaleIdx
  if size ≠ s.cur then
    if resize then
      ({ s with enc := size, cur := size, keyframePending := true }, [.resized size])
    else
      -- the encoder keeps its size
      ({ s with scaleIdx := 0, cur := cfg.native }, [])
  else
    (s, [])

/-- The texture to encode, by its size, and what is done to get it. -/
def adapt (cfg : Config) (s : Loop) (i : Pass) : Size × Loop × List LoopEvent :=
  if cfg.adaptive = true ∧ 0 < s.scaleIdx then
    let (s, log) := resizeToStep cfg s i.resize
    let r := s.scaler.scale i.scale s.cur
    (GpuScaler.scaledOr cfg.native r, { s with scaler := r.2 }, log)
  else if cfg.adaptive = true ∧ s.scaleIdx = 0 ∧ s.cur ≠ cfg.native then
    if i.resize then
      (cfg.native, { s with enc := cfg.native, cur := cfg.native, keyframePending := true },
        [.resized cfg.native])
    else
      (cfg.native, s, [])
  else
    (cfg.native, s, [])

/-! ## encoding and sending -/

/-- The smoothed send time. -/
def smoothed (avgSendMs sendMs : ℚ) : ℚ :=
  if avgSendMs = 0 then sendMs else avgSendMs * (9 / 10) + sendMs * (1 / 10)

/-- The streaks of congested and of clear frames, up and down. -/
def streaks (s : Loop) (avg : ℚ) : Nat × Nat :=
  if kSendUpMs < avg then (s.sendUpStreak + 1, 0)
  else if avg < kSendDownMs then (0, s.sendDownStreak + 1)
  else (0, 0)

/-- The congestion controller after a sent frame. -/
def congestion (cfg : Config) (s : Loop) (sendMs : ℚ) : Loop :=
  if cfg.adaptive = false then
    s
  else
    let avg := smoothed s.avgSendMs sendMs
    let (up, down) := streaks s avg
    let s := { s with avgSendMs := avg, sendUpStreak := up, sendDownStreak := down }
    if kSendUpFrames ≤ up ∧ s.scaleIdx < kScaleCount - 1 then
      { s with scaleIdx := s.scaleIdx + 1, sendUpStreak := 0 }
    else if kSendDownFrames ≤ down ∧ 0 < s.scaleIdx then
      { s with scaleIdx := s.scaleIdx - 1, sendDownStreak := 0 }
    else
      s

/-- A frame that is sent: it has NALs, or `--raw` is on. -/
def Sendable (cfg : Config) (ef : EncodedFrame) : Prop := ef.nals ≠ [] ∨ cfg.keepRaw = true

instance (cfg : Config) (ef : EncodedFrame) : Decidable (Sendable cfg ef) :=
  inferInstanceAs (Decidable (_ ∨ _))

/-- The message made of what `Encode` yields. -/
def messageOf (cfg : Config) (s : Loop) : Option EncodedFrame → Option VideoMessage
  | none => none
  | some ef =>
      if Sendable cfg ef then
        some ⟨s.keyframePending || ef.keyframe, ef.codec, s.cur, ef.nals⟩
      else
        none

/-- `Encode` on a texture, and the sending of what it yields. -/
def encodeAndSend (cfg : Config) (s : Loop) (texture : Size) (i : Pass) : Loop × List LoopEvent :=
  let msg := messageOf cfg s i.encode
  let log := [.encoded texture s.enc i.encode msg]
  match msg with
  | none => (s, log)
  | some _ =>
      let s := { s with keyframePending := false }
      if i.sent then (congestion cfg s i.sendMs, log) else ({ s with running := false }, log)

/-! ## inbound messages -/

/-- One message of the drain. -/
def handleInbound (s : Loop) (m : Message) : Loop × List LoopEvent :=
  match dispatch m.1 m.2 with
  | .requestKeyframe => ({ s with keyframePending := true }, [.keyframeRequested])
  | .setBitrate bitrate => (s, [.setBitrate bitrate])
  | .injectBatch => (s, [])
  | .nothing => (s, [])

/-- The drain of the messages that `ReadFrame` returns. -/
def drain (s : Loop) : List Message → Loop × List LoopEvent
  | [] => (s, [])
  | m :: ms =>
      let (s, log) := handleInbound s m
      let (s, log') := drain s ms
      (s, log ++ log')

/-! ## the loop -/

/-- The video part of a pass. -/
def video (cfg : Config) (s : Loop) (i : Pass) : Loop × List LoopEvent :=
  if i.captured then
    let (texture, s, log) := adapt cfg s i
    let (s, log') := encodeAndSend cfg s texture i
    (s, log ++ log')
  else
    (s, [])

/-- One pass. -/
def pass (cfg : Config) (s : Loop) (i : Pass) : Loop × List LoopEvent :=
  let (s, log) := video cfg s i
  if s.running = false then
    (s, log)
  else
    let (s, log') := drain s i.inbound
    ({ s with running := i.hasClient }, log ++ log')

/-- The loop as a machine: a pass is possible until the loop is left. -/
def mainLoop (cfg : Config) : Machine Loop Pass LoopEvent where
  step s i := if s.running then some (pass cfg s i) else none

theorem pass_of_step {cfg : Config} {s s' : Loop} {i : Pass} {o : List LoopEvent}
    (h : (mainLoop cfg).step s i = some (s', o)) : pass cfg s i = (s', o) := by
  simp only [mainLoop] at h
  split at h
  · exact Option.some.inj h
  · contradiction

/-! ## what the parts leave alone -/

/-- A message carries the current size. -/
theorem messageOf_display {cfg : Config} {s : Loop} {out : Option EncodedFrame} {m : VideoMessage}
    (h : messageOf cfg s out = some m) : m.display = s.cur := by
  unfold messageOf at h
  split at h
  · contradiction
  · split at h
    · cases h
      rfl
    · contradiction

/-- Two states with the same sizes. -/
structure SameSizes (s s' : Loop) : Prop where
  enc : s'.enc = s.enc
  cur : s'.cur = s.cur
  scaler : s'.scaler = s.scaler

theorem SameSizes.trans {s s' s'' : Loop} (h : SameSizes s s') (h' : SameSizes s' s'') :
    SameSizes s s'' :=
  ⟨h'.enc.trans h.enc, h'.cur.trans h.cur, h'.scaler.trans h.scaler⟩

/-- The controller moves only the scale step and its own numbers. -/
theorem congestion_frame (cfg : Config) (s : Loop) (sendMs : ℚ) :
    SameSizes s (congestion cfg s sendMs) ∧
      (congestion cfg s sendMs).keyframePending = s.keyframePending := by
  unfold congestion
  split
  · exact ⟨⟨rfl, rfl, rfl⟩, rfl⟩
  · obtain ⟨up, down⟩ := streaks s (smoothed s.avgSendMs sendMs)
    dsimp only
    split
    · exact ⟨⟨rfl, rfl, rfl⟩, rfl⟩
    · split <;> exact ⟨⟨rfl, rfl, rfl⟩, rfl⟩

/-- After these the tablet has to resync: a resize, or its own request. -/
def Raises : LoopEvent → Prop
  | .resized _ => True
  | .keyframeRequested => True
  | _ => False

/-- A part of a pass without an `Encode` call: a keyframe becomes pending exactly
with a resize or a request. -/
structure Quiet (s s' : Loop) (log : List LoopEvent) : Prop where
  events : ∀ o ∈ log, Raises o ∨ ∃ bitrate, o = .setBitrate bitrate
  pending : s'.keyframePending = true ↔ s.keyframePending = true ∨ ∃ o ∈ log, Raises o

theorem Quiet.nil {s s' : Loop} (h : s'.keyframePending = s.keyframePending) : Quiet s s' [] :=
  ⟨by simp, by simp [h]⟩

theorem Quiet.raise {s s' : Loop} {o : LoopEvent} (ho : Raises o) (h : s'.keyframePending = true) :
    Quiet s s' [o] :=
  ⟨by simp [ho], by simp [ho, h]⟩

theorem Quiet.trans {s s' s'' : Loop} {log log' : List LoopEvent} (h : Quiet s s' log)
    (h' : Quiet s' s'' log') : Quiet s s'' (log ++ log') where
  events o ho := (List.mem_append.mp ho).elim (h.events o) (h'.events o)
  pending := by
    rw [h'.pending, h.pending, or_assoc]
    simp only [List.mem_append, or_and_right, exists_or]

/-- The adaptation raises a keyframe with its resize. -/
theorem adapt_quiet (cfg : Config) (s : Loop) (i : Pass) :
    Quiet s (adapt cfg s i).2.1 (adapt cfg s i).2.2 := by
  unfold adapt resizeToStep
  split
  · dsimp only
    split
    · split
      · exact .raise trivial rfl
      · exact .nil rfl
    · exact .nil rfl
  · split
    · split
      · exact .raise trivial rfl
      · exact .nil rfl
    · exact .nil rfl

/-- An `Encode` call logs itself, and answers a pending keyframe with its message. -/
theorem encodeAndSend_log (cfg : Config) (s : Loop) (texture : Size) (i : Pass) :
    SameSizes s (encodeAndSend cfg s texture i).1 ∧
      (encodeAndSend cfg s texture i).2 =
        [.encoded texture s.enc i.encode (messageOf cfg s i.encode)] ∧
      ((encodeAndSend cfg s texture i).1.keyframePending = true ↔
        s.keyframePending = true ∧ messageOf cfg s i.encode = none) := by
  unfold encodeAndSend
  cases messageOf cfg s i.encode with
  | none => exact ⟨⟨rfl, rfl, rfl⟩, rfl, by simp⟩
  | some m =>
      dsimp only
      split
      · obtain ⟨hsame, hpending⟩ :=
          congestion_frame cfg { s with keyframePending := false } i.sendMs
        exact ⟨⟨hsame.enc, hsame.cur, hsame.scaler⟩, rfl, by simp [hpending]⟩
      · exact ⟨⟨rfl, rfl, rfl⟩, rfl, by simp⟩

/-- A message raises a keyframe when it requests one. -/
theorem handleInbound_quiet (s : Loop) (m : Message) :
    SameSizes s (handleInbound s m).1 ∧ Quiet s (handleInbound s m).1 (handleInbound s m).2 := by
  unfold handleInbound
  cases dispatch m.1 m.2 with
  | requestKeyframe => exact ⟨⟨rfl, rfl, rfl⟩, .raise trivial rfl⟩
  | setBitrate bitrate =>
      have hset : ¬ Raises (.setBitrate bitrate) := id
      exact ⟨⟨rfl, rfl, rfl⟩, by simp, by simp [hset]⟩
  | injectBatch | nothing => exact ⟨⟨rfl, rfl, rfl⟩, .nil rfl⟩

theorem drain_quiet (s : Loop) (ms : List Message) :
    SameSizes s (drain s ms).1 ∧ Quiet s (drain s ms).1 (drain s ms).2 := by
  induction ms generalizing s with
  | nil => exact ⟨⟨rfl, rfl, rfl⟩, .nil rfl⟩
  | cons m ms ih =>
      obtain ⟨hsame, hquiet⟩ := handleInbound_quiet s m
      obtain ⟨hsame', hquiet'⟩ := ih (handleInbound s m).1
      exact ⟨hsame.trans hsame', hquiet.trans hquiet'⟩

/-! ## sizes -/

/-- A texture goes to the encoder at the encoder's size, and the message says so. -/
def SizesAgree : LoopEvent → Prop
  | .encoded texture enc _ msg => texture = enc ∧ ∀ m, msg = some m → m.display = enc
  | _ => True

theorem sizesAgree_of_quiet {o : LoopEvent} (h : Raises o ∨ ∃ bitrate, o = .setBitrate bitrate) :
    SizesAgree o := by
  cases o with
  | encoded texture enc out msg => rcases h with h | ⟨bitrate, h⟩ <;> contradiction
  | _ => trivial

/-- A pass whose outcomes keep the sizes together: a resize to a scale step fails
only while the encoder is at the native size, a resize back succeeds, and while a
step is in effect `Scale` returns a texture of its size. -/
def KeepsSizes (cfg : Config) (s : Loop) (i : Pass) : Prop :=
  i.captured = true →
    if cfg.adaptive = true ∧ 0 < s.scaleIdx then
      if cfg.scaledSize s.scaleIdx ≠ s.cur ∧ i.resize = false then
        s.cur = cfg.native
      else
        GpuScaler.scaledOr cfg.native (s.scaler.scale i.scale (cfg.scaledSize s.scaleIdx)) =
          cfg.scaledSize s.scaleIdx
    else
      cfg.adaptive = true ∧ s.cur ≠ cfg.native → i.resize = true

/-- The encoder's size is the current one, which is native without the scaler;
the scaler's texture has its recorded size or the native one. -/
structure Sizes (cfg : Config) (s : Loop) : Prop where
  enc : s.enc = s.cur
  native : cfg.adaptive = false → s.cur = cfg.native
  sized : GpuScaler.Sized cfg.native s.scaler

/-- At a scale step: the resize, then the scaler. -/
theorem adapt_sizes_of_step {cfg : Config} {s : Loop} (h : Sizes cfg s)
    (hscaled : cfg.adaptive = true ∧ 0 < s.scaleIdx) {i : Pass} (hcap : i.captured = true) :
    ((adapt cfg s i).1 = (adapt cfg s i).2.1.enc ↔ KeepsSizes cfg s i) ∧
      (KeepsSizes cfg s i → Sizes cfg (adapt cfg s i).2.1) := by
  have hadaptive : ∀ cur : Size, cfg.adaptive = false → cur = cfg.native := by
    intro cur hoff
    rw [hscaled.1] at hoff
    contradiction
  unfold adapt KeepsSizes resizeToStep
  simp only [hcap, forall_const, hscaled, and_self, if_true]
  generalize cfg.scaledSize s.scaleIdx = size
  by_cases hcur : size = s.cur
  · -- no resize: the scaler alone decides
    subst hcur
    simp only [ne_eq, not_true_eq_false, false_and, if_false, h.enc, true_and]
    exact fun hsize => ⟨rfl, hadaptive _, GpuScaler.sized_scale h.sized hsize⟩
  · cases i.resize with
    | true =>
        simp only [ne_eq, hcur, not_false_eq_true, if_true, Bool.true_eq_false, and_false, if_false,
          true_and]
        exact fun hsize => ⟨rfl, hadaptive _, GpuScaler.sized_scale h.sized hsize⟩
    | false =>
        -- the current size becomes native, the encoder keeps its own
        have hnative := GpuScaler.scaledOr_scale_native h.sized i.scale
        simp only [ne_eq, hcur, not_false_eq_true, if_true, Bool.false_eq_true, and_self, if_false,
          hnative, h.enc]
        refine ⟨eq_comm, fun hcur' => ⟨hcur', hadaptive _, ?_⟩⟩
        exact GpuScaler.sized_scale h.sized hnative

/-- At the native step: a resize back, or nothing. -/
theorem adapt_sizes_of_native {cfg : Config} {s : Loop} (h : Sizes cfg s)
    (hscaled : ¬ (cfg.adaptive = true ∧ 0 < s.scaleIdx)) {i : Pass} (hcap : i.captured = true) :
    ((adapt cfg s i).1 = (adapt cfg s i).2.1.enc ↔ KeepsSizes cfg s i) ∧
      (KeepsSizes cfg s i → Sizes cfg (adapt cfg s i).2.1) := by
  unfold adapt KeepsSizes
  simp only [hcap, forall_const, hscaled, if_false]
  by_cases hback : cfg.adaptive = true ∧ s.scaleIdx = 0 ∧ s.cur ≠ cfg.native
  · obtain ⟨hadaptive, hidx, hcur⟩ := hback
    cases i.resize with
    | true =>
        simp only [hadaptive, hidx, hcur, ne_eq, not_false_eq_true, and_self, if_true, imp_true_iff,
          true_and, forall_const]
        exact ⟨rfl, fun _ => rfl, h.sized⟩
    | false =>
        have hne : cfg.native ≠ s.enc := fun heq => hcur (by rw [← h.enc, heq])
        simp [hadaptive, hidx, hcur, hne]
  · have hcur : s.cur = cfg.native := by
      by_contra hcur
      cases hadaptive : cfg.adaptive with
      | false => exact hcur (h.native hadaptive)
      | true =>
          have hidx : ¬ 0 < s.scaleIdx := fun hidx => hscaled ⟨hadaptive, hidx⟩
          exact hback ⟨hadaptive, by omega, hcur⟩
    have hkeep : cfg.adaptive = true ∧ s.cur ≠ cfg.native → i.resize = true :=
      fun hoff => absurd hcur hoff.2
    simp only [hback, if_false]
    exact ⟨iff_of_true (by rw [h.enc, hcur]) hkeep, fun _ => h⟩

/-- The invariant is about sizes only. -/
theorem Sizes.of_same {cfg : Config} {s s' : Loop} (h : Sizes cfg s) (hsame : SameSizes s s') :
    Sizes cfg s' where
  enc := by rw [hsame.enc, hsame.cur, h.enc]
  native hoff := by rw [hsame.cur, h.native hoff]
  sized := by rw [hsame.scaler]; exact h.sized

/-- The video part of a pass is lawful exactly when the pass keeps the sizes. -/
theorem video_sizes {cfg : Config} {s : Loop} (h : Sizes cfg s) (i : Pass) :
    ((∀ o ∈ (video cfg s i).2, SizesAgree o) ↔ KeepsSizes cfg s i) ∧
      (KeepsSizes cfg s i → Sizes cfg (video cfg s i).1) := by
  unfold video
  cases hcap : i.captured with
  | false => exact ⟨by simp [KeepsSizes, hcap], fun _ => h⟩
  | true =>
      have hadapt : ((adapt cfg s i).1 = (adapt cfg s i).2.1.enc ↔ KeepsSizes cfg s i) ∧
          (KeepsSizes cfg s i → Sizes cfg (adapt cfg s i).2.1) := by
        by_cases hscaled : cfg.adaptive = true ∧ 0 < s.scaleIdx
        · exact adapt_sizes_of_step h hscaled hcap
        · exact adapt_sizes_of_native h hscaled hcap
      have hlog := (adapt_quiet cfg s i).events
      generalize adapt cfg s i = r at hadapt hlog
      obtain ⟨texture, s₁, log⟩ := r
      dsimp only at hadapt hlog ⊢
      obtain ⟨hsame, hencoded, -⟩ := encodeAndSend_log cfg s₁ texture i
      rw [if_pos rfl, hencoded]
      refine ⟨?_, fun hkeep => (hadapt.2 hkeep).of_same hsame⟩
      rw [List.forall_mem_append, List.forall_mem_singleton, ← hadapt.1]
      constructor
      · intro hall
        exact hall.2.1
      · intro htexture
        refine ⟨fun o ho => ?_, htexture, fun m hm => ?_⟩
        · exact sizesAgree_of_quiet (hlog o ho)
        · rw [messageOf_display hm]
          exact (hadapt.2 (hadapt.1.mp htexture)).enc.symm

/-- One pass is lawful exactly when it keeps the sizes. -/
theorem pass_sizes {cfg : Config} {s : Loop} (h : Sizes cfg s) (i : Pass) :
    ((∀ o ∈ (pass cfg s i).2, SizesAgree o) ↔ KeepsSizes cfg s i) ∧
      (KeepsSizes cfg s i → Sizes cfg (pass cfg s i).1) := by
  have hvideo := video_sizes h i
  unfold pass
  generalize video cfg s i = r at hvideo
  obtain ⟨s₁, log⟩ := r
  dsimp only at hvideo ⊢
  obtain ⟨hsame, hquiet⟩ := drain_quiet s₁ i.inbound
  split
  · exact hvideo
  · constructor
    · rw [← hvideo.1, List.forall_mem_append]
      exact and_iff_left fun o ho => sizesAgree_of_quiet (hquiet.events o ho)
    · intro hkeep
      exact (hvideo.2 hkeep).of_same ⟨hsame.enc, hsame.cur, hsame.scaler⟩

/-- **Sizes.**  In a run of the loop every `Encode` call gets a texture of the size
the encoder is configured for, and its message carries that size, exactly when
every pass keeps the sizes. -/
theorem encoded_sizes_agree_iff (cfg : Config) (is : List Pass) (s : Loop) (tr : List LoopEvent)
    (hrun : (mainLoop cfg).run cfg.entry is = some (s, tr)) :
    (∀ o ∈ tr, SizesAgree o) ↔ (mainLoop cfg).Along (KeepsSizes cfg) cfg.entry is := by
  have hentry : Sizes cfg cfg.entry := ⟨rfl, fun _ => rfl, fun _ ht => nomatch ht⟩
  refine (mainLoop cfg).forall_outputs_iff_along (fun s i s' o h hstep => ?_)
    (fun s i s' o h hok hstep => ?_) hentry hrun
  · have hsizes := (pass_sizes h i).1
    rw [pass_of_step hstep] at hsizes
    exact hsizes
  · have hsizes := (pass_sizes h i).2 hok
    rw [pass_of_step hstep] at hsizes
    exact hsizes

instance : DecidablePred SizesAgree
  | .encoded _ _ _ _ => inferInstanceAs (Decidable (_ ∧ _))
  | .resized _ | .keyframeRequested | .setBitrate _ => .isTrue trivial

/-- A pass that encodes a slice and takes 20 ms to send it. -/
def slowPass : Pass where
  captured := true
  resize := true
  scale := ⟨true, true, true⟩
  encode := some ⟨false, spCodecH264, [[0x41]], []⟩
  sent := true
  sendMs := 20
  inbound := []
  hasClient := true

/-- The monitor of the runs below. -/
def fullHd : Config := ⟨false, true, (1920, 1080)⟩

/-- After 45 slow frames the size steps down; the sizes still agree where no call fails. -/
theorem encoded_sizes_agree_slowPass :
    ∃ s tr, (mainLoop fullHd).run fullHd.entry (List.replicate 46 slowPass) = some (s, tr) ∧
      s.scaleIdx = 1 ∧
      (mainLoop fullHd).Along (KeepsSizes fullHd) fullHd.entry (List.replicate 46 slowPass) := by
  have hrun : ((mainLoop fullHd).run fullHd.entry (List.replicate 46 slowPass)).map
      (fun r => (r.1.scaleIdx, decide (∀ o ∈ r.2, SizesAgree o))) = some (1, true) := by
    decide +kernel
  obtain ⟨⟨s, tr⟩, hrun, hat⟩ := Option.map_eq_some_iff.mp hrun
  obtain ⟨hidx, hagree⟩ := Prod.mk.inj hat
  refine ⟨s, tr, hrun, hidx, ?_⟩
  exact (encoded_sizes_agree_iff fullHd _ s tr hrun).mp (of_decide_eq_true hagree)

/-- When the scaled texture of that step cannot be created, the captured one goes to an encoder
that has been resized. -/
theorem native_texture_after_resize :
    ∃ s tr, (mainLoop fullHd).run fullHd.entry
        (List.replicate 45 slowPass ++ [{ slowPass with scale := ⟨false, true, true⟩ }]) =
          some (s, tr) ∧
      ¬ ∀ o ∈ tr, SizesAgree o := by
  have hrun : ((mainLoop fullHd).run fullHd.entry
      (List.replicate 45 slowPass ++ [{ slowPass with scale := ⟨false, true, true⟩ }])).map
        (fun r => decide (∀ o ∈ r.2, SizesAgree o)) = some false := by decide +kernel
  obtain ⟨⟨s, tr⟩, hrun, hbad⟩ := Option.map_eq_some_iff.mp hrun
  exact ⟨s, tr, hrun, of_decide_eq_false hbad⟩

/-! ## keyframes -/

/-- A message marked as a keyframe has an IDR slice. -/
def KeyframeHasIdr : LoopEvent → Prop
  | .encoded _ _ _ (some m) => m.keyframe = true → hasIdrSlice m.nals = true
  | _ => True

/-- The encoder yields an access unit that is sent. -/
def Yields (cfg : Config) : LoopEvent → Prop
  | .encoded _ _ (some ef) _ => Sendable cfg ef
  | _ => False

/-- An access unit that is sent has an IDR slice when the encoder reports it as a
keyframe, or when it is the first one since the loop's entry, a resize or a
request. -/
def FirstHasIdr (cfg : Config) (before : List LoopEvent) : LoopEvent → Prop
  | .encoded _ _ (some ef) _ =>
      Sendable cfg ef → (ef.keyframe = true ∨ ¬ Pending (Yields cfg) Raises before) →
        hasIdrSlice ef.nals = true
  | _ => True

/-- The pending keyframe is one that no access unit has answered yet; and so far
the two laws agree. -/
structure Keyframes (cfg : Config) (s : Loop) (tr : List LoopEvent) : Prop where
  pending : s.keyframePending = true ↔ ¬ Pending (Yields cfg) Raises tr
  agree : (∀ o ∈ tr, KeyframeHasIdr o) ↔ Each (FirstHasIdr cfg) tr

/-- Parts without an `Encode` call keep the invariant. -/
theorem Keyframes.append {cfg : Config} {s s' : Loop} {tr os : List LoopEvent}
    (h : Keyframes cfg s tr) (hquiet : Quiet s s' os) : Keyframes cfg s' (tr ++ os) := by
  have hfree : ∀ o ∈ os, ¬ Yields cfg o ∧ KeyframeHasIdr o ∧ ∀ before, FirstHasIdr cfg before o := by
    intro o ho
    cases o with
    | encoded texture enc out msg =>
        rcases hquiet.events _ ho with hraises | ⟨bitrate, heq⟩ <;> contradiction
    | _ => exact ⟨id, trivial, fun _ => trivial⟩
  constructor
  · rw [hquiet.pending, h.pending, pending_append_of_not_opens fun o ho => (hfree o ho).1]
    simp only [not_and_or, not_forall, Classical.not_not, exists_prop]
  · rw [List.forall_mem_append, each_append_of_free fun before o ho => (hfree o ho).2.2 before,
      h.agree]
    exact and_iff_left fun o ho => (hfree o ho).2.1

/-- An `Encode` call answers what is pending when its access unit is sent. -/
theorem Keyframes.encode {cfg : Config} {s : Loop} {tr : List LoopEvent} (h : Keyframes cfg s tr)
    (texture : Size) (i : Pass) :
    Keyframes cfg (encodeAndSend cfg s texture i).1
      (tr ++ (encodeAndSend cfg s texture i).2) := by
  obtain ⟨-, hlog, hpending⟩ := encodeAndSend_log cfg s texture i
  rw [hlog]
  constructor
  · have hraises : ∀ msg, ¬ Raises (.encoded texture s.enc i.encode msg) := fun _ => id
    have hyields : messageOf cfg s i.encode = none ↔
        ¬ Yields cfg (.encoded texture s.enc i.encode (messageOf cfg s i.encode)) := by
      cases i.encode with
      | none => simp [messageOf, Yields]
      | some ef => by_cases hsend : Sendable cfg ef <;> simp [messageOf, Yields, hsend]
    rw [hpending, pending_concat, not_or, h.pending, and_comm, ← hyields]
    simp [hraises]
  · rw [List.forall_mem_append, List.forall_mem_singleton, each_concat, h.agree]
    apply and_congr_right
    intro _
    cases i.encode with
    | none => exact Iff.rfl
    | some ef =>
        by_cases hsend : Sendable cfg ef
        · simp only [messageOf, hsend, if_true, KeyframeHasIdr, FirstHasIdr, forall_const,
            Bool.or_eq_true, h.pending]
          rw [or_comm]
        · simp [messageOf, hsend, KeyframeHasIdr, FirstHasIdr]

/-- One pass keeps the invariant. -/
theorem Keyframes.pass {cfg : Config} {s : Loop} {tr : List LoopEvent} (h : Keyframes cfg s tr)
    (i : Pass) : Keyframes cfg (pass cfg s i).1 (tr ++ (pass cfg s i).2) := by
  have hvideo : Keyframes cfg (video cfg s i).1 (tr ++ (video cfg s i).2) := by
    unfold video
    split
    · dsimp only
      rw [← List.append_assoc]
      exact (h.append (adapt_quiet cfg s i)).encode (adapt cfg s i).1 i
    · rwa [List.append_nil]
  unfold Host.pass
  generalize video cfg s i = r at hvideo
  obtain ⟨s₁, log⟩ := r
  dsimp only at hvideo ⊢
  split
  · exact hvideo
  · have hdrain := hvideo.append (drain_quiet s₁ i.inbound).2
    rw [← List.append_assoc]
    exact ⟨hdrain.pending, hdrain.agree⟩

/-- **Keyframes.**  In a run of the loop every message marked as a keyframe has an
IDR slice exactly when every access unit has one that the encoder reports as a
keyframe, or that is the first since the loop's entry, a resize or a request. -/
theorem keyframes_have_idr_iff (cfg : Config) (is : List Pass) (s : Loop) (tr : List LoopEvent)
    (hrun : (mainLoop cfg).run cfg.entry is = some (s, tr)) :
    (∀ o ∈ tr, KeyframeHasIdr o) ↔ Each (FirstHasIdr cfg) tr := by
  have hentry : Keyframes cfg cfg.entry [] :=
    ⟨iff_of_true rfl not_pending_nil, iff_of_true (by simp) each_nil⟩
  have hrun := (mainLoop cfg).run_invariant (fun s tr i s' o h _ hstep => ?_) hentry
    ((mainLoop cfg).along_true cfg.entry is) hrun
  · exact hrun.agree
  · have hpass := h.pass i
    rw [pass_of_step hstep] at hpass
    exact hpass

instance : DecidablePred KeyframeHasIdr
  | .encoded _ _ _ (some _) => inferInstanceAs (Decidable (_ → _))
  | .encoded _ _ _ none | .resized _ | .keyframeRequested | .setBitrate _ => .isTrue trivial

/-- A keyframe request that comes while the encoder still holds an earlier slice. -/
def requestedLate : List Pass :=
  [{ slowPass with
      encode := some ⟨true, spCodecH264, [[0x65]], []⟩, inbound := [(spMsgKeyframeReq, [])] },
    slowPass]

theorem keyframes_have_idr_requestedLate :
    ∃ s tr, (mainLoop fullHd).run fullHd.entry requestedLate = some (s, tr) ∧
      ((∀ o ∈ tr, KeyframeHasIdr o) ↔ Each (FirstHasIdr fullHd) tr) := by
  have hrun : ((mainLoop fullHd).run fullHd.entry requestedLate).isSome = true := by decide +kernel
  obtain ⟨⟨s, tr⟩, hrun⟩ := Option.isSome_iff_exists.mp hrun
  exact ⟨s, tr, hrun, keyframes_have_idr_iff fullHd requestedLate s tr hrun⟩

/-- The earlier slice is sent as a keyframe. -/
theorem earlier_slice_marked_keyframe :
    ∃ s tr, (mainLoop fullHd).run fullHd.entry requestedLate = some (s, tr) ∧
      ¬ ∀ o ∈ tr, KeyframeHasIdr o := by
  have hrun : ((mainLoop fullHd).run fullHd.entry requestedLate).map
      (fun r => decide (∀ o ∈ r.2, KeyframeHasIdr o)) = some false := by decide +kernel
  obtain ⟨⟨s, tr⟩, hrun, hbad⟩ := Option.map_eq_some_iff.mp hrun
  exact ⟨s, tr, hrun, of_decide_eq_false hbad⟩

end TwinScreen.Host
