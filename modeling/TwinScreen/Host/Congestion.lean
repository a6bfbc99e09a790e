import TwinScreen.Host.Adaptive
import TwinScreen.Host.Turns
import TwinScreen.Lib.Hysteresis

/-!
# TwinScreen.Host.Congestion

Where the adaptive-resolution controller goes.  As long as no resize fails, what a run
of the main loop does to `scale_idx`, to the average and to the streaks is what a
controller with hysteresis does with the send times, one sample a sent frame
(`control_run`), and the messages announce the size of the current step.  Send times and
averages are exact rationals, not doubles.

* `scale_saturates` — a link that stays slow gets the smallest pictures.
* `scale_recovers` — a link that stays fast gets the native ones.
* `scale_rests` — a link in between keeps what it has.
-/

namespace TwinScreen.Host

open Lib

/-! ## the loop's controller -/

/-- The controller of the loop. -/
def sendControl : Hysteresis ℚ where
  weight := 9 / 10
  high := kSendUpMs
  low := kSendDownMs
  highCount := kSendUpFrames
  lowCount := kSendDownFrames
  top := kScaleCount - 1
  weight_nonneg := by norm_num
  weight_le_one := by norm_num
  low_le_high := by norm_num [kSendDownMs, kSendUpMs]
  highCount_pos := by decide
  lowCount_pos := by decide

/-- What the loop keeps for it. -/
def Loop.control (s : Loop) : Hysteresis.State ℚ :=
  ⟨s.scaleIdx, s.avgSendMs, s.sendUpStreak, s.sendDownStreak⟩

theorem smoothed_eq (avg sendMs : ℚ) :
    smoothed avg sendMs = Hysteresis.smooth (9 / 10) avg sendMs := by
  unfold smoothed Hysteresis.smooth
  norm_num

/-- A sent frame is a sample. -/
theorem control_congestion {cfg : Config} (hadaptive : cfg.adaptive = true) (s : Loop)
    (sendMs : ℚ) : (congestion cfg s sendMs).control = sendControl.step s.control sendMs := by
  unfold congestion Hysteresis.step
  simp only [hadaptive, Bool.true_eq_false, if_false, smoothed_eq]
  have hstreaks : ∀ avg, streaks s avg = sendControl.streaks s.control avg := fun _ => rfl
  rw [hstreaks]
  simp only [apply_ite Loop.control]
  rfl

/-- The send time of a pass that sends its frame. -/
def sentMs (cfg : Config) (i : Pass) : Option ℚ :=
  i.encode.bind fun ef =>
    if i.captured = true ∧ Sendable cfg ef ∧ i.sent = true then some i.sendMs else none

/-- The send times of passes. -/
def sendTimes (cfg : Config) (is : List Pass) : List ℚ := is.filterMap (sentMs cfg)

/-- The resize that a pass asks for, if any, succeeds. -/
def Resizes (cfg : Config) (s : Loop) (i : Pass) : Prop :=
  i.captured = true → CallsResize cfg s → i.resize = true

instance (cfg : Config) (s : Loop) (i : Pass) : Decidable (Resizes cfg s i) :=
  inferInstanceAs (Decidable (_ → _ → _))

/-- The size of the pictures at a step. -/
def Config.stepSize (cfg : Config) (idx : Nat) : Size :=
  if 0 < idx then cfg.scaledSize idx else cfg.native

@[simp] theorem stepSize_zero (cfg : Config) : cfg.stepSize 0 = cfg.native := rfl

theorem stepSize_of_pos {cfg : Config} {idx : Nat} (h : 0 < idx) :
    cfg.stepSize idx = cfg.scaledSize idx := if_pos h

/-! ## one pass -/

/-- Without a failed resize the adaptation leaves the controller alone, and the current
size is the step's. -/
theorem adapt_control {cfg : Config} (hadaptive : cfg.adaptive = true) {s : Loop} {i : Pass}
    (hcap : i.captured = true) (hresize : Resizes cfg s i) :
    (adapt cfg s i).2.1.control = s.control ∧
      (adapt cfg s i).2.1.cur = cfg.stepSize s.scaleIdx := by
  have hcalls := hresize hcap
  unfold CallsResize at hcalls
  unfold adapt resizeToStep Config.stepSize
  by_cases hidx : 0 < s.scaleIdx
  · simp only [hadaptive, hidx, and_self, if_true, true_and] at hcalls ⊢
    by_cases hsize : cfg.scaledSize s.scaleIdx = s.cur
    · simp only [hsize, ne_eq, not_true_eq_false, if_false]
      exact ⟨rfl, trivial⟩
    · simp only [ne_eq, hsize, not_false_eq_true, if_true, hcalls hsize]
      exact ⟨rfl, trivial⟩
  · have hzero : s.scaleIdx = 0 := by omega
    rw [if_neg hidx] at hcalls
    rw [if_neg (fun h => hidx h.2), if_neg hidx]
    by_cases hcur : s.cur = cfg.native
    · rw [if_neg (fun h => h.2.2 hcur)]
      exact ⟨rfl, hcur⟩
    · rw [if_pos ⟨hadaptive, hzero, hcur⟩, if_pos (hcalls ⟨hadaptive, hcur⟩)]
      exact ⟨rfl, rfl⟩

/-- Encoding and sending give the controller at most one sample. -/
theorem encodeAndSend_control {cfg : Config} (hadaptive : cfg.adaptive = true) (s : Loop)
    (texture : Size) {i : Pass} (hcap : i.captured = true) :
    (encodeAndSend cfg s texture i).1.control =
      (sentMs cfg i).toList.foldl sendControl.step s.control := by
  unfold encodeAndSend sentMs
  cases i.encode with
  | none => rfl
  | some ef =>
      by_cases hsend : Sendable cfg ef
      · simp only [messageOf, hsend, if_true, Option.bind_some, hcap, true_and]
        cases i.sent with
        | true => exact control_congestion hadaptive _ _
        | false => rfl
      · simp only [messageOf, hsend, if_false, Option.bind_some, false_and, and_false]
        rfl

/-- The drain does not touch the controller. -/
theorem drain_control (s : Loop) (ms : List Message) : (drain s ms).1.control = s.control := by
  induction ms generalizing s with
  | nil => rfl
  | cons m ms ih =>
      have hone : (handleInbound s m).1.control = s.control := by
        unfold handleInbound
        cases dispatch m.1 m.2 <;> rfl
      exact (ih _).trans hone

theorem sentMs_of_not_captured {cfg : Config} {i : Pass} (hcap : i.captured = false) :
    sentMs cfg i = none := by
  unfold sentMs
  cases i.encode <;> simp [hcap]

/-- A pass gives the controller at most one sample. -/
theorem pass_control {cfg : Config} (hadaptive : cfg.adaptive = true) {s : Loop} {i : Pass}
    (hresize : Resizes cfg s i) :
    (pass cfg s i).1.control = (sentMs cfg i).toList.foldl sendControl.step s.control := by
  have hvideo : (video cfg s i).1.control =
      (sentMs cfg i).toList.foldl sendControl.step s.control := by
    unfold video
    cases hcap : i.captured with
    | false => simp [sentMs_of_not_captured hcap]
    | true =>
        have hadapt := (adapt_control hadaptive hcap hresize).1
        rw [← hadapt]
        exact encodeAndSend_control hadaptive _ _ hcap
  unfold pass
  generalize video cfg s i = r at hvideo
  obtain ⟨s₁, log⟩ := r
  dsimp only at hvideo ⊢
  split
  · exact hvideo
  · exact (drain_control s₁ i.inbound).trans hvideo

/-- The message of a pass announces the size of the current step. -/
theorem pass_display {cfg : Config} (hadaptive : cfg.adaptive = true) {s : Loop} {i : Pass}
    (hresize : Resizes cfg s i) :
    ∀ v ∈ videosOf (pass cfg s i).2, v.display = cfg.stepSize s.scaleIdx := by
  intro v hv
  rw [videosOf_pass] at hv
  cases hcap : i.captured with
  | false => simp [hcap] at hv
  | true =>
      rw [if_pos hcap, Option.mem_toList] at hv
      rw [messageOf_display hv]
      exact (adapt_control hadaptive hcap hresize).2

/-! ## whole runs -/

theorem sendTimes_cons (cfg : Config) (i : Pass) (is : List Pass) :
    sendTimes cfg (i :: is) = (sentMs cfg i).toList ++ sendTimes cfg is := by
  unfold sendTimes
  rw [List.filterMap_cons]
  cases sentMs cfg i <;> rfl

/-- The send times so far are send times of the whole. -/
theorem mem_sendTimes {cfg : Config} {is js : List Pass} {ts : List ℚ} {t : ℚ}
    (hts : ts <+: sendTimes cfg js) (ht : t ∈ sendTimes cfg is ++ ts) :
    t ∈ sendTimes cfg (is ++ js) := by
  rw [sendTimes, List.filterMap_append]
  exact ((List.prefix_append_right_inj _).mpr hts).subset ht

/-- **The loop's controller.**  While no resize fails, a run is what the controller makes
of its send times. -/
theorem control_run {cfg : Config} (hadaptive : cfg.adaptive = true) {is : List Pass}
    {s s' : Loop} {tr : List LoopEvent} (hrun : (mainLoop cfg).run s is = some (s', tr))
    (hresize : (mainLoop cfg).Along (Resizes cfg) s is) :
    s'.control = (sendTimes cfg is).foldl sendControl.step s.control := by
  induction is generalizing s tr with
  | nil =>
      cases hrun
      rfl
  | cons i is ih =>
      obtain ⟨s₁, o, os, hstep, hrest, rfl⟩ := (mainLoop cfg).run_cons hrun
      have hpass := pass_control hadaptive hresize.1
      rw [pass_of_step hstep] at hpass
      rw [ih hrest (hresize.2 s₁ o hstep), hpass, ← List.foldl_append, ← sendTimes_cons]

/-- While the step does not change, neither do the sizes announced. -/
theorem display_run {cfg : Config} (hadaptive : cfg.adaptive = true) {is : List Pass} {idx : Nat}
    {s s' : Loop} {tr : List LoopEvent} (hrun : (mainLoop cfg).run s is = some (s', tr))
    (hresize : (mainLoop cfg).Along (Resizes cfg) s is)
    (hstays : ∀ ts, ts <+: sendTimes cfg is →
      (ts.foldl sendControl.step s.control).level = idx) :
    ∀ v ∈ videosOf tr, v.display = cfg.stepSize idx := by
  induction is generalizing s tr with
  | nil =>
      cases hrun
      exact nofun
  | cons i is ih =>
      obtain ⟨s₁, o, os, hstep, hrest, rfl⟩ := (mainLoop cfg).run_cons hrun
      have hpass := pass_control hadaptive hresize.1
      have hdisplay := pass_display hadaptive hresize.1
      rw [pass_of_step hstep] at hpass hdisplay
      rw [sendTimes_cons] at hstays
      rw [videosOf_append, List.forall_mem_append]
      constructor
      · rwa [show s.scaleIdx = idx from hstays [] List.nil_prefix] at hdisplay
      · refine ih hrest (hresize.2 s₁ o hstep) fun ts hts => ?_
        rw [hpass, ← List.foldl_append]
        exact hstays _ ((List.prefix_append_right_inj _).mpr hts)

/-- No pass takes the step past the last one. -/
theorem pass_level_le {cfg : Config} (hadaptive : cfg.adaptive = true) {s : Loop}
    (h : s.scaleIdx ≤ sendControl.top) (i : Pass) :
    (pass cfg s i).1.scaleIdx ≤ sendControl.top := by
  have hadapt : (adapt cfg s i).2.1.scaleIdx ≤ sendControl.top := by
    rcases (adapt_cases hadaptive s i).2.2 with ⟨-, -, -, -, hidx⟩ | ⟨hidx, -⟩ <;> omega
  have hvideo : (video cfg s i).1.control.level ≤ sendControl.top := by
    unfold video
    cases hcap : i.captured with
    | false => exact h
    | true =>
        rw [if_pos rfl]
        dsimp only
        rw [encodeAndSend_control hadaptive _ _ hcap]
        exact Hysteresis.level_foldl_le hadapt _
  unfold pass
  generalize video cfg s i = r at hvideo
  obtain ⟨s₁, log⟩ := r
  dsimp only at hvideo ⊢
  split
  · exact hvideo
  · exact (congrArg Hysteresis.State.level (drain_control s₁ i.inbound)).trans_le hvideo

/-- No run takes the scale above the top of the ladder. -/
theorem run_level_le {cfg : Config} (hadaptive : cfg.adaptive = true) {is : List Pass} {s : Loop}
    {tr : List LoopEvent} (hrun : (mainLoop cfg).run cfg.entry is = some (s, tr)) :
    s.scaleIdx ≤ sendControl.top := by
  have hentry : cfg.entry.scaleIdx ≤ sendControl.top := Nat.zero_le _
  refine @(mainLoop cfg).state_invariant _ _ _ (fun s => s.scaleIdx ≤ sendControl.top)
    (fun s i s' o h hstep => ?_) is cfg.entry s tr hentry hrun
  have hpass := pass_level_le hadaptive h i
  rwa [pass_of_step hstep] at hpass

/-- A pass whose resize would succeed, again and again. -/
theorem resizes_replicate {cfg : Config} {i : Pass} (hi : i.resize = true) (n : Nat) (s : Loop) :
    (mainLoop cfg).Along (Resizes cfg) s (List.replicate n i) := by
  refine (mainLoop cfg).along_mono (fun _ _ h _ _ => h) ((mainLoop cfg).along_of_forall ?_ s)
  intro j hj
  rw [List.eq_of_mem_replicate hj, hi]

section Regimes

/- A run in three parts; after the first one no resize fails. -/
variable {cfg : Config} (hadaptive : cfg.adaptive = true) {before is js : List Pass}
  {s s₁ s₂ : Loop} {tr tr₁ tr₂ : List LoopEvent}
  (hbefore : (mainLoop cfg).run cfg.entry before = some (s, tr))
  (his : (mainLoop cfg).run s is = some (s₁, tr₁))
  (hresize : (mainLoop cfg).Along (Resizes cfg) s is)
  (hjs : (mainLoop cfg).run s₁ js = some (s₂, tr₂))
  (hresize' : (mainLoop cfg).Along (Resizes cfg) s₁ js)

include hadaptive his hresize hjs hresize' in
/-- A step that the controller keeps from the second part on. -/
theorem regime {idx : Nat}
    (hstays : ∀ ts, ts <+: sendTimes cfg js →
      ((sendTimes cfg is ++ ts).foldl sendControl.step s.control).level = idx) :
    s₁.scaleIdx = idx ∧ ∀ v ∈ videosOf tr₂, v.display = cfg.stepSize idx := by
  have hcontrol := control_run hadaptive his hresize
  simp only [List.foldl_append, ← hcontrol] at hstays
  exact ⟨hstays [] List.nil_prefix, display_run hadaptive hjs hresize' hstays⟩

include hadaptive hbefore his hresize hjs hresize' in
/-- **A slow link.**  When from some point of a run on every frame takes `m` ms or more to send,
and no resize fails, then after the frames that make the average forget what it was, and 45 for
each step, the pictures have the smallest size, and keep it.  Send times and the average are
exact rationals. -/
theorem scale_saturates {m : ℚ} {n : Nat}
    (hm : kSendUpMs < m - (9 / 10) ^ n * max 0 (m - s.avgSendMs))
    (hslow : ∀ t ∈ sendTimes cfg (is ++ js), m ≤ t)
    (hlen : n + (kScaleCount - 1) * kSendUpFrames ≤ (sendTimes cfg is).length) :
    s₁.scaleIdx = kScaleCount - 1 ∧
      ∀ v ∈ videosOf tr₂, v.display = cfg.scaledSize (kScaleCount - 1) := by
  have hlevel := run_level_le hadaptive hbefore
  rw [← @stepSize_of_pos cfg (kScaleCount - 1) (by decide)]
  refine regime hadaptive his hresize hjs hresize' fun ts hts => ?_
  have htop := @Hysteresis.level_eq_top ℚ _ _ sendControl s.control _ m n hm hlevel
    (sendTimes cfg is ++ ts)
  refine htop (fun t ht => hslow t (mem_sendTimes hts ht)) ?_
  rw [List.length_append]
  exact hlen.trans (Nat.le_add_right _ _)

/-- Frames of 20 ms. -/
theorem scale_saturates_slowPass :
    ∃ s tr, (mainLoop fullHd).run fullHd.entry (List.replicate 157 slowPass) = some (s, tr) ∧
      s.scaleIdx = 3 := by
  have hrun : ((mainLoop fullHd).run fullHd.entry (List.replicate 157 slowPass)).isSome = true := by
    decide +kernel
  obtain ⟨⟨s, tr⟩, hrun⟩ := Option.isSome_iff_exists.mp hrun
  refine ⟨s, tr, hrun, ?_⟩
  refine (@scale_saturates fullHd rfl [] (List.replicate 157 slowPass) [] _ s s [] tr [] rfl hrun
    (resizes_replicate rfl _ _) rfl trivial 20 22 ?_ ?_ ?_).1
  · norm_num [kSendUpMs, Config.entry]
  · decide +kernel
  · decide +kernel

include hadaptive hbefore his hresize hjs hresize' in
/-- **A fast link.**  When from some point of a run on every frame takes `m` ms or less to send,
and no resize fails, then after the frames that make the average forget what it was, and 150 for
each step, the pictures have the native size, and keep it.  Send times and the average are
exact rationals. -/
theorem scale_recovers {m : ℚ} {n : Nat}
    (hm : m + (9 / 10) ^ n * max 0 (s.avgSendMs - m) < kSendDownMs)
    (hfast : ∀ t ∈ sendTimes cfg (is ++ js), t ≤ m)
    (hlen : n + (kScaleCount - 1) * kSendDownFrames ≤ (sendTimes cfg is).length) :
    s₁.scaleIdx = 0 ∧ ∀ v ∈ videosOf tr₂, v.display = cfg.native := by
  have hlevel := run_level_le hadaptive hbefore
  rw [← stepSize_zero]
  refine regime hadaptive his hresize hjs hresize' fun ts hts => ?_
  have hzero := @Hysteresis.level_eq_zero ℚ _ _ sendControl s.control _ m n hm hlevel
    (sendTimes cfg is ++ ts)
  refine hzero (fun t ht => hfast t (mem_sendTimes hts ht)) ?_
  rw [List.length_append]
  exact hlen.trans (Nat.le_add_right _ _)

/-- Frames of 1 ms after 45 of 20 ms. -/
theorem scale_recovers_slowPass :
    ∃ s tr s₁ tr₁, (mainLoop fullHd).run fullHd.entry (List.replicate 45 slowPass) = some (s, tr) ∧
      (mainLoop fullHd).run s (List.replicate 463 { slowPass with sendMs := 1 }) =
        some (s₁, tr₁) ∧
      s.scaleIdx = 1 ∧ s₁.scaleIdx = 0 := by
  have hrun : ((mainLoop fullHd).run fullHd.entry (List.replicate 45 slowPass)).map (fun r =>
      (r.1.scaleIdx, r.1.avgSendMs, ((mainLoop fullHd).run r.1
        (List.replicate 463 { slowPass with sendMs := 1 })).isSome)) = some (1, 20, true) := by
    decide +kernel
  obtain ⟨⟨s, tr⟩, hrun, hat⟩ := Option.map_eq_some_iff.mp hrun
  simp only [Prod.mk.injEq] at hat
  obtain ⟨hidx, havg, hrun₁⟩ := hat
  obtain ⟨⟨s₁, tr₁⟩, hrun₁⟩ := Option.isSome_iff_exists.mp hrun₁
  refine ⟨s, tr, s₁, tr₁, hrun, hrun₁, hidx, ?_⟩
  refine (@scale_recovers fullHd rfl (List.replicate 45 slowPass) _ [] s s₁ s₁ tr tr₁ [] hrun hrun₁
    (resizes_replicate rfl _ _) rfl trivial 1 13 ?_ ?_ ?_).1
  · rw [havg]
    norm_num [kSendDownMs]
  · decide +kernel
  · decide +kernel

include hadaptive his hresize hjs hresize' in
/-- **A link in between.**  When from some point of a run on every frame takes between `l` and `h`
ms to send, and no resize fails, then once the frames have made the average forget what it was, no
step is taken any more.  Send times and the average are exact rationals. -/
theorem scale_rests {l h : ℚ}
    (hlow : kSendDownMs ≤ l - (9 / 10) ^ (sendTimes cfg is).length * max 0 (l - s.avgSendMs))
    (hhigh : h + (9 / 10) ^ (sendTimes cfg is).length * max 0 (s.avgSendMs - h) ≤ kSendUpMs)
    (hbetween : ∀ t ∈ sendTimes cfg (is ++ js), l ≤ t ∧ t ≤ h) :
    s₂.scaleIdx = s₁.scaleIdx ∧ ∀ v ∈ videosOf tr₂, v.display = cfg.stepSize s₁.scaleIdx := by
  have hrests : ∀ ts, ts <+: sendTimes cfg js →
      ((sendTimes cfg is ++ ts).foldl sendControl.step s.control).level = s₁.scaleIdx := by
    intro ts hts
    rw [show s₁.scaleIdx = s₁.control.level from rfl, control_run hadaptive his hresize]
    exact Hysteresis.level_foldl_append (p := sendControl) hlow hhigh fun t ht =>
      hbetween t (mem_sendTimes hts ht)
  refine ⟨?_, (regime hadaptive his hresize hjs hresize' hrests).2⟩
  show s₂.control.level = s₁.scaleIdx
  rw [control_run hadaptive hjs hresize', control_run hadaptive his hresize, ← List.foldl_append]
  exact hrests _ (List.prefix_refl _)

/-- Frames of 10 ms after 45 of 20 ms. -/
theorem scale_rests_slowPass :
    ∃ s tr s₁ tr₁ s₂ tr₂,
      (mainLoop fullHd).run fullHd.entry (List.replicate 45 slowPass) = some (s, tr) ∧
      (mainLoop fullHd).run s (List.replicate 3 { slowPass with sendMs := 10 }) = some (s₁, tr₁) ∧
      (mainLoop fullHd).run s₁ (List.replicate 60 { slowPass with sendMs := 10 }) =
        some (s₂, tr₂) ∧
      s₂.scaleIdx = s₁.scaleIdx := by
  have hrun : ((mainLoop fullHd).run fullHd.entry (List.replicate 45 slowPass)).map (fun r =>
      (r.1.avgSendMs, ((mainLoop fullHd).run r.1
        (List.replicate 3 { slowPass with sendMs := 10 })).map fun r => ((mainLoop fullHd).run r.1
          (List.replicate 60 { slowPass with sendMs := 10 })).isSome)) = some (20, some true) := by
    decide +kernel
  obtain ⟨⟨s, tr⟩, hrun, hat⟩ := Option.map_eq_some_iff.mp hrun
  simp only [Prod.mk.injEq] at hat
  obtain ⟨havg, hrun₁⟩ := hat
  obtain ⟨⟨s₁, tr₁⟩, hrun₁, hrun₂⟩ := Option.map_eq_some_iff.mp hrun₁
  obtain ⟨⟨s₂, tr₂⟩, hrun₂⟩ := Option.isSome_iff_exists.mp hrun₂
  refine ⟨s, tr, s₁, tr₁, s₂, tr₂, hrun, hrun₁, hrun₂, ?_⟩
  have htimes :
      (sendTimes fullHd (List.replicate 3 { slowPass with sendMs := 10 })).length = 3 := by
    decide +kernel
  refine (@scale_rests fullHd rfl _ _ s s₁ s₂ tr₁ tr₂ hrun₁ (resizes_replicate rfl _ _) hrun₂
    (resizes_replicate rfl _ _) 10 10 ?_ ?_ ?_).1
  · rw [htimes, havg]
    norm_num [kSendDownMs]
  · rw [htimes, havg]
    norm_num [kSendUpMs]
  · decide +kernel

end Regimes

end TwinScreen.Host
