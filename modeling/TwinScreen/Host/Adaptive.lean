import TwinScreen.Host.MainLoop

/-!
# TwinScreen.Host.Adaptive

The adaptive-resolution controller over whole runs of the main loop: what moves
`scaleIdx`.  A run is watched through the averages that sent frames leave, the
`Resize` calls that fail, and the changes of `scaleIdx` themselves.

* `congestion_cases` — what the controller does with a sent frame.
* `adapt_cases` — what the adaptation does to `scaleIdx`; a failed resize comes
  before any frame of the new step, so no streak outlives it.
* `scale_moves` — every change of `scaleIdx` is one step, after the due number of
  frames since the change before, or the reset after a failed resize.
-/

namespace TwinScreen.Host

open Lib

/-! ## what is seen of the controller -/

/-- What is seen of the controller. -/
inductive ScaleEvent
  /-- A `Resize` returned false. -/
  | resizeFailed
  /-- A video frame was sent, and left this average. -/
  | sent (avgSendMs : ℚ)
  /-- `scaleIdx` changed. -/
  | moved (old new : Nat)
  deriving DecidableEq

/-- The change between two points of a pass, if there is one. -/
def moves (old new : Nat) : List ScaleEvent := if old = new then [] else [.moved old new]

/-- The adaptation calls `Resize`. -/
def CallsResize (cfg : Config) (s : Loop) : Prop :=
  cfg.adaptive = true ∧
    if 0 < s.scaleIdx then cfg.scaledSize s.scaleIdx ≠ s.cur else s.cur ≠ cfg.native

instance (cfg : Config) (s : Loop) : Decidable (CallsResize cfg s) :=
  inferInstanceAs (Decidable (_ ∧ _))

/-- The adaptation of a pass. -/
def observeAdapt (cfg : Config) (s : Loop) (i : Pass) : List ScaleEvent :=
  (if CallsResize cfg s ∧ i.resize = false then [.resizeFailed] else []) ++
    moves s.scaleIdx (adapt cfg s i).2.1.scaleIdx

/-- The encoding and sending of a pass. -/
def observeSend (cfg : Config) (s : Loop) (texture : Size) (i : Pass) : List ScaleEvent :=
  let s' := (encodeAndSend cfg s texture i).1
  (if (messageOf cfg s i.encode).isSome ∧ i.sent = true then [.sent s'.avgSendMs] else []) ++
    moves s.scaleIdx s'.scaleIdx

/-- A pass, watched between its parts. -/
def observe (cfg : Config) (s : Loop) (i : Pass) : List ScaleEvent :=
  (if i.captured then
    observeAdapt cfg s i ++ observeSend cfg (adapt cfg s i).2.1 (adapt cfg s i).1 i
  else
    []) ++ moves (video cfg s i).1.scaleIdx (pass cfg s i).1.scaleIdx

/-- The main loop, watched. -/
def controller (cfg : Config) : Machine Loop Pass ScaleEvent where
  step s i := ((mainLoop cfg).step s i).map fun (s', _) => (s', observe cfg s i)

/-- The averages left by the frames sent since the last change, the latest first. -/
def sentSince (tr : List ScaleEvent) : List ℚ :=
  tr.foldl (fun avgs e =>
    match e with
    | .resizeFailed => avgs
    | .sent avg => avg :: avgs
    | .moved _ _ => []) []

/-- `scaleIdx` as the changes leave it. -/
def scaleAfter (tr : List ScaleEvent) : Nat :=
  tr.foldl (fun idx e =>
    match e with
    | .moved _ new => new
    | _ => idx) 0

/-- The latest `n` averages have a property. -/
def Streak (P : ℚ → Prop) (n : Nat) (avgs : List ℚ) : Prop :=
  n ≤ avgs.length ∧ ∀ avg ∈ avgs.take n, P avg

/-- What a change of `scaleIdx` comes after: the frames of a streak, all of them sent
since the change before, or a resize that failed. -/
def ScaleLaw (before : List ScaleEvent) : ScaleEvent → Prop
  | .moved old new =>
      old = scaleAfter before ∧ new < kScaleCount ∧
        ((new = old + 1 ∧ Streak (fun avg => kSendUpMs < avg) kSendUpFrames (sentSince before)) ∨
          (old = new + 1 ∧
            Streak (fun avg => avg < kSendDownMs) kSendDownFrames (sentSince before)) ∨
          (new = 0 ∧ before.getLast? = some .resizeFailed))
  | _ => True

/-! ## streaks -/

theorem streak_zero (P : ℚ → Prop) (avgs : List ℚ) : Streak P 0 avgs := by
  simp [Streak]

theorem Streak.cons {P : ℚ → Prop} {n : Nat} {avgs : List ℚ} (h : Streak P n avgs) {avg : ℚ}
    (havg : P avg) : Streak P (n + 1) (avg :: avgs) := by
  obtain ⟨hlen, hall⟩ := h
  rw [Streak, List.take_succ_cons, List.forall_mem_cons, List.length_cons]
  exact ⟨by omega, havg, hall⟩

theorem Streak.mono {P : ℚ → Prop} {m n : Nat} {avgs : List ℚ} (h : Streak P n avgs)
    (hle : m ≤ n) : Streak P m avgs := by
  obtain ⟨hlen, hall⟩ := h
  refine ⟨by omega, fun avg hmem => hall avg ?_⟩
  exact (List.take_prefix_take_left hle).subset hmem

theorem Streak.eq_zero {P : ℚ → Prop} {n : Nat} (h : Streak P n []) : n = 0 :=
  Nat.le_zero.mp h.1

@[simp] theorem sentSince_concat (tr : List ScaleEvent) (e : ScaleEvent) :
    sentSince (tr ++ [e]) =
      match e with
      | .resizeFailed => sentSince tr
      | .sent avg => avg :: sentSince tr
      | .moved _ _ => [] := by
  rw [sentSince, List.foldl_append]
  rfl

@[simp] theorem scaleAfter_concat (tr : List ScaleEvent) (e : ScaleEvent) :
    scaleAfter (tr ++ [e]) =
      match e with
      | .moved _ new => new
      | _ => scaleAfter tr := by
  rw [scaleAfter, List.foldl_append]
  rfl

/-! ## the parts of a pass -/

/-- What the controller does with a sent frame: it goes up a step, down a step, or
counts on. -/
theorem congestion_cases {cfg : Config} (hadaptive : cfg.adaptive = true) (s : Loop)
    (sendMs : ℚ) :
    let avg := smoothed s.avgSendMs sendMs
    let s' := congestion cfg s sendMs
    s'.avgSendMs = avg ∧ s'.cur = s.cur ∧
      ((s'.scaleIdx = s.scaleIdx + 1 ∧ s'.scaleIdx < kScaleCount ∧ kSendUpMs < avg ∧
          kSendUpFrames ≤ s.sendUpStreak + 1 ∧ s'.sendUpStreak = 0 ∧ s'.sendDownStreak = 0) ∨
        (s.scaleIdx = s'.scaleIdx + 1 ∧ avg < kSendDownMs ∧
          kSendDownFrames ≤ s.sendDownStreak + 1 ∧ s'.sendUpStreak = 0 ∧ s'.sendDownStreak = 0) ∨
        (s'.scaleIdx = s.scaleIdx ∧ (s'.sendUpStreak, s'.sendDownStreak) = streaks s avg)) := by
  have hdown0 : ¬ kSendDownFrames ≤ 0 := by decide
  have hup0 : ¬ kSendUpFrames ≤ 0 := by decide
  simp only [congestion, hadaptive, Bool.true_eq_false, if_false, streaks]
  generalize smoothed s.avgSendMs sendMs = avg
  by_cases hup : kSendUpMs < avg
  · -- congested: the streak of clear frames ends
    simp only [hup, if_true, hdown0, false_and, if_false]
    by_cases hmove : kSendUpFrames ≤ s.sendUpStreak + 1 ∧ s.scaleIdx < kScaleCount - 1
    · rw [if_pos hmove]
      exact ⟨rfl, rfl, .inl ⟨rfl, by show s.scaleIdx + 1 < _; omega, trivial, hmove.1, rfl, rfl⟩⟩
    · rw [if_neg hmove]
      exact ⟨rfl, rfl, .inr (.inr ⟨rfl, rfl⟩)⟩
  · by_cases hdown : avg < kSendDownMs
    · -- clear: the streak of congested frames ends
      simp only [hup, hdown, if_true, if_false, hup0, false_and]
      by_cases hmove : kSendDownFrames ≤ s.sendDownStreak + 1 ∧ 0 < s.scaleIdx
      · rw [if_pos hmove]
        exact ⟨rfl, rfl, .inr (.inl ⟨by show s.scaleIdx = s.scaleIdx - 1 + 1; omega, trivial,
          hmove.1, rfl, rfl⟩)⟩
      · rw [if_neg hmove]
        exact ⟨rfl, rfl, .inr (.inr ⟨rfl, rfl⟩)⟩
    · simp [hup, hdown, hup0, hdown0]

/-- What the adaptation does to `scaleIdx`: it resets it after a failed resize, before
any frame of the new step, or leaves it, and then the step's size is the current one. -/
theorem adapt_cases {cfg : Config} (hadaptive : cfg.adaptive = true) (s : Loop) (i : Pass) :
    let s' := (adapt cfg s i).2.1
    s'.sendUpStreak = s.sendUpStreak ∧ s'.sendDownStreak = s.sendDownStreak ∧
      ((CallsResize cfg s ∧ i.resize = false ∧ 0 < s.scaleIdx ∧
          cfg.scaledSize s.scaleIdx ≠ s.cur ∧ s'.scaleIdx = 0) ∨
        (s'.scaleIdx = s.scaleIdx ∧ (0 < s.scaleIdx → cfg.scaledSize s.scaleIdx = s'.cur))) := by
  unfold adapt resizeToStep CallsResize
  by_cases hidx : 0 < s.scaleIdx
  · simp only [hadaptive, hidx, and_self, if_true, true_and, forall_const]
    by_cases hsize : cfg.scaledSize s.scaleIdx = s.cur
    · simp [hsize]
    · cases hresize : i.resize with
      | true => simp [hsize]
      | false => simp [hsize]
  · have hzero : s.scaleIdx = 0 := by omega
    simp only [hadaptive, hzero, true_and]
    by_cases hcur : s.cur = cfg.native
    · simp [hcur, hzero]
    · cases hresize : i.resize with
      | true => simp [hcur]
      | false => simp [hcur, hzero]

/-! ## the invariant -/

/-- The streaks count frames sent since the last change, and while a resize to the
current step is due there are none. -/
structure Tracked (cfg : Config) (s : Loop) (tr : List ScaleEvent) : Prop where
  idx : s.scaleIdx = scaleAfter tr ∧ s.scaleIdx < kScaleCount
  up : Streak (fun avg => kSendUpMs < avg) s.sendUpStreak (sentSince tr)
  down : Streak (fun avg => avg < kSendDownMs) s.sendDownStreak (sentSince tr)
  due : 0 < s.scaleIdx → cfg.scaledSize s.scaleIdx ≠ s.cur → sentSince tr = []
  each : Each ScaleLaw tr

/-- No resize is due. -/
def Settled (cfg : Config) (s : Loop) : Prop :=
  0 < s.scaleIdx → cfg.scaledSize s.scaleIdx = s.cur

variable {cfg : Config} {s s' : Loop} {tr : List ScaleEvent}

/-- A failed resize alone changes nothing. -/
theorem Tracked.resizeFailed (h : Tracked cfg s tr) : Tracked cfg s (tr ++ [.resizeFailed]) where
  idx := by simpa using h.idx
  up := by simpa using h.up
  down := by simpa using h.down
  due := by simpa using h.due
  each := (each_concat tr _).mpr ⟨h.each, trivial⟩

/-- A lawful change starts new streaks. -/
theorem Tracked.moved (h : Tracked cfg s tr) (hlaw : ScaleLaw tr (.moved s.scaleIdx s'.scaleIdx))
    (hup : s'.sendUpStreak = 0) (hdown : s'.sendDownStreak = 0) :
    Tracked cfg s' (tr ++ [.moved s.scaleIdx s'.scaleIdx]) where
  idx := ⟨by simp, hlaw.2.1⟩
  up := by rw [hup]; exact streak_zero _ _
  down := by rw [hdown]; exact streak_zero _ _
  due _ _ := by simp
  each := (each_concat tr _).mpr ⟨h.each, hlaw⟩

/-- Parts that leave the controller's numbers alone. -/
theorem Tracked.of_same (h : Tracked cfg s tr) (hidx : s'.scaleIdx = s.scaleIdx)
    (hup : s'.sendUpStreak = s.sendUpStreak) (hdown : s'.sendDownStreak = s.sendDownStreak)
    (hdue : 0 < s.scaleIdx → cfg.scaledSize s.scaleIdx ≠ s'.cur → sentSince tr = []) :
    Tracked cfg s' tr where
  idx := by rw [hidx]; exact h.idx
  up := by rw [hup]; exact h.up
  down := by rw [hdown]; exact h.down
  due := by rw [hidx]; exact hdue
  each := h.each

/-- The adaptation keeps the invariant and leaves no resize due. -/
theorem Tracked.adapt (h : Tracked cfg s tr) (hadaptive : cfg.adaptive = true) (i : Pass) :
    Tracked cfg (adapt cfg s i).2.1 (tr ++ observeAdapt cfg s i) ∧
      Settled cfg (adapt cfg s i).2.1 := by
  obtain ⟨hup, hdown, hcases⟩ := adapt_cases hadaptive s i
  rw [observeAdapt]
  generalize (Host.adapt cfg s i).2.1 = s₁ at hup hdown hcases ⊢
  rcases hcases with ⟨hcalls, hfails, hpos, hsize, hzero⟩ | ⟨hidx, hsize⟩
  · -- a resize was due, so no frame has been sent since the last change
    have hnone := h.due hpos hsize
    have hup0 : s.sendUpStreak = 0 := Streak.eq_zero (hnone ▸ h.up)
    have hdown0 : s.sendDownStreak = 0 := Streak.eq_zero (hnone ▸ h.down)
    have hlaw : ScaleLaw (tr ++ [.resizeFailed]) (.moved s.scaleIdx s₁.scaleIdx) := by
      refine ⟨by simpa using h.idx.1, by rw [hzero]; decide, .inr (.inr ⟨hzero, ?_⟩)⟩
      rw [List.getLast?_concat]
    have hmoved := h.resizeFailed.moved hlaw (hup.trans hup0) (hdown.trans hdown0)
    rw [if_pos ⟨hcalls, hfails⟩, moves, if_neg (by omega), ← List.append_assoc]
    exact ⟨hmoved, fun hpos' => absurd hpos' (by omega)⟩
  · rw [hidx, moves, if_pos rfl, List.append_nil]
    have hsettled : Settled cfg s₁ := by
      rw [Settled, hidx]
      exact hsize
    refine ⟨?_, hsettled⟩
    have hsame : Tracked cfg s₁ tr :=
      h.of_same hidx hup hdown fun hpos hne => absurd (hsize hpos) hne
    split
    · exact hsame.resizeFailed
    · rwa [List.append_nil]

/-- Whatever is counted, the frame is one of those sent since the last change. -/
theorem Tracked.sent (h : Tracked cfg s tr) (hsettled : Settled cfg s) {avg : ℚ}
    (hidx : s'.scaleIdx = s.scaleIdx) (hcur : s'.cur = s.cur)
    (hup : Streak (fun avg => kSendUpMs < avg) s'.sendUpStreak (avg :: sentSince tr))
    (hdown : Streak (fun avg => avg < kSendDownMs) s'.sendDownStreak (avg :: sentSince tr)) :
    Tracked cfg s' (tr ++ [.sent avg]) where
  idx := by simpa [hidx] using h.idx
  up := by simpa using hup
  down := by simpa using hdown
  due := by
    rw [hidx, hcur]
    exact fun hpos hne => absurd (hsettled hpos) hne
  each := (each_concat tr _).mpr ⟨h.each, trivial⟩

/-- A sent frame keeps the invariant: the streaks grow with the frames sent, and a
change comes at the end of one. -/
theorem Tracked.congestion (h : Tracked cfg s tr) (hsettled : Settled cfg s)
    (hadaptive : cfg.adaptive = true) (sendMs : ℚ) :
    Tracked cfg (congestion cfg s sendMs)
      (tr ++ .sent (congestion cfg s sendMs).avgSendMs ::
        moves s.scaleIdx (congestion cfg s sendMs).scaleIdx) := by
  obtain ⟨havg, hcur, hcases⟩ := congestion_cases hadaptive s sendMs
  generalize smoothed s.avgSendMs sendMs = avg at havg hcases
  generalize Host.congestion cfg s sendMs = s₁ at havg hcur hcases ⊢
  rw [havg, List.append_cons]
  have hframes : sentSince (tr ++ [.sent avg]) = avg :: sentSince tr := by simp
  have hindex : s.scaleIdx = scaleAfter (tr ++ [.sent avg]) := by simpa using h.idx.1
  have hreset : Tracked cfg { s with sendUpStreak := 0, sendDownStreak := 0 } (tr ++ [.sent avg]) :=
    h.sent hsettled rfl rfl (streak_zero _ _) (streak_zero _ _)
  rcases hcases with ⟨hnew, hlt, hms, hle, hup, hdown⟩ | ⟨hold, hms, hle, hup, hdown⟩ |
    ⟨hidx, hcount⟩
  · rw [moves, if_neg (by omega)]
    refine hreset.moved ⟨hindex, hlt, .inl ⟨hnew, ?_⟩⟩ hup hdown
    rw [hframes]
    exact (h.up.cons hms).mono hle
  · rw [moves, if_neg (by omega)]
    have hlt : s₁.scaleIdx < kScaleCount := by
      have := h.idx.2
      omega
    refine hreset.moved ⟨hindex, hlt, .inr (.inl ⟨hold, ?_⟩)⟩ hup hdown
    rw [hframes]
    exact (h.down.cons hms).mono hle
  · rw [moves, if_pos hidx.symm, List.append_nil]
    have hup0 := streak_zero (fun avg => kSendUpMs < avg) (avg :: sentSince tr)
    have hdown0 := streak_zero (fun avg => avg < kSendDownMs) (avg :: sentSince tr)
    rw [streaks] at hcount
    split at hcount
    · next hms =>
        obtain ⟨hup, hdown⟩ := Prod.mk.inj hcount
        exact h.sent hsettled hidx hcur (hup ▸ h.up.cons hms) (hdown ▸ hdown0)
    · split at hcount
      · next hms =>
          obtain ⟨hup, hdown⟩ := Prod.mk.inj hcount
          exact h.sent hsettled hidx hcur (hup ▸ hup0) (hdown ▸ h.down.cons hms)
      · obtain ⟨hup, hdown⟩ := Prod.mk.inj hcount
        exact h.sent hsettled hidx hcur (hup ▸ hup0) (hdown ▸ hdown0)

/-- The encoding and sending keep the invariant. -/
theorem Tracked.encodeAndSend (h : Tracked cfg s tr) (hsettled : Settled cfg s)
    (hadaptive : cfg.adaptive = true) (texture : Size) (i : Pass) :
    Tracked cfg (encodeAndSend cfg s texture i).1 (tr ++ observeSend cfg s texture i) := by
  rw [observeSend, Host.encodeAndSend]
  cases messageOf cfg s i.encode with
  | none => simpa [moves] using h
  | some m =>
      have hquiet : Tracked cfg { s with keyframePending := false } tr :=
        h.of_same rfl rfl rfl h.due
      cases hsent : i.sent with
      | true =>
          have hcongestion := hquiet.congestion hsettled hadaptive i.sendMs
          simpa using hcongestion
      | false =>
          have hstop : Tracked cfg { s with keyframePending := false, running := false } tr :=
            h.of_same rfl rfl rfl h.due
          simpa [moves] using hstop

/-- The drain does not touch the controller. -/
theorem drain_scale (s : Loop) (ms : List Message) :
    (drain s ms).1.scaleIdx = s.scaleIdx ∧ (drain s ms).1.sendUpStreak = s.sendUpStreak ∧
      (drain s ms).1.sendDownStreak = s.sendDownStreak := by
  induction ms generalizing s with
  | nil => exact ⟨rfl, rfl, rfl⟩
  | cons m ms ih =>
      have hone : (handleInbound s m).1.scaleIdx = s.scaleIdx ∧
          (handleInbound s m).1.sendUpStreak = s.sendUpStreak ∧
          (handleInbound s m).1.sendDownStreak = s.sendDownStreak := by
        unfold handleInbound
        cases dispatch m.1 m.2 <;> exact ⟨rfl, rfl, rfl⟩
      obtain ⟨hidx, hup, hdown⟩ := ih (handleInbound s m).1
      exact ⟨hidx.trans hone.1, hup.trans hone.2.1, hdown.trans hone.2.2⟩

/-- One pass keeps the invariant. -/
theorem Tracked.pass (h : Tracked cfg s tr) (hadaptive : cfg.adaptive = true) (i : Pass) :
    Tracked cfg (pass cfg s i).1 (tr ++ observe cfg s i) := by
  have hvideo : Tracked cfg (video cfg s i).1
      (tr ++ if i.captured then
        observeAdapt cfg s i ++ observeSend cfg (Host.adapt cfg s i).2.1 (Host.adapt cfg s i).1 i
      else []) := by
    rw [video]
    split
    · obtain ⟨hadapt, hsettled⟩ := h.adapt hadaptive i
      rw [← List.append_assoc]
      exact hadapt.encodeAndSend hsettled hadaptive _ i
    · simpa using h
  have hpass : (Host.pass cfg s i).1.scaleIdx = (video cfg s i).1.scaleIdx ∧
      (Host.pass cfg s i).1.sendUpStreak = (video cfg s i).1.sendUpStreak ∧
      (Host.pass cfg s i).1.sendDownStreak = (video cfg s i).1.sendDownStreak ∧
      (Host.pass cfg s i).1.cur = (video cfg s i).1.cur := by
    unfold Host.pass
    generalize video cfg s i = r
    obtain ⟨s₁, log⟩ := r
    dsimp only
    split
    · exact ⟨rfl, rfl, rfl, rfl⟩
    · obtain ⟨hidx, hup, hdown⟩ := drain_scale s₁ i.inbound
      exact ⟨hidx, hup, hdown, (drain_quiet s₁ i.inbound).1.cur⟩
  obtain ⟨hidx, hup, hdown, hcur⟩ := hpass
  rw [observe, hidx, moves, if_pos rfl, List.append_nil]
  exact hvideo.of_same hidx hup hdown (by rw [hcur]; exact hvideo.due)

/-! ## whole runs -/

/-- **What moves the scale.**  In a run of the loop with adaptation on, `scaleIdx`
stays within the steps, and every change of it is a step up after 45 sent frames since
the change before that each left an average above 18 ms, a step down after 150 that
each left one below 6 ms, or the reset to 0 after a failed resize. -/
theorem scale_moves (cfg : Config) (hadaptive : cfg.adaptive = true) (is : List Pass) (s : Loop)
    (tr : List ScaleEvent) (hrun : (controller cfg).run cfg.entry is = some (s, tr)) :
    s.scaleIdx < kScaleCount ∧ s.scaleIdx = scaleAfter tr ∧ Each ScaleLaw tr := by
  have hentry : Tracked cfg cfg.entry [] :=
    { idx := ⟨rfl, show 0 < kScaleCount by decide⟩
      up := streak_zero _ _
      down := streak_zero _ _
      due := fun _ _ => rfl
      each := each_nil }
  have hend := (controller cfg).run_invariant (fun s tr i s' o h _ hstep => ?_) hentry
    ((controller cfg).along_true cfg.entry is) hrun
  · exact ⟨hend.idx.2, hend.idx.1, hend.each⟩
  · obtain ⟨⟨s₁, log⟩, hmain, hpair⟩ := Option.map_eq_some_iff.mp hstep
    cases hpair
    have hpass := h.pass hadaptive i
    rw [pass_of_step hmain] at hpass
    exact hpass

theorem scale_moves_slowPass :
    ∃ s tr, (controller fullHd).run fullHd.entry (List.replicate 45 slowPass) = some (s, tr) ∧
      s.scaleIdx = 1 ∧ Each ScaleLaw tr := by
  have hrun : ((controller fullHd).run fullHd.entry (List.replicate 45 slowPass)).map
      (fun r => r.1.scaleIdx) = some 1 := by decide +kernel
  obtain ⟨⟨s, tr⟩, hrun, hidx⟩ := Option.map_eq_some_iff.mp hrun
  exact ⟨s, tr, hrun, hidx, (scale_moves fullHd rfl _ s tr hrun).2.2⟩

end TwinScreen.Host
