import TwinScreen.Host.Connection

/-!
# TwinScreen.Host.Turns

The turns of a connection are passes of the main loop, on what the server answers.

* `mainLoop_run` — a run of the connection reads and sends what a run of the main loop does.
* `displays_within` — no message announces more than the monitor's size.
-/

namespace TwinScreen.Host

open Lib

/-! ## what is logged -/

/-- The video messages of the loop. -/
def videosOf (log : List LoopEvent) : List VideoMessage :=
  log.filterMap fun
    | .encoded _ _ _ msg => msg
    | _ => none

/-- The messages of a type. -/
def ofType (type : UInt16) (ms : List Message) : List Message := ms.filter (·.1 = type)

@[simp] theorem videosOf_append (log log' : List LoopEvent) :
    videosOf (log ++ log') = videosOf log ++ videosOf log' := List.filterMap_append

@[simp] theorem ofType_append (type : UInt16) (ms ms' : List Message) :
    ofType type (ms ++ ms') = ofType type ms ++ ofType type ms' := List.filter_append ..

theorem Quiet.videosOf_eq_nil {s s' : Loop} {log : List LoopEvent} (h : Quiet s s' log) :
    videosOf log = [] := by
  apply List.filterMap_eq_nil_iff.mpr
  intro o ho
  cases h.events o ho with
  | inl hraises => cases o <;> first | rfl | exact hraises.elim
  | inr hset =>
      obtain ⟨bitrate, rfl⟩ := hset
      rfl

theorem videosOf_video (cfg : Config) (s : Loop) (i : Pass) :
    videosOf (video cfg s i).2 =
      if i.captured then (messageOf cfg (adapt cfg s i).2.1 i.encode).toList else [] := by
  unfold video
  split
  · obtain ⟨-, hlog, -⟩ := encodeAndSend_log cfg (adapt cfg s i).2.1 (adapt cfg s i).1 i
    simp only [videosOf_append, (adapt_quiet cfg s i).videosOf_eq_nil, List.nil_append, hlog]
    cases messageOf cfg (adapt cfg s i).2.1 i.encode <;> rfl
  · rfl

theorem videosOf_pass (cfg : Config) (s : Loop) (i : Pass) :
    videosOf (pass cfg s i).2 =
      if i.captured then (messageOf cfg (adapt cfg s i).2.1 i.encode).toList else [] := by
  rw [← videosOf_video]
  simp only [pass]
  split
  · rfl
  · have hdrain := (drain_quiet (video cfg s i).1 i.inbound).2
    rw [videosOf_append]
    show _ ++ videosOf (drain _ i.inbound).2 = _
    rw [hdrain.videosOf_eq_nil, List.append_nil]

/-- A pass logs the message that its turn sends. -/
theorem videosOf_turn (cfg : Config) (s : Loop) (t : ConnTurn) (sent hasClient : Bool)
    (inbound : List Message) :
    videosOf (pass cfg s (t.pass sent inbound hasClient)).2 = (t.video cfg s).toList := by
  rw [videosOf_pass]
  show (if t.captured then _ else _) = Option.toList (if t.captured then _ else _)
  split <;> rfl

/-- What a message makes the loop do with the encoder. -/
def inboundOrder (m : Message) : Option LoopEvent :=
  match dispatch m.1 m.2 with
  | .requestKeyframe => some .keyframeRequested
  | .setBitrate bitrate => some (.setBitrate bitrate)
  | .injectBatch | .nothing => none

/-- What the loop does with the encoder for the tablet. -/
def ordersOf (log : List LoopEvent) : List LoopEvent :=
  log.filter fun
    | .keyframeRequested | .setBitrate _ => true
    | .resized _ | .encoded _ _ _ _ => false

@[simp] theorem ordersOf_append (log log' : List LoopEvent) :
    ordersOf (log ++ log') = ordersOf log ++ ordersOf log' := List.filter_append ..

theorem ordersOf_drain (s : Loop) (ms : List Message) :
    ordersOf (drain s ms).2 = ms.filterMap inboundOrder := by
  induction ms generalizing s with
  | nil => rfl
  | cons m ms ih =>
      have hone : ordersOf (handleInbound s m).2 = (inboundOrder m).toList := by
        unfold handleInbound inboundOrder
        cases dispatch m.1 m.2 <;> rfl
      rw [drain, ordersOf_append, hone, ih, List.filterMap_cons]
      cases inboundOrder m <;> rfl

/-- The adaptation resizes at most once, and does not leave the loop. -/
theorem adapt_log (cfg : Config) (s : Loop) (i : Pass) :
    (adapt cfg s i).2.1.running = s.running ∧
      ((adapt cfg s i).2.2 = [] ∨ ∃ size, (adapt cfg s i).2.2 = [.resized size]) := by
  unfold adapt resizeToStep
  split
  · dsimp only
    split
    · split
      · exact ⟨rfl, .inr ⟨_, rfl⟩⟩
      · exact ⟨rfl, .inl rfl⟩
    · exact ⟨rfl, .inl rfl⟩
  · split
    · split
      · exact ⟨rfl, .inr ⟨_, rfl⟩⟩
      · exact ⟨rfl, .inl rfl⟩
    · exact ⟨rfl, .inl rfl⟩

theorem ordersOf_video (cfg : Config) (s : Loop) (i : Pass) : ordersOf (video cfg s i).2 = [] := by
  have hadapt : ordersOf (adapt cfg s i).2.2 = [] := by
    obtain ⟨-, hlog | ⟨size, hlog⟩⟩ := adapt_log cfg s i <;> rw [hlog] <;> rfl
  unfold video
  split
  · obtain ⟨-, hlog, -⟩ := encodeAndSend_log cfg (adapt cfg s i).2.1 (adapt cfg s i).1 i
    simp only [ordersOf_append, hadapt, List.nil_append, hlog]
    rfl
  · rfl

theorem running_congestion (cfg : Config) (s : Loop) (sendMs : ℚ) :
    (congestion cfg s sendMs).running = s.running := by
  unfold congestion
  split
  · rfl
  · dsimp only
    split
    · rfl
    · split <;> rfl

theorem running_video {cfg : Config} {s : Loop} {i : Pass} (h : i.sent = true) :
    (video cfg s i).1.running = s.running := by
  have hadapt := (adapt_log cfg s i).1
  unfold video
  split
  · simp only [encodeAndSend, h, if_true]
    split
    · exact hadapt
    · rw [running_congestion]
      exact hadapt
  · rfl

/-- A pass that does not lose the client does what its messages ask for. -/
theorem ordersOf_pass {cfg : Config} {s : Loop} {i : Pass} (hs : s.running = true)
    (hsent : i.sent = true) : ordersOf (pass cfg s i).2 = i.inbound.filterMap inboundOrder := by
  simp only [pass, running_video hsent, hs, Bool.true_eq_false, if_false, ordersOf_append,
    ordersOf_video, ordersOf_drain, List.nil_append]

/-- A pass without messages does nothing of the kind. -/
theorem ordersOf_pass_nil {cfg : Config} {s : Loop} {i : Pass} (h : i.inbound = []) :
    ordersOf (pass cfg s i).2 = [] := by
  simp only [pass]
  split
  · exact ordersOf_video cfg s i
  · simp only [ordersOf_append, ordersOf_video, ordersOf_drain, h]
    rfl

/-- The AAC frames of a turn. -/
def ConnTurn.aacFrames (t : ConnTurn) : List (List UInt8) := t.audio.filterMap Prod.fst

theorem ofType_map {α : Type} {f : α → Message} (type type' : UInt16) (hf : ∀ a, (f a).1 = type')
    {ms : List Message} {l : List α} (h : ms <+: l.map f) :
    ofType type ms = if type' = type then ms else [] := by
  have hall : ∀ m ∈ ms, m.1 = type' := by
    intro m hm
    obtain ⟨a, -, rfl⟩ := List.mem_map.mp (h.subset hm)
    exact hf a
  split
  · next heq => exact List.filter_eq_self.mpr fun m hm => by simp [hall m hm, heq]
  · next hne => exact List.filter_eq_nil_iff.mpr fun m hm => by simp [hall m hm, hne]

theorem hasClient_of_running {cfg : Config} {s : Loop} {i : Pass}
    (h : (pass cfg s i).1.running = true) : i.hasClient = true := by
  simp only [pass] at h
  split at h
  · next hleft => exact absurd h (by rw [hleft]; decide)
  · exact h

/-- What a turn reads and sends, and the pass of the main loop that it is. -/
structure TurnIs (cfg : Config) (s : Loop) (t : ConnTurn) (i : Pass) (s' : Loop)
    (os : List ConnEvent) : Prop where
  loop : (pass cfg s i).1 = s'
  inbound : i.inbound = readMsgs os
  orders : ordersOf (pass cfg s i).2 = (readMsgs os).filterMap inboundOrder
  videos : videosOf (pass cfg s i).2 = (t.video cfg s).toList
  video : ofType spMsgVideoFrame (calledMsgs os) = (t.video cfg s).toList.map VideoMessage.msg
  audio : ofType spMsgAudioFrame (calledMsgs os) <+: t.aacFrames.map audioMsg
  all : s'.running = true → ofType spMsgAudioFrame (calledMsgs os) = t.aacFrames.map audioMsg

theorem turnIs (send : Nat → Int) (cfg : Config) {s : Connection} (hs : s.loop.running = true)
    (t : ConnTurn) :
    ∃ i, TurnIs cfg s.loop t i (connTurn send cfg s t).1.loop (connTurn send cfg s t).2 := by
  obtain ⟨hread, hcalled, -⟩ := sendVideo_frame send s.srv t.videoUs (t.video cfg s.loop)
  have hprefix : (t.video cfg s.loop).toList.map VideoMessage.msg <+:
      (t.video cfg s.loop).toList.map VideoMessage.msg := List.prefix_refl _
  have hvideo := ofType_map spMsgVideoFrame spMsgVideoFrame (fun _ => rfl) hprefix
  have hother := ofType_map spMsgAudioFrame spMsgVideoFrame (fun _ => rfl) hprefix
  rw [if_pos rfl] at hvideo
  rw [if_neg (by decide)] at hother
  simp only [connTurn]
  split
  · obtain ⟨hread', hcalled', hall'⟩ :=
      sendAudio_frame send (sendVideo send s.srv t.videoUs (t.video cfg s.loop)).2.1 t.audio
    generalize sendAudio send (sendVideo send s.srv t.videoUs (t.video cfg s.loop)).2.1 t.audio = a
      at hread' hcalled' hall' ⊢
    have haudio := ofType_map spMsgAudioFrame spMsgAudioFrame (fun _ => rfl) hcalled'
    have hother' := ofType_map spMsgVideoFrame spMsgAudioFrame (fun _ => rfl) hcalled'
    rw [if_pos rfl] at haudio
    rw [if_neg (by decide)] at hother'
    have hsent : ofType spMsgAudioFrame (calledMsgs ((sendVideo send s.srv t.videoUs
        (t.video cfg s.loop)).2.2 ++ (a.2 ++ (readInbound a.1 s.type s.payload t.polls).1.map
          .read))) = calledMsgs a.2 := by
      simp only [calledMsgs_append, hcalled, ofType_append, hother, haudio, msgs_map_read,
        List.nil_append]
      exact List.append_nil _
    have hinbound : readMsgs ((sendVideo send s.srv t.videoUs (t.video cfg s.loop)).2.2 ++
        (a.2 ++ (readInbound a.1 s.type s.payload t.polls).1.map .read)) =
          (readInbound a.1 s.type s.payload t.polls).1 := by
      simp only [readMsgs_append, hread, hread', msgs_map_read, List.nil_append]
    refine ⟨_, rfl, hinbound.symm, ?_, videosOf_turn .., ?_, hsent ▸ hcalled', fun hrunning => ?_⟩
    · rw [hinbound]
      exact ordersOf_pass hs rfl
    · simp only [calledMsgs_append, hcalled, ofType_append, hvideo, hother', msgs_map_read]
      exact List.append_nil _
    · have hclient : (readInbound a.1 s.type s.payload t.polls).2.1.clientSock.isSome = true :=
        hasClient_of_running hrunning
      have hsock := (readInbound_frame a.1 s.type s.payload t.polls).2 hclient
      obtain ⟨sock, hs⟩ := Option.isSome_iff_exists.mp hsock
      exact hsent.trans (hall' sock hs).1
  · refine ⟨_, rfl, hread.symm, ?_, videosOf_turn .., ?_, ?_, fun hrunning => ?_⟩
    · rw [hread]
      exact ordersOf_pass_nil rfl
    · rw [hcalled, hvideo]
    · rw [hcalled, hother]
      exact List.nil_prefix
    · have hclient : false = true := hasClient_of_running hrunning
      contradiction

/-- What a run reads and sends, and the run of the main loop that it is. -/
structure RunIs (cfg : Config) (s : Loop) (is : List Pass) (aacFrames : List (List UInt8))
    (s' : Loop) (log : List LoopEvent) (os : List ConnEvent) : Prop where
  loop : (mainLoop cfg).run s is = some (s', log)
  inbound : is.flatMap Pass.inbound = readMsgs os
  orders : ordersOf log = (readMsgs os).filterMap inboundOrder
  video : ofType spMsgVideoFrame (calledMsgs os) = (videosOf log).map VideoMessage.msg
  audio : ofType spMsgAudioFrame (calledMsgs os) <+: aacFrames.map audioMsg
  all : s'.running = true → ofType spMsgAudioFrame (calledMsgs os) = aacFrames.map audioMsg

/-- A loop that is left has no further turn. -/
theorem run_of_left {send : Nat → Int} {cfg : Config} {s s' : Connection} {ts : List ConnTurn}
    {os : List ConnEvent} (hleft : s.loop.running = false)
    (hrun : (connection send cfg).run s ts = some (s', os)) : ts = [] ∧ s' = s ∧ os = [] := by
  cases ts with
  | nil =>
      cases hrun
      exact ⟨rfl, rfl, rfl⟩
  | cons t ts =>
      obtain ⟨s₁, o, os', hstep, -, -⟩ := (connection send cfg).run_cons hrun
      simp [connection, hleft] at hstep

/-- **The loop on the connection is the main loop.**  What its turns hold of their video
messages, the run of the main loop holds of its own. -/
theorem mainLoop_run {send : Nat → Int} {cfg : Config} {P : VideoMessage → Prop}
    {s s' : Connection} {ts : List ConnTurn} {os : List ConnEvent}
    (hrun : (connection send cfg).run s ts = some (s', os))
    (hts : (connection send cfg).Along (fun s t => ∀ v ∈ t.video cfg s.loop, P v) s ts) :
    ∃ is log, RunIs cfg s.loop is (ts.flatMap ConnTurn.aacFrames) s'.loop log os ∧
      ∀ v ∈ videosOf log, P v := by
  induction ts generalizing s os with
  | nil =>
      cases hrun
      exact ⟨[], [], ⟨rfl, rfl, rfl, rfl, List.nil_prefix, fun _ => rfl⟩, nofun⟩
  | cons t ts ih =>
      obtain ⟨s₁, o, os', hstep, hrest, rfl⟩ := (connection send cfg).run_cons hrun
      obtain ⟨is, log, his, hlog⟩ := ih hrest (hts.2 s₁ o hstep)
      obtain ⟨hrunning, hturn⟩ := turn_of_step hstep
      obtain ⟨i, hi⟩ := turnIs send cfg hrunning t
      rw [hturn] at hi
      refine ⟨i :: is, (pass cfg s.loop i).2 ++ log, ⟨?_, ?_, ?_, ?_, ?_, fun hlast => ?_⟩, ?_⟩
      · have hpass : (mainLoop cfg).step s.loop i =
            some (s₁.loop, (pass cfg s.loop i).2) := by
          rw [← hi.loop]
          exact if_pos hrunning
        exact (mainLoop cfg).run_of_step hpass his.loop
      · rw [List.flatMap_cons, hi.inbound, his.inbound, readMsgs_append]
      · rw [ordersOf_append, hi.orders, his.orders, readMsgs_append, List.filterMap_append]
      · rw [calledMsgs_append, ofType_append, hi.video, his.video, videosOf_append, List.map_append,
          hi.videos]
      · rw [calledMsgs_append, ofType_append, List.flatMap_cons, List.map_append]
        cases hleft : s₁.loop.running with
        | true =>
            rw [hi.all hleft]
            exact (List.prefix_append_right_inj _).mpr his.audio
        | false =>
            obtain ⟨rfl, -, rfl⟩ := run_of_left hleft hrest
            rw [show ofType spMsgAudioFrame (calledMsgs []) = [] from rfl, List.append_nil]
            exact hi.audio.trans (List.prefix_append _ _)
      · rw [calledMsgs_append, ofType_append, List.flatMap_cons, List.map_append, his.all hlast]
        cases hleft : s₁.loop.running with
        | true => rw [hi.all hleft]
        | false =>
            obtain ⟨-, rfl, -⟩ := run_of_left hleft hrest
            rw [hlast] at hleft
            contradiction
      · rw [videosOf_append, hi.videos, List.forall_mem_append]
        exact ⟨fun v hv => hts.1 v (Option.mem_toList.mp hv), hlog⟩

/-- While the loop runs the client is there. -/
theorem clientSock_of_running {send : Nat → Int} {cfg : Config} {s s' : Connection}
    {ts : List ConnTurn} {os : List ConnEvent}
    (h : s.loop.running = true → s.srv.clientSock.isSome)
    (hrun : (connection send cfg).run s ts = some (s', os)) :
    s'.loop.running = true → s'.srv.clientSock.isSome := by
  have hstep : ∀ s t s' os, (s.loop.running = true → s.srv.clientSock.isSome) →
      (connection send cfg).step s t = some (s', os) →
      s'.loop.running = true → s'.srv.clientSock.isSome := by
    intro s t s' os _ hstep hrunning
    obtain ⟨-, hturn⟩ := turn_of_step hstep
    simp only [connTurn] at hturn
    split at hturn
    · cases hturn
      exact hasClient_of_running hrunning
    · cases hturn
      have hclient : false = true := hasClient_of_running hrunning
      contradiction
  exact (connection send cfg).state_invariant hstep h hrun

/-! ## the announced size -/

/-- A size within the monitor's. -/
def Within (cfg : Config) (size : Size) : Prop :=
  size.1 ≤ cfg.native.1 ∧ size.2 ≤ cfg.native.2

theorem scaledSide_le (n : UInt32) {f : ℚ} (hf : f ≤ 1) : scaledSide n f ≤ n := by
  have hfloor : ⌊(n.toNat : ℚ) * f⌋.toNat ≤ n.toNat := by
    have hle : (n.toNat : ℚ) * f ≤ n.toNat := by
      have hn : (0 : ℚ) ≤ n.toNat := Nat.cast_nonneg _
      nlinarith
    have := Int.floor_le_floor hle
    rw [Int.floor_natCast] at this
    omega
  have hlt := n.toNat_lt
  have hmask : (scaledSide n f).toNat ≤ ⌊(n.toNat : ℚ) * f⌋.toNat := by
    rw [scaledSide, UInt32.toNat_and, UInt32.toNat_ofNat', Nat.mod_eq_of_lt (by omega)]
    exact Nat.and_le_left
  exact UInt32.le_iff_toNat_le.mpr (hmask.trans hfloor)

theorem scaledSize_within (cfg : Config) (idx : Nat) : Within cfg (cfg.scaledSize idx) := by
  have hstep : kScaleSteps.getD idx 1 ≤ 1 := by
    match idx with
    | 0 | 1 | 2 | 3 => norm_num [kScaleSteps]
    | idx + 4 => simp [kScaleSteps]
  exact ⟨scaledSide_le _ hstep, scaledSide_le _ hstep⟩

theorem adapt_within {cfg : Config} {s : Loop} (h : Within cfg s.cur) (i : Pass) :
    Within cfg (adapt cfg s i).2.1.cur := by
  have hnative : Within cfg cfg.native := ⟨UInt32.le_refl _, UInt32.le_refl _⟩
  unfold adapt resizeToStep
  split
  · dsimp only
    split
    · split
      · exact scaledSize_within cfg s.scaleIdx
      · exact hnative
    · exact h
  · split
    · split
      · exact hnative
      · exact h
    · exact h

theorem pass_within {cfg : Config} {s : Loop} (h : Within cfg s.cur) (i : Pass) :
    Within cfg (pass cfg s i).1.cur ∧ ∀ v ∈ videosOf (pass cfg s i).2, Within cfg v.display := by
  constructor
  · have hvideo : Within cfg (video cfg s i).1.cur := by
      unfold video
      split
      · obtain ⟨hsame, -⟩ := encodeAndSend_log cfg (adapt cfg s i).2.1 (adapt cfg s i).1 i
        rw [hsame.cur]
        exact adapt_within h i
      · exact h
    simp only [pass]
    split
    · exact hvideo
    · show Within cfg (drain _ i.inbound).1.cur
      rw [(drain_quiet (video cfg s i).1 i.inbound).1.cur]
      exact hvideo
  · rw [videosOf_pass]
    intro v hv
    split at hv
    · rw [messageOf_display (Option.mem_toList.mp hv)]
      exact adapt_within h i
    · contradiction

/-- No video message announces more than the monitor. -/
theorem displays_within {cfg : Config} {s s' : Loop} {is : List Pass} {log : List LoopEvent}
    (h : Within cfg s.cur) (hrun : (mainLoop cfg).run s is = some (s', log)) :
    ∀ v ∈ videosOf log, Within cfg v.display := by
  have hstep : ∀ s (tr : List LoopEvent) i s' o,
      (Within cfg s.cur ∧ ∀ v ∈ videosOf tr, Within cfg v.display) → True →
      (mainLoop cfg).step s i = some (s', o) →
      Within cfg s'.cur ∧ ∀ v ∈ videosOf (tr ++ o), Within cfg v.display := by
    intro s tr i s' o h _ hstep
    have hpass := pass_within h.1 i
    rw [pass_of_step hstep] at hpass
    rw [videosOf_append, List.forall_mem_append]
    exact ⟨hpass.1, h.2, hpass.2⟩
  have hinit : Within cfg s.cur ∧ ∀ v ∈ videosOf [], Within cfg v.display :=
    ⟨h, fun v hv => nomatch hv⟩
  exact ((mainLoop cfg).run_invariant hstep hinit ((mainLoop cfg).along_true s is) hrun).2

end TwinScreen.Host
