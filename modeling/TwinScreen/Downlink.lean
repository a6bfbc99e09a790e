import TwinScreen.Host.Turns
import TwinScreen.Link
import TwinScreen.Roundtrip
import TwinScreen.Tablet.Connect

/-!
# TwinScreen.Downlink

The host's `main` and the tablet's client thread on one connection, from the handshake on.

`downlink` says what the tablet makes of any part of the bytes that `main` has sent: the
acknowledgement of this host, then a prefix of the pictures of the main loop and a prefix of the
audio frames, and no exception.
-/

namespace TwinScreen

open Lib Host Tablet

/-! ## one message -/

/-- The frame that a video message is for the tablet. -/
def frameOf (v : VideoMessage) : VideoFrame :=
  ⟨v.keyframe, v.codec.toNat, v.display.1.toNat, v.display.2.toNat, v.nals⟩

/-- The audio frame that an AAC frame is for the tablet. -/
def audioOf (aacFrame : List UInt8) : AudioFrame :=
  ⟨kAudioRate.toNat, 1, kAudioChannels.toNat, aacFrame⟩

/-- The acknowledgement as the tablet reads it. -/
def ackOf (cfg : Config) : Ack :=
  let a := handshakeAck cfg
  ⟨a.protoVersion.toNat, a.caps.toNat, a.modeW.toNat, a.modeH.toNat, a.modeRefresh.toNat,
    a.codec.toNat, a.profile.toNat, a.bitrate.toNat, a.fps.toNat⟩

/-- The NALs of a payload, and each of them, are no longer than the payload. -/
theorem length_le_flatMap_appendNal (nals : List (List UInt8)) :
    nals.length ≤ (nals.flatMap appendNal).length ∧
      ∀ nal ∈ nals, nal.length ≤ (nals.flatMap appendNal).length := by
  induction nals with
  | nil => exact ⟨Nat.le_refl _, nofun⟩
  | cons nal nals ih =>
      have hlen : (appendNal nal).length = 4 + nal.length := by
        simp [appendNal, appendU32]
        omega
      rw [List.flatMap_cons, List.length_append, hlen, List.length_cons, List.forall_mem_cons]
      refine ⟨by omega, by omega, fun nal' hnal' => ?_⟩
      have hle := ih.2 nal' hnal'
      omega

theorem parseVideoFrame_msg {cfg : Config} (hw : cfg.native.1.toNat < 2 ^ 31)
    (hh : cfg.native.2.toNat < 2 ^ 31) {v : VideoMessage} (hfits : Fits v.msg)
    (hcodec : v.codec.toNat < 128) (hwithin : Within cfg v.display) :
    parseVideoFrame v.msg.2 = .ok (frameOf v) := by
  have hlen : (v.nals.flatMap appendNal).length < 2 ^ 31 := by
    refine Nat.lt_of_le_of_lt ?_ hfits
    simp only [VideoMessage.msg, videoPayload, buildVideoPayload, List.length_append]
    omega
  obtain ⟨hcount, hnals⟩ := length_le_flatMap_appendNal v.nals
  have hdisplay := hwithin.imp UInt32.le_iff_toNat_le.mp UInt32.le_iff_toNat_le.mp
  exact parseVideoFrame_videoPayload v.display ⟨v.keyframe, v.codec, v.nals, []⟩ hcodec (by omega)
    (by omega) (Nat.lt_of_le_of_lt hcount hlen) fun nal hnal =>
      Nat.lt_of_le_of_lt (hnals nal hnal) hlen

theorem parseAudioFrame_audioMsg (aacFrame : List UInt8) :
    parseAudioFrame (audioMsg aacFrame).2 = .ok (audioOf aacFrame) :=
  parseAudioFrame_bytes _ aacFrame (by decide) (by decide) (by decide)

theorem readAck_handshakeAck (cfg : Config) : readAck (handshakeAck cfg).bytes = .ok (ackOf cfg) :=
  have hcodec : spCodecH264.toNat < 128 := by decide
  readAck_bytes (handshakeAck cfg) hcodec (Nat.zero_lt_succ 127)

/-! ## lists of messages -/

theorem filterMap_ofType {α : Type} (type : UInt16) (parse : List UInt8 → Option α)
    (ms : List Message) :
    (ms.filterMap fun m => if m.1 = type then parse m.2 else none) =
      (ofType type ms).filterMap fun m => parse m.2 := by
  rw [ofType, List.filterMap_filter]
  simp only [decide_eq_true_eq]

/-- What a parser makes of messages that it takes. -/
theorem filterMap_map_eq {α β : Type} {msg : α → Message} {parse : List UInt8 → Except Throwable β}
    {f : α → β} {l : List α} (h : ∀ a ∈ l, parse (msg a).2 = .ok (f a)) :
    ((l.map msg).filterMap fun m => (parse m.2).toOption) = l.map f := by
  induction l with
  | nil => rfl
  | cons a l ih =>
      rw [List.forall_mem_cons] at h
      rw [List.map_cons, List.filterMap_cons, h.1, ih h.2]
      rfl

/-- What is shown of messages with these pictures. -/
theorem shown_eq {ms : List Message} {videos : List VideoMessage}
    (hms : ofType spMsgVideoFrame ms = videos.map VideoMessage.msg)
    (hparse : ∀ v ∈ videos, parseVideoFrame v.msg.2 = .ok (frameOf v)) :
    shown ms = videos.map frameOf := by
  rw [shown, filterMap_ofType _ fun p => (parseVideoFrame p).toOption, hms]
  exact filterMap_map_eq hparse

theorem heard_eq {ms : List Message} {aacFrames : List (List UInt8)}
    (hms : ofType spMsgAudioFrame ms = aacFrames.map audioMsg) :
    heard ms = aacFrames.map audioOf := by
  rw [heard, filterMap_ofType _ fun p => (parseAudioFrame p).toOption, hms]
  exact filterMap_map_eq fun aacFrame _ => parseAudioFrame_audioMsg aacFrame

theorem heard_isPrefix {ms : List Message} {aacFrames : List (List UInt8)}
    (hms : ofType spMsgAudioFrame ms <+: aacFrames.map audioMsg) :
    heard ms <+: aacFrames.map audioOf := by
  obtain ⟨l, hl⟩ := hms
  have hpre : ofType spMsgAudioFrame ms = (aacFrames.take (ofType spMsgAudioFrame ms).length).map
      audioMsg := by
    rw [List.map_take, ← hl, List.take_left]
  rw [heard_eq hpre]
  exact (List.take_prefix _ _).map _

/-- The messages of a run parse. -/
theorem parses_of_ofType {ms : List Message} {videos : List VideoMessage}
    {aacFrames : List (List UInt8)}
    (hvideo : ofType spMsgVideoFrame ms = videos.map VideoMessage.msg)
    (hparse : ∀ v ∈ videos, parseVideoFrame v.msg.2 = .ok (frameOf v))
    (haudio : ofType spMsgAudioFrame ms <+: aacFrames.map audioMsg) : ∀ m ∈ ms, Parses m := by
  intro m hm
  have hmem : ∀ type, m.1 = type → m ∈ ofType type ms := fun type h =>
    List.mem_filter.mpr ⟨hm, by simpa using h⟩
  unfold Parses
  split
  · next h =>
      have hmem := hmem _ h
      rw [hvideo] at hmem
      obtain ⟨v, hv, rfl⟩ := List.mem_map.mp hmem
      exact (parseVideoFrame_returns_iff _).mp ⟨_, hparse v hv⟩
  · split
    · next h =>
        obtain ⟨aacFrame, -, rfl⟩ := List.mem_map.mp (haudio.subset (hmem _ h))
        exact (parseAudioFrame_returns_iff _).mp ⟨_, parseAudioFrame_audioMsg aacFrame⟩
    · trivial

/-! ## the connection -/

/-- A server that has sent nothing. -/
theorem conveys_accepted {F : Framing UInt8 UInt16} {srv : TcpServer} (hsrv : srv.wire = [])
    (sock : Socket) : Conveys F (srv.accepted sock) [] := by
  have hwire : (srv.accepted sock).wire = [] := hsrv
  refine ⟨?_, ?_, fun _ => ?_, List.prefix_refl _, fun _ => rfl⟩
  · rw [hwire, F.split_nil]
    rfl
  · rw [hwire, F.headers_nil]
    exact nofun
  · rw [hwire, F.rest_of_next_none (F.next_of_header_none F.header_nil)]

/-- The acknowledgement, when it is read at all, is the host's, and behind it come the messages
of the loop. -/
theorem acknowledged_split {cfg : Config} {s s₁ : List (Chunk UInt8)} {a : Ack} {bs : List UInt8}
    {ms : List Message} (h : acknowledged s = some (a, s₁)) (hs : flatten s <+: bs)
    (hsplit : clientFraming.split bs = (spMsgHandshakeAck, (handshakeAck cfg).bytes) :: ms) :
    a = ackOf cfg ∧ clientFraming.split (flatten s₁) <+: ms ∧
      clientFraming.headers (flatten s₁) ⊆ clientFraming.headers bs := by
  obtain ⟨p, hnext, -, hread⟩ := exists_next_of_readAckFrame (Option.filter_eq_some_iff.mp h).1
  have hprefix := clientFraming.split_isPrefix hs
  rw [hsplit, clientFraming.split_of_next hnext, List.cons_prefix_cons] at hprefix
  obtain ⟨heq, hms⟩ := hprefix
  refine ⟨?_, hms, fun h' hmem => ?_⟩
  · cases heq
    rw [readAck_handshakeAck] at hread
    exact (Except.ok.inj hread).symm
  · obtain ⟨xs, rfl⟩ := hs
    exact clientFraming.headers_subset_append _ xs (clientFraming.mem_headers_of_next hnext hmem)

/-- A stream that starts with the acknowledgement. -/
theorem exists_acknowledged {cfg : Config} {s : List (Chunk UInt8)} {ms : List Message}
    (hsplit : clientFraming.split (flatten s) =
      (spMsgHandshakeAck, (handshakeAck cfg).bytes) :: ms) :
    ∃ s₁, acknowledged s = some (ackOf cfg, s₁) ∧ clientFraming.split (flatten s₁) = ms := by
  cases hnext : clientFraming.next (flatten s) with
  | none =>
      rw [clientFraming.split_of_next_none hnext] at hsplit
      contradiction
  | some f =>
      obtain ⟨f, rest⟩ := f
      rw [clientFraming.split_of_next hnext] at hsplit
      obtain ⟨rfl, hms⟩ := List.cons.inj hsplit
      obtain ⟨s₁, rfl, hack⟩ := readAckFrame_of_next (by simp) hnext
      refine ⟨s₁, ?_, hms⟩
      rw [if_pos rfl, readAck_handshakeAck] at hack
      rw [acknowledged, hack]
      rfl

/-- What the tablet makes of a part of the host's bytes: the acknowledgement of the host, then a
prefix of its pictures and of its audio, and no exception. -/
structure Receives (cfg : Config) (videos : List VideoMessage) (aacFrames : List (List UInt8))
    (a : Ack) (r : LoopResult) : Prop where
  ack : a = ackOf cfg
  exit : r.exit = .returned
  shown : shown r.frames <+: videos.map frameOf
  heard : heard r.frames <+: aacFrames.map audioOf

/-- **Downlink.**  Let `main` accept a client and run its loop for any turns whose messages fit.
Then that is a run of the main loop, and whatever part of the bytes sent arrives, in any chunks:
a tablet that gets the acknowledgement gets the host's, shows a prefix of the pictures of that run
and hears a prefix of its audio.  While the loop runs and all has arrived, it gets all of them. -/
theorem downlink (send : Nat → Int) (cfg : Config) (hw : cfg.native.1.toNat < 2 ^ 31)
    (hh : cfg.native.2.toNat < 2 ^ 31) {srv : TcpServer} (hsrv : srv.wire = []) (sock : Socket)
    (readable : Bool) (us : UInt64) {ts : List ConnTurn} {s' : Connection} {os : List ConnEvent}
    (hts : (connection send cfg).Along (fun s t => t.Fits cfg s.loop)
      (greet send cfg (srv.accepted sock) readable us).1 ts)
    (hrun : (connection send cfg).run (greet send cfg (srv.accepted sock) readable us).1 ts =
      some (s', os)) :
    ∃ is log, RunIs cfg (greet send cfg (srv.accepted sock) readable us).1.loop is
        (ts.flatMap ConnTurn.aacFrames) s'.loop log os ∧
      ∀ (alive : Nat → Bool) (c : Client) (s : List (Chunk UInt8)), flatten s <+: s'.srv.wire →
        (∀ a s₁, acknowledged s = some (a, s₁) →
          Receives cfg (videosOf log) (ts.flatMap ConnTurn.aacFrames) a
            (receiveLoop alive 0 c s₁)) ∧
        (s'.loop.running = true → flatten s = s'.srv.wire → (∀ i, alive i = true) →
          ∃ s₁, acknowledged s = some (ackOf cfg, s₁) ∧
            shown (receiveLoop alive 0 c s₁).frames = (videosOf log).map frameOf ∧
            heard (receiveLoop alive 0 c s₁).frames =
              (ts.flatMap ConnTurn.aacFrames).map audioOf) := by
  have hconveys := conveys_run readsHostHeaders_clientFraming
    (conveys_greet send readsHostHeaders_clientFraming cfg (conveys_accepted hsrv sock) readable us)
    hts hrun
  have hcases := greet_cases send cfg (srv.accepted sock) readable us
  generalize greet send cfg (srv.accepted sock) readable us = g at *
  obtain ⟨g, gos⟩ := g
  dsimp only at *
  have hvideos := (connection send cfg).along_mono (fun s t ht => ht.video) hts
  obtain ⟨is, log, hrunIs, hlog⟩ := mainLoop_run hrun hvideos
  refine ⟨is, log, hrunIs, fun alive c s hs => ?_⟩
  cases hcases with
  | inr hleft =>
      -- nothing has been sent
      obtain ⟨rfl, rfl, rfl⟩ := run_of_left hleft.1 hrun
      refine ⟨fun a s₁ hack => ?_, fun hrunning => ?_⟩
      · obtain ⟨p, hnext, -⟩ := exists_next_of_readAckFrame (Option.filter_eq_some_iff.mp hack).1
        have hprefix := clientFraming.split_isPrefix hs
        rw [hconveys.split, List.append_nil, hleft.2, clientFraming.split_of_next hnext] at hprefix
        exact absurd (List.prefix_nil.mp hprefix) (List.cons_ne_nil _ _)
      · rw [hleft.1] at hrunning
        contradiction
  | inl hentered =>
      have hwithin : Within cfg g.loop.cur := by
        rw [hentered.loop]
        exact ⟨UInt32.le_refl _, UInt32.le_refl _⟩
      have hsizes := displays_within hwithin hrunIs.loop
      have hparse : ∀ v ∈ videosOf log, parseVideoFrame v.msg.2 = .ok (frameOf v) := fun v hv =>
        parseVideoFrame_msg hw hh (hlog v hv).1 (hlog v hv).2 (hsizes v hv)
      have hparses := parses_of_ofType hrunIs.video hparse hrunIs.audio
      have hsplit := hconveys.split
      have hcalled := hconveys.called
      rw [sentMsgs_append, hentered.sent] at hsplit hcalled
      rw [calledMsgs_append, hentered.called] at hcalled
      have hsent : sentMsgs os <+: calledMsgs os := (List.prefix_append_right_inj _).mp hcalled
      refine ⟨fun a s₁ hack => ?_, fun hrunning hall halive => ?_⟩
      · obtain ⟨ha, hms, hheaders⟩ := acknowledged_split hack hs hsplit
        have hframes := (frames_receiveLoop_isPrefix alive 0 c s₁).trans (hms.trans hsent)
        refine ⟨ha, ?_, ?_, ?_⟩
        · refine (exit_receiveLoop_iff alive 0 c s₁).mpr fun k _ => ⟨fun h hk => ?_, fun m hk => ?_⟩
          · exact hconveys.headers h (hheaders (List.mem_of_getElem? hk))
          · exact hparses m (hsent.subset (hms.subset (List.mem_of_getElem? hk)))
        · rw [← shown_eq hrunIs.video hparse]
          exact hframes.filterMap _
        · exact (hframes.filterMap _).trans (heard_isPrefix hrunIs.audio)
      · have hclient := clientSock_of_running (fun _ => hentered.client) hrun hrunning
        have heq := hconveys.all hclient
        rw [sentMsgs_append, hentered.sent, calledMsgs_append, hentered.called] at heq
        rw [List.append_cancel_left heq, ← hall, List.singleton_append] at hsplit
        obtain ⟨s₁, hack, hms⟩ := exists_acknowledged hsplit
        obtain ⟨-, -, hheaders⟩ := acknowledged_split hack (List.prefix_refl _) hsplit
        have hframes : (receiveLoop alive 0 c s₁).frames = calledMsgs os := by
          rw [← hms]
          refine frames_receiveLoop_eq_split halive c (fun h hmem => ?_) (fun m hmem => ?_) 0
          · exact hconveys.headers h (hall ▸ hheaders hmem)
          · exact hparses m (hms ▸ hmem)
        refine ⟨s₁, hack, ?_, ?_⟩
        · rw [hframes, shown_eq hrunIs.video hparse]
        · rw [hframes, heard_eq (hrunIs.all hrunning)]

/-! ## a client that says hello -/

def helloHeader : SpHeader :=
  { magic := spMagic, version := spVersion, type := spMsgHandshake, seq := 1, tsUs := 0,
    payloadLen := 42 }

/-- A handshake that arrives in one piece. -/
def hello : Socket := arrive (helloHeader.bytes ++ List.replicate 42 0)

theorem next_hello : wireFraming.next (flatten hello) =
    some ((spMsgHandshake, List.replicate 42 0), []) := by
  have hdec : wireFraming.decode helloHeader.bytes =
      some (spMsgHandshake, (List.replicate 42 (0 : UInt8)).length) := by
    simp [wireFraming, SpHeader.ofBytes_bytes, helloHeader]
  have hnext := wireFraming.next_encode (SpHeader.length_bytes helloHeader) hdec []
  rwa [List.append_nil, ← flatten_arrive (helloHeader.bytes ++ List.replicate 42 0)] at hnext

/-- A connection that takes seven bytes at a time. -/
def sevenBytes : Nat → Int := fun _ => 7

/-- One picture, and one AAC frame. -/
def pictureTurn : ConnTurn where
  captured := true
  resize := true
  scale := ⟨true, true, true⟩
  encode := some ⟨true, spCodecH264, [[0x65]], []⟩
  videoUs := 20
  sendMs := 20
  audio := [(some [0x21], 30)]
  polls := []

/-- The picture comes to the tablet, or nothing does. -/
theorem downlink_pictureTurn :
    ∃ s' os, (connection sevenBytes fullHd).run
        (greet sevenBytes fullHd ((⟨none, 0, 1, [], 0⟩ : TcpServer).accepted hello) true 10).1
        [pictureTurn] = some (s', os) ∧
      ∃ log, ∀ s s₁ a, flatten s <+: s'.srv.wire → acknowledged s = some (a, s₁) →
        Receives fullHd (videosOf log) [[0x21]] a (receiveLoop (fun _ => true) 0 {} s₁) := by
  have hsend : ∀ i, 0 < sevenBytes i := fun i => show (0 : Int) < 7 by decide
  have hentered := greet_enters hsend fullHd ⟨none, 0, 1, [], 0⟩ (by decide) (by decide) next_hello
    10
  have hfits : pictureTurn.Fits fullHd fullHd.entry := by
    constructor
    · rintro v ⟨⟩
      exact ⟨by decide, by decide⟩
    · simp only [pictureTurn, List.mem_singleton, forall_eq]
      rintro aacFrame ⟨⟩
      decide
  rw [← hentered.loop] at hfits
  obtain ⟨s', os, hrun⟩ := exists_run_turn sevenBytes fullHd (congrArg Loop.running hentered.loop)
    pictureTurn
  have hnil : (⟨none, 0, 1, [], 0⟩ : TcpServer).wire = [] := rfl
  obtain ⟨-, log, -, hdown⟩ := downlink sevenBytes fullHd (by decide) (by decide) hnil hello true 10
    (show Machine.Along _ _ _ [pictureTurn] from ⟨hfits, fun _ _ _ => trivial⟩) hrun
  exact ⟨s', os, hrun, log, fun s s₁ a hs => (hdown (fun _ => true) {} s hs).1 a s₁⟩

end TwinScreen
