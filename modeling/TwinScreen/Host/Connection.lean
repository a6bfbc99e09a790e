import TwinScreen.Host.Payload
import TwinScreen.Host.Server

/-!
# TwinScreen.Host.Connection

`main` on the connection that it accepts: the handshake, then the loop of
`TwinScreen.Host.MainLoop` with its `SendFrame` and `ReadFrame` calls on the server, and with
the audio between them.

* `conveys_run`, `hears_run` — what is on the wire, and what has been read, after any run.
* `greet_cases` — where the loop is entered.
-/

namespace TwinScreen.Host

open Lib

/-! ## what `main` sends -/

def kAudioRate : UInt32 := 48000
def kAudioChannels : UInt16 := 2

/-- `sizeof(sp_handshake)`. -/
def spHandshakeSize : Nat := 42

/-- The acknowledgement of the handshake. -/
def handshakeAck (cfg : Config) : SpHandshakeAck where
  protoVersion := spVersion
  caps := 0
  modeW := cfg.native.1.toUInt16
  modeH := cfg.native.2.toUInt16
  modeRefresh := 60
  codec := spCodecH264
  profile := 0
  bitrate := 12000000
  fps := 30

def VideoMessage.msg (v : VideoMessage) : Message :=
  (spMsgVideoFrame, videoPayload v.display ⟨v.keyframe, v.codec, v.nals, []⟩)

/-- An AAC frame behind its `sp_audio_frame`. -/
def audioMsg (aacFrame : List UInt8) : Message :=
  let af : SpAudioFrame :=
    { sampleRate := kAudioRate
      codec := 1
      channels := kAudioChannels.toUInt8
      bytesPerSample := 0 }
  (spMsgAudioFrame, af.bytes ++ aacFrame)

/-! ## state -/

/-- `main` with the server, and the two variables that `ReadFrame` writes to.  Once the loop
is not running `main` has returned. -/
structure Connection where
  loop : Loop
  srv : TcpServer
  type : UInt16
  payload : List UInt8

/-- What is seen of the connection. -/
inductive ConnEvent
  /-- A `SendFrame` call and what it returned. -/
  | called (c : SendCall) (ret : Bool)
  /-- A message that `ReadFrame` returned. -/
  | read (m : Message)

/-- What one turn of the loop meets: the answers of the other components, the clock at each
`SendFrame`, and what `select` says.  Of the audio it is what `Encode` makes of each frame
that is popped, none when there is no audio. -/
structure ConnTurn where
  captured : Bool
  resize : Bool
  scale : ScaleEnv
  encode : Option EncodedFrame
  videoUs : UInt64
  sendMs : ℚ
  audio : List (Option (List UInt8) × UInt64)
  polls : List Bool

/-- The turn as a pass of the main loop, with what the server answers. -/
def ConnTurn.pass (t : ConnTurn) (sent : Bool) (inbound : List Message) (hasClient : Bool) :
    Pass where
  captured := t.captured
  resize := t.resize
  scale := t.scale
  encode := t.encode
  sent := sent
  sendMs := t.sendMs
  inbound := inbound
  hasClient := hasClient

/-- The message that the turn sends of the picture. -/
def ConnTurn.video (cfg : Config) (s : Loop) (t : ConnTurn) : Option VideoMessage :=
  if t.captured then messageOf cfg (adapt cfg s (t.pass true [] true)).2.1 t.encode else none

/-! ## the calls -/

section

variable (send : Nat → Int)

/-- `SendFrame`, and what is seen of it. -/
def call (srv : TcpServer) (m : Message) (elapsedUs : UInt64) : Bool × TcpServer × List ConnEvent :=
  let r := sendFrame send srv m.1 m.2 elapsedUs
  (r.1, r.2, [.called ⟨m, elapsedUs⟩ r.1])

/-- The frame of the picture, when there is one. -/
def sendVideo (srv : TcpServer) (us : UInt64) :
    Option VideoMessage → Bool × TcpServer × List ConnEvent
  | none => (true, srv, [])
  | some v => call send srv v.msg us

/-- The audio of a turn, until a frame cannot be sent. -/
def sendAudio (srv : TcpServer) :
    List (Option (List UInt8) × UInt64) → TcpServer × List ConnEvent
  | [] => (srv, [])
  | (none, _) :: rest => sendAudio srv rest
  | (some aacFrame, us) :: rest =>
      let r := call send srv (audioMsg aacFrame) us
      if r.1 then
        let last := sendAudio r.2.1 rest
        (last.1, r.2.2 ++ last.2)
      else r.2

/-- The `ReadFrame` calls of a turn, until one returns false; behind the outcomes given,
`select` finds nothing. -/
def readInbound (srv : TcpServer) (type : UInt16) (payload : List UInt8) :
    List Bool → List Message × TcpServer × UInt16 × List UInt8
  | [] => ([], srv, type, payload)
  | readable :: polls =>
      let r := readFrame srv type payload readable
      if r.ret then
        let rest := readInbound r.srv r.type r.payload polls
        ((r.type, r.payload) :: rest.1, rest.2)
      else ([], r.srv, r.type, r.payload)

/-- One turn. -/
def connTurn (cfg : Config) (s : Connection) (t : ConnTurn) : Connection × List ConnEvent :=
  let v := sendVideo send s.srv t.videoUs (t.video cfg s.loop)
  if v.1 then
    let a := sendAudio send v.2.1 t.audio
    let r := readInbound a.1 s.type s.payload t.polls
    ({ loop := (pass cfg s.loop (t.pass true r.1 r.2.1.clientSock.isSome)).1
       srv := r.2.1
       type := r.2.2.1
       payload := r.2.2.2 },
      v.2.2 ++ (a.2 ++ r.1.map .read))
  else
    -- "send failed; client gone"
    ({ s with loop := (pass cfg s.loop (t.pass false [] false)).1, srv := v.2.1 }, v.2.2)

/-- The turns, until the loop is left. -/
def connection (cfg : Config) : Machine Connection ConnTurn ConnEvent where
  step s t := if s.loop.running then some (connTurn send cfg s t) else none

/-- `main` from the accepted client to its loop: whether a frame comes within ten seconds,
and the clock at the acknowledgement. -/
def greet (cfg : Config) (srv : TcpServer) (readable : Bool) (us : UInt64) :
    Connection × List ConnEvent :=
  let r := readFrame srv 0 [] readable
  let left : Connection := ⟨{ cfg.entry with running := false }, r.srv, r.type, r.payload⟩
  if r.ret then
    if r.type ≠ spMsgHandshake ∨ r.payload.length < spHandshakeSize then
      (left, [.read (r.type, r.payload)])
    else
      let a := call send r.srv (spMsgHandshakeAck, (handshakeAck cfg).bytes) us
      ({ left with loop := { cfg.entry with running := a.1 }, srv := a.2.1 },
        .read (r.type, r.payload) :: a.2.2)
  else (left, [])

end

/-! ## what the connection conveys -/

/-- The messages of the `SendFrame` calls that returned true. -/
def sentMsgs (tr : List ConnEvent) : List Message :=
  tr.filterMap fun
    | .called c true => some c.msg
    | _ => none

/-- The messages of all the `SendFrame` calls. -/
def calledMsgs (tr : List ConnEvent) : List Message :=
  tr.filterMap fun
    | .called c _ => some c.msg
    | .read _ => none

/-- The messages that were read. -/
def readMsgs (tr : List ConnEvent) : List Message :=
  tr.filterMap fun
    | .read m => some m
    | _ => none

section

variable {F : Framing UInt8 UInt16} {bs₀ : List UInt8} {srv : TcpServer} {tr : List ConnEvent}

@[simp] theorem sentMsgs_append (os : List ConnEvent) :
    sentMsgs (tr ++ os) = sentMsgs tr ++ sentMsgs os := List.filterMap_append

@[simp] theorem readMsgs_append (os : List ConnEvent) :
    readMsgs (tr ++ os) = readMsgs tr ++ readMsgs os := List.filterMap_append

@[simp] theorem calledMsgs_append (os : List ConnEvent) :
    calledMsgs (tr ++ os) = calledMsgs tr ++ calledMsgs os := List.filterMap_append

@[simp] theorem msgs_map_read (ms : List Message) :
    sentMsgs (ms.map .read) = [] ∧ calledMsgs (ms.map .read) = [] ∧
      readMsgs (ms.map .read) = ms := by
  induction ms with
  | nil => exact ⟨rfl, rfl, rfl⟩
  | cons m ms ih =>
      refine ⟨ih.1, ih.2.1, ?_⟩
      show m :: readMsgs (ms.map .read) = m :: ms
      rw [ih.2.2]

/-- The bytes on the wire, read by `F`, are the messages that were sent; while the client is
there they end between frames, and every call has sent its message. -/
structure Conveys (F : Framing UInt8 UInt16) (srv : TcpServer) (tr : List ConnEvent) : Prop where
  split : F.split srv.wire = sentMsgs tr
  headers : ∀ h ∈ F.headers srv.wire, h.2 < 2 ^ 31
  rest : srv.clientSock.isSome → F.rest srv.wire = []
  called : sentMsgs tr <+: calledMsgs tr
  all : srv.clientSock.isSome → sentMsgs tr = calledMsgs tr

/-- What has been read is the front of the stream `bs₀`, and the socket holds the rest. -/
structure Hears (bs₀ : List UInt8) (srv : TcpServer) (tr : List ConnEvent) : Prop where
  read : readMsgs tr <+: wireFraming.split bs₀
  unread : ∀ s, srv.clientSock = some s →
    readMsgs tr ++ wireFraming.split (flatten s) = wireFraming.split bs₀ ∧
      ∀ h ∈ wireFraming.headers (flatten s), h.2 < 2 ^ 31

/-- A message fits the length field of its header as a signed number. -/
def Fits (m : Message) : Prop := m.2.length < 2 ^ 31

instance (m : Message) : Decidable (Fits m) := inferInstanceAs (Decidable (_ < _))

/-- **Step lemma**, of a `SendFrame` call. -/
theorem conveys_call (send : Nat → Int) (hF : ReadsHostHeaders F) (h : Conveys F srv tr)
    {m : Message} (hm : Fits m) (us : UInt64) :
    Conveys F (call send srv m us).2.1 (tr ++ (call send srv m us).2.2) := by
  cases hs : srv.clientSock with
  | none =>
      have hr : sendFrame send srv m.1 m.2 us = (false, srv) := by simp [sendFrame, hs]
      simp only [call, hr]
      refine ⟨?_, h.headers, h.rest, ?_, by simp [hs]⟩
      · simpa [sentMsgs] using h.split
      · simpa [sentMsgs, calledMsgs] using h.called.trans (List.prefix_append _ _)
  | some s =>
      obtain ⟨⟨hd, hh, hcase⟩, -, -⟩ := sendFrame_law send hs m.1 hm us
      have hlen : hd.bytes.length = F.headerLen := by rw [hF.headerLen, SpHeader.length_bytes]
      have hdec := hF.decode hd m hh
      have hthere : srv.clientSock.isSome := by rw [hs]; rfl
      have hrest := h.rest hthere
      simp only [call]
      generalize sendFrame send srv m.1 m.2 us = r at hcase
      obtain ⟨ret, srv'⟩ := r
      cases hcase with
      | inl hsent =>
          obtain ⟨rfl, hsock, hwire⟩ := hsent
          have hnext := F.next_encode hlen hdec []
          rw [List.append_nil] at hnext
          have hall : sentMsgs (tr ++ [.called ⟨m, us⟩ true]) =
              calledMsgs (tr ++ [.called ⟨m, us⟩ true]) := by
            rw [sentMsgs_append, calledMsgs_append, h.all hthere]
            rfl
          refine ⟨?_, fun h' hmem => ?_, fun _ => ?_, hall ▸ List.prefix_refl _, fun _ => hall⟩
          · rw [hwire, F.split_append, hrest, List.nil_append, F.split_of_next hnext, F.split_nil,
              h.split, sentMsgs_append]
            rfl
          · rw [hwire] at hmem
            have hmem := F.mem_headers_append hmem
            rw [hrest, List.nil_append, F.headers_of_next (F.header_encode hlen hdec m.2) hnext,
              F.headers_nil, List.mem_singleton] at hmem
            cases hmem with
            | inl hmem => exact h.headers h' hmem
            | inr heq => rw [heq]; exact hm
          · rw [hwire, F.rest_append, hrest, List.nil_append, F.rest_of_next hnext]
            exact F.rest_of_next_none (F.next_of_header_none F.header_nil)
      | inr hcut =>
          -- what is on the wire of the frame ends it, with the connection
          obtain ⟨rfl, hsock, part, hpre, hlt, hwire⟩ := hcut
          dsimp only at hsock
          obtain ⟨hnext, hheaders⟩ := F.next_of_truncated hlen hdec hpre hlt
          refine ⟨?_, fun h' hmem => ?_, by simp [hsock], ?_, by simp [hsock]⟩
          · rw [hwire, F.split_append, hrest, List.nil_append, F.split_of_next_none hnext,
              List.append_nil, h.split]
            simp [sentMsgs]
          · rw [hwire] at hmem
            have hmem := F.mem_headers_append hmem
            rw [hrest, List.nil_append] at hmem
            cases hmem with
            | inl hmem => exact h.headers h' hmem
            | inr hmem => rw [hheaders h' hmem]; exact hm
          · simpa [sentMsgs, calledMsgs] using h.called.trans (List.prefix_append _ _)

/-- Nothing is sent by reading. -/
theorem Conveys.of_read (h : Conveys F srv tr) {srv' : TcpServer} (hwire : srv'.wire = srv.wire)
    (hsock : srv'.clientSock.isSome → srv.clientSock.isSome) (ms : List Message) :
    Conveys F srv' (tr ++ ms.map .read) := by
  have hsent : sentMsgs (tr ++ ms.map .read) = sentMsgs tr := by simp
  have hcalled : calledMsgs (tr ++ ms.map .read) = calledMsgs tr := by simp
  refine ⟨?_, ?_, fun hs => ?_, ?_, fun hs => ?_⟩
  · rw [hwire, hsent, h.split]
  · rw [hwire]
    exact h.headers
  · rw [hwire, h.rest (hsock hs)]
  · rw [hsent, hcalled]
    exact h.called
  · rw [hsent, hcalled, h.all (hsock hs)]

/-- Nothing is read by sending. -/
theorem Hears.of_call (h : Hears bs₀ srv tr) {srv' : TcpServer}
    (hsock : ∀ s, srv'.clientSock = some s → srv.clientSock = some s) {os : List ConnEvent}
    (hos : readMsgs os = []) : Hears bs₀ srv' (tr ++ os) := by
  have hread : readMsgs (tr ++ os) = readMsgs tr := by rw [readMsgs_append, hos, List.append_nil]
  constructor
  · rw [hread]
    exact h.read
  · rw [hread]
    exact fun s hs => h.unread s (hsock s hs)

/-- **Step lemma**, of a `ReadFrame` call. -/
theorem hears_readFrame (h : Hears bs₀ srv tr) {type : UInt16} {payload : List UInt8}
    {readable : Bool} {r : ReadResult} (hr : readFrame srv type payload readable = r) :
    Hears bs₀ r.srv (tr ++ if r.ret then [.read (r.type, r.payload)] else []) := by
  cases hs : srv.clientSock with
  | none =>
      obtain rfl : ⟨false, srv, type, payload⟩ = r := by simpa [readFrame, hs] using hr
      simpa using h
  | some s =>
      obtain ⟨hunread, hlen⟩ := h.unread s hs
      cases readable with
      | false =>
          obtain rfl : ⟨false, srv, type, payload⟩ = r := by simpa [readFrame, hs] using hr
          simpa using h
      | true =>
          have hsize : ¬ Oversize (flatten s) := by
            rintro ⟨h', hh, hge⟩
            have hlt := hlen h' (wireFraming.mem_headers_of_header hh)
            omega
          cases hnext : wireFraming.next (flatten s) with
          | none =>
              obtain ⟨hret, hsrv⟩ := readFrame_of_next_none hs hsize hnext type payload
              rw [hr] at hret hsrv
              rw [hret, hsrv, if_neg (by decide), List.append_nil]
              exact ⟨h.read, fun s' hnone => by cases hnone⟩
          | some f =>
              obtain ⟨⟨t, p⟩, rest⟩ := f
              obtain ⟨s', hs', heq⟩ := readFrame_of_next hs hsize hnext type payload
              obtain rfl := heq.symm.trans hr
              have hreads : readMsgs (tr ++ [.read (t, p)]) ++ wireFraming.split (flatten s') =
                  wireFraming.split bs₀ := by
                rw [← hunread, wireFraming.split_of_next hnext, hs', readMsgs_append,
                  List.append_assoc]
                rfl
              rw [if_pos rfl]
              refine ⟨⟨_, hreads⟩, ?_⟩
              rintro _ ⟨⟩
              refine ⟨hreads, fun h' hmem => ?_⟩
              rw [hs'] at hmem
              exact hlen h' (wireFraming.mem_headers_of_next hnext hmem)

/-! ## a turn -/

/-- A `SendFrame` call keeps the client exactly when it returns true. -/
theorem clientSock_call (send : Nat → Int) (srv : TcpServer) (m : Message) (us : UInt64) :
    ((call send srv m us).1 = true ∧ (call send srv m us).2.1.clientSock = srv.clientSock ∧
        srv.clientSock.isSome) ∨
      ((call send srv m us).1 = false ∧ (call send srv m us).2.1.clientSock = none) := by
  simp only [call, sendFrame]
  split
  · next hs => exact .inr ⟨rfl, hs⟩
  · next hs =>
      have hthere : srv.clientSock.isSome := by rw [hs]; rfl
      split
      · exact .inr ⟨rfl, rfl⟩
      · split
        · exact .inl ⟨rfl, rfl, hthere⟩
        · split
          · exact .inr ⟨rfl, rfl⟩
          · exact .inl ⟨rfl, rfl, hthere⟩

theorem call_frame (send : Nat → Int) (srv : TcpServer) (m : Message) (us : UInt64) {s : Socket}
    (h : (call send srv m us).2.1.clientSock = some s) :
    (call send srv m us).1 = true ∧ srv.clientSock = some s := by
  cases clientSock_call send srv m us with
  | inl hsent => exact ⟨hsent.1, hsent.2.1.symm.trans h⟩
  | inr hcut =>
      rw [hcut.2] at h
      contradiction

/-- What a picture's frame is for the calls: at most one of them, and the client is the same. -/
theorem sendVideo_frame (send : Nat → Int) (srv : TcpServer) (us : UInt64)
    (v : Option VideoMessage) :
    readMsgs (sendVideo send srv us v).2.2 = [] ∧
      calledMsgs (sendVideo send srv us v).2.2 = v.toList.map VideoMessage.msg ∧
      ∀ s, (sendVideo send srv us v).2.1.clientSock = some s →
        (sendVideo send srv us v).1 = true ∧ srv.clientSock = some s := by
  cases v with
  | none => exact ⟨rfl, rfl, fun s hs => ⟨rfl, hs⟩⟩
  | some v => exact ⟨rfl, rfl, fun s hs => call_frame send srv v.msg us hs⟩

/-- The calls for the audio are for its frames, for all of them when the client stays. -/
theorem sendAudio_frame (send : Nat → Int) (srv : TcpServer)
    (audio : List (Option (List UInt8) × UInt64)) :
    readMsgs (sendAudio send srv audio).2 = [] ∧
      calledMsgs (sendAudio send srv audio).2 <+: (audio.filterMap Prod.fst).map audioMsg ∧
      ∀ s, (sendAudio send srv audio).1.clientSock = some s →
        calledMsgs (sendAudio send srv audio).2 = (audio.filterMap Prod.fst).map audioMsg ∧
          srv.clientSock = some s := by
  induction audio generalizing srv with
  | nil => exact ⟨rfl, List.prefix_refl _, fun s hs => ⟨rfl, hs⟩⟩
  | cons a audio ih =>
      obtain ⟨aacFrame, us⟩ := a
      cases aacFrame with
      | none => exact ih srv
      | some aacFrame =>
          have hone : calledMsgs (call send srv (audioMsg aacFrame) us).2.2 = [audioMsg aacFrame] :=
            rfl
          have hclient := fun s => @call_frame send srv (audioMsg aacFrame) us s
          obtain ⟨hread, hcalled, hall⟩ := ih (call send srv (audioMsg aacFrame) us).2.1
          rw [sendAudio]
          split
          · simp only [readMsgs_append, hread, calledMsgs_append, hone, List.singleton_append]
            refine ⟨rfl, List.cons_prefix_cons.mpr ⟨rfl, hcalled⟩, fun s hs => ?_⟩
            obtain ⟨hsent, hs⟩ := hall s hs
            exact ⟨by rw [hsent]; rfl, (hclient s hs).2⟩
          · next hret =>
              rw [hone]
              refine ⟨rfl, List.cons_prefix_cons.mpr ⟨rfl, List.nil_prefix⟩, fun s hs => ?_⟩
              exact absurd (hclient s hs).1 hret

theorem readFrame_frame (srv : TcpServer) (type : UInt16) (payload : List UInt8)
    (readable : Bool) :
    (readFrame srv type payload readable).srv.wire = srv.wire ∧
      ((readFrame srv type payload readable).srv.clientSock.isSome → srv.clientSock.isSome) := by
  unfold readFrame
  split
  · exact ⟨rfl, id⟩
  · next hs =>
      have hthere : srv.clientSock.isSome := by rw [hs]; rfl
      split
      · exact ⟨rfl, id⟩
      · split
        · exact ⟨rfl, fun _ => hthere⟩
        · dsimp only
          split
          · exact ⟨rfl, fun _ => hthere⟩
          · split
            · exact ⟨rfl, fun _ => hthere⟩
            · split <;> exact ⟨rfl, fun _ => hthere⟩

theorem readInbound_frame (srv : TcpServer) (type : UInt16) (payload : List UInt8)
    (polls : List Bool) :
    (readInbound srv type payload polls).2.1.wire = srv.wire ∧
      ((readInbound srv type payload polls).2.1.clientSock.isSome → srv.clientSock.isSome) := by
  induction polls generalizing srv type payload with
  | nil => exact ⟨rfl, id⟩
  | cons readable polls ih =>
      obtain ⟨hwire, hsock⟩ := readFrame_frame srv type payload readable
      simp only [readInbound]
      split
      · obtain ⟨hwire', hsock'⟩ := ih (readFrame srv type payload readable).srv
          (readFrame srv type payload readable).type (readFrame srv type payload readable).payload
        exact ⟨hwire'.trans hwire, fun h => hsock (hsock' h)⟩
      · exact ⟨hwire, hsock⟩

theorem conveys_sendVideo (send : Nat → Int) (hF : ReadsHostHeaders F) (h : Conveys F srv tr)
    (us : UInt64) {v : Option VideoMessage} (hv : ∀ m ∈ v, Fits m.msg) :
    Conveys F (sendVideo send srv us v).2.1 (tr ++ (sendVideo send srv us v).2.2) := by
  cases v with
  | none => simpa [sendVideo] using h
  | some m => exact conveys_call send hF h (hv m rfl) us

theorem conveys_sendAudio (send : Nat → Int) (hF : ReadsHostHeaders F) (h : Conveys F srv tr)
    {audio : List (Option (List UInt8) × UInt64)}
    (hlen : ∀ a ∈ audio, ∀ aacFrame ∈ a.1, Fits (audioMsg aacFrame)) :
    Conveys F (sendAudio send srv audio).1 (tr ++ (sendAudio send srv audio).2) := by
  induction audio generalizing srv tr with
  | nil => simpa [sendAudio] using h
  | cons a audio ih =>
      rw [List.forall_mem_cons] at hlen
      obtain ⟨aacFrame, us⟩ := a
      cases aacFrame with
      | none => exact ih h hlen.2
      | some aacFrame =>
          have hcall := conveys_call send hF h (hlen.1 aacFrame rfl) us
          rw [sendAudio]
          split
          · rw [← List.append_assoc]
            exact ih hcall hlen.2
          · exact hcall

theorem conveys_readInbound (h : Conveys F srv tr) (type : UInt16) (payload : List UInt8)
    (polls : List Bool) :
    Conveys F (readInbound srv type payload polls).2.1
      (tr ++ (readInbound srv type payload polls).1.map .read) := by
  obtain ⟨hwire, hsock⟩ := readInbound_frame srv type payload polls
  exact h.of_read hwire hsock (readInbound srv type payload polls).1

theorem hears_readInbound (h : Hears bs₀ srv tr) (type : UInt16) (payload : List UInt8)
    (polls : List Bool) :
    Hears bs₀ (readInbound srv type payload polls).2.1
      (tr ++ (readInbound srv type payload polls).1.map .read) := by
  induction polls generalizing srv tr type payload with
  | nil => simpa [readInbound] using h
  | cons readable polls ih =>
      have hread := hears_readFrame h (rfl : readFrame srv type payload readable = _)
      simp only [readInbound]
      split
      · next hret =>
          rw [if_pos hret] at hread
          have hrest := ih hread (readFrame srv type payload readable).type
            (readFrame srv type payload readable).payload
          rwa [List.append_assoc] at hrest
      · next hret => simpa [hret] using hread

/-- The messages of a turn fit, and its codec is below the sign bit of a byte. -/
structure ConnTurn.Fits (cfg : Config) (s : Loop) (t : ConnTurn) : Prop where
  video : ∀ v ∈ t.video cfg s, Host.Fits v.msg ∧ v.codec.toNat < 128
  audio : ∀ a ∈ t.audio, ∀ aacFrame ∈ a.1, Host.Fits (audioMsg aacFrame)

theorem conveys_turn (send : Nat → Int) (hF : ReadsHostHeaders F) {cfg : Config} {s : Connection}
    (h : Conveys F s.srv tr) {t : ConnTurn} (ht : t.Fits cfg s.loop) :
    Conveys F (connTurn send cfg s t).1.srv (tr ++ (connTurn send cfg s t).2) := by
  have hvideo := conveys_sendVideo send hF h t.videoUs fun v hv => (ht.video v hv).1
  simp only [connTurn]
  split
  · have haudio := conveys_sendAudio send hF hvideo ht.audio
    have hinbound := conveys_readInbound haudio s.type s.payload t.polls
    rwa [List.append_assoc, List.append_assoc] at hinbound
  · exact hvideo

theorem hears_turn (send : Nat → Int) (cfg : Config) {s : Connection} (h : Hears bs₀ s.srv tr)
    (t : ConnTurn) : Hears bs₀ (connTurn send cfg s t).1.srv (tr ++ (connTurn send cfg s t).2) := by
  obtain ⟨hread, -, hsock⟩ := sendVideo_frame send s.srv t.videoUs (t.video cfg s.loop)
  have hvideo := h.of_call (fun s hs => (hsock s hs).2) hread
  simp only [connTurn]
  split
  · obtain ⟨hread', -, hsock'⟩ :=
      sendAudio_frame send (sendVideo send s.srv t.videoUs (t.video cfg s.loop)).2.1 t.audio
    have haudio := hvideo.of_call (fun s hs => (hsock' s hs).2) hread'
    have hinbound := hears_readInbound haudio s.type s.payload t.polls
    rwa [List.append_assoc, List.append_assoc] at hinbound
  · exact hvideo

theorem turn_of_step {send : Nat → Int} {cfg : Config} {s s' : Connection} {t : ConnTurn}
    {os : List ConnEvent} (h : (connection send cfg).step s t = some (s', os)) :
    s.loop.running = true ∧ connTurn send cfg s t = (s', os) := by
  simpa [connection] using h

/-- A loop that runs has a turn. -/
theorem exists_run_turn (send : Nat → Int) (cfg : Config) {s : Connection}
    (h : s.loop.running = true) (t : ConnTurn) :
    ∃ s' os, (connection send cfg).run s [t] = some (s', os) := by
  have hstep : (connection send cfg).step s t = some (connTurn send cfg s t) := if_pos h
  exact ⟨_, _, (connection send cfg).run_of_step hstep ((connection send cfg).run_nil _)⟩

/-- **Run lemma**, of what is sent. -/
theorem conveys_run {send : Nat → Int} (hF : ReadsHostHeaders F) {cfg : Config}
    {s s' : Connection} {ts : List ConnTurn} {os : List ConnEvent} (h : Conveys F s.srv tr)
    (hts : (connection send cfg).Along (fun s t => t.Fits cfg s.loop) s ts)
    (hrun : (connection send cfg).run s ts = some (s', os)) : Conveys F s'.srv (tr ++ os) := by
  have hstep : ∀ s tr t s' os, Conveys F s.srv tr → t.Fits cfg s.loop →
      (connection send cfg).step s t = some (s', os) → Conveys F s'.srv (tr ++ os) := by
    intro s tr t s' os h ht hstep
    have hturn := conveys_turn send hF h ht
    rwa [(turn_of_step hstep).2] at hturn
  exact (connection send cfg).run_invariant hstep h hts hrun

/-- **Run lemma**, of what is read. -/
theorem hears_run {send : Nat → Int} {cfg : Config} {s s' : Connection} {ts : List ConnTurn}
    {os : List ConnEvent} (h : Hears bs₀ s.srv tr)
    (hrun : (connection send cfg).run s ts = some (s', os)) : Hears bs₀ s'.srv (tr ++ os) := by
  have hstep : ∀ s tr t s' os, Hears bs₀ s.srv tr → True →
      (connection send cfg).step s t = some (s', os) → Hears bs₀ s'.srv (tr ++ os) := by
    intro s tr t s' os h _ hstep
    have hturn := hears_turn send cfg h t
    rwa [(turn_of_step hstep).2] at hturn
  exact (connection send cfg).run_invariant hstep h ((connection send cfg).along_true s ts) hrun

/-! ## the handshake -/

/-- Where the loop is entered, the client's handshake has been read and acknowledged. -/
structure Entered (cfg : Config) (s : Connection) (os : List ConnEvent) : Prop where
  loop : s.loop = cfg.entry
  client : s.srv.clientSock.isSome
  sent : sentMsgs os = [(spMsgHandshakeAck, (handshakeAck cfg).bytes)]
  called : calledMsgs os = [(spMsgHandshakeAck, (handshakeAck cfg).bytes)]
  read : ∃ payload, spHandshakeSize ≤ payload.length ∧ readMsgs os = [(spMsgHandshake, payload)]

/-- The loop is entered, or `main` returns with nothing sent. -/
theorem greet_cases (send : Nat → Int) (cfg : Config) (srv : TcpServer) (readable : Bool)
    (us : UInt64) :
    Entered cfg (greet send cfg srv readable us).1 (greet send cfg srv readable us).2 ∨
      ((greet send cfg srv readable us).1.loop.running = false ∧
        sentMsgs (greet send cfg srv readable us).2 = []) := by
  simp only [greet]
  split
  · split
    · exact .inr ⟨rfl, rfl⟩
    · next hshake =>
        rw [not_or, not_not, Nat.not_lt] at hshake
        have hcall := clientSock_call send (readFrame srv 0 [] readable).srv
          (spMsgHandshakeAck, (handshakeAck cfg).bytes) us
        cases hcall with
        | inl hsent =>
            refine .inl ⟨by rw [hsent.1]; rfl, ?_, ?_, rfl, _, hshake.2, ?_⟩
            · rw [hsent.2.1]
              exact hsent.2.2
            · simp only [call] at hsent ⊢
              rw [hsent.1]
              rfl
            · rw [← hshake.1]
              rfl
        | inr hcut =>
            refine .inr ⟨hcut.1, ?_⟩
            simp only [call] at hcut ⊢
            rw [hcut.1]
            rfl
  · exact .inr ⟨rfl, rfl⟩

/-- The loop is entered for a client that starts with a handshake, when the acknowledgement can be
sent. -/
theorem greet_enters {send : Nat → Int} (hsend : ∀ i, 0 < send i) (cfg : Config) (srv : TcpServer)
    {sock : Socket} {payload rest : List UInt8} (hsize : spHandshakeSize ≤ payload.length)
    (hlen : payload.length < 2 ^ 31)
    (hnext : wireFraming.next (flatten sock) = some ((spMsgHandshake, payload), rest))
    (us : UInt64) :
    Entered cfg (greet send cfg (srv.accepted sock) true us).1
      (greet send cfg (srv.accepted sock) true us).2 := by
  have hfits : ¬ Oversize (flatten sock) := by
    rintro ⟨h, hh, hge⟩
    rw [wireFraming.header_of_next hnext] at hh
    cases hh
    omega
  have hsock : (srv.accepted sock).clientSock = some sock := rfl
  obtain ⟨sock', -, hread⟩ := readFrame_of_next hsock hfits hnext 0 []
  generalize hsrv : ({ srv.accepted sock with clientSock := some sock' } : TcpServer) = srv'
    at hread
  have hsock' : srv'.clientSock = some sock' := by rw [← hsrv]
  have hack : (handshakeAck cfg).bytes.length < 2 ^ 31 := by simp
  obtain ⟨-, -, hret⟩ := sendFrame_law send hsock' spMsgHandshakeAck hack us
  have hsent : (call send srv' (spMsgHandshakeAck, (handshakeAck cfg).bytes) us).1 = true :=
    hret fun i _ _ => hsend i
  cases greet_cases send cfg (srv.accepted sock) true us with
  | inl hentered => exact hentered
  | inr hleft =>
      have hrunning := hleft.1
      simp only [greet, hread, if_true] at hrunning
      rw [if_neg (by simp; omega)] at hrunning
      rw [hsent] at hrunning
      contradiction

theorem conveys_greet (send : Nat → Int) (hF : ReadsHostHeaders F) (cfg : Config)
    (h : Conveys F srv []) (readable : Bool) (us : UInt64) :
    Conveys F (greet send cfg srv readable us).1.srv (greet send cfg srv readable us).2 := by
  obtain ⟨hwire, hsock⟩ := readFrame_frame srv 0 [] readable
  have hread := h.of_read hwire hsock
  simp only [greet]
  split
  · have hone := hread
      [((readFrame srv 0 [] readable).type, (readFrame srv 0 [] readable).payload)]
    split
    · exact hone
    · exact conveys_call send hF hone (by simp [Fits]) us
  · exact hread []

theorem hears_greet (send : Nat → Int) (cfg : Config) (h : Hears bs₀ srv []) (readable : Bool)
    (us : UInt64) :
    Hears bs₀ (greet send cfg srv readable us).1.srv (greet send cfg srv readable us).2 := by
  have hread := hears_readFrame h (rfl : readFrame srv 0 [] readable = _)
  simp only [greet]
  split
  · next hret =>
      rw [if_pos hret] at hread
      split
      · exact hread
      · exact hread.of_call (fun s hs => (call_frame send _ _ us hs).2) rfl
  · next hret => simpa [hret] using hread

end

end TwinScreen.Host
