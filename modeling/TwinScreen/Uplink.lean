import TwinScreen.Downlink
import TwinScreen.Tablet.Handshake
import TwinScreen.Touch

/-!
# TwinScreen.Uplink

The tablet's `sendRaw` calls, in the order in which they get the stream, and what `main` does
with them.

* `uplink` — what is read, injected and asked of the encoder is a prefix of what was sent, and
  the loop is entered only behind a handshake.
-/

namespace TwinScreen

open Lib Host Tablet

/-! ## what the tablet sends -/

/-- A call of `sendRaw`: the one of `tryConnect`, `requestKeyframe` or `sendInputBatch`. -/
inductive Outgoing
  | handshake (caps screenW screenH : Int) (deviceName : List UInt16)
  | keyframeRequest
  | inputBatch (events : List InputEvent)
  deriving DecidableEq

/-- The header and the payload that `sendRaw` gets. -/
def Outgoing.packed : Outgoing → Except Throwable (List UInt8 × List UInt8)
  | .handshake caps screenW screenH deviceName => do
      let header ← packHeader spMsgHandshake.toNat (toInt handshakeSize) 0 0
      let payload ← packHandshake caps screenW screenH deviceName
      return (header, payload)
  | .keyframeRequest => do
      let header ← packHeader spMsgKeyframeReq.toNat (toInt 0) 0 0
      return (header, [])
  | .inputBatch events => do
      let header ← packHeader spMsgInputBatch.toNat (toInt (4 + events.length * 12)) 0 0
      let payload ← packInputBatch events
      return (header, payload)

/-- The bytes that the calls write; a call holds the stream until its frame is written. -/
def sendRaws : List Outgoing → Except Throwable (List UInt8)
  | [] => .ok []
  | o :: sent => do
      let (header, payload) ← o.packed
      let bytes ← sendRaws sent
      return rawBytes header payload ++ bytes

def Outgoing.type : Outgoing → UInt16
  | .handshake _ _ _ _ => spMsgHandshake
  | .keyframeRequest => spMsgKeyframeReq
  | .inputBatch _ => spMsgInputBatch

/-- The payload, when it is packed. -/
def Outgoing.payload : Outgoing → List UInt8
  | .handshake caps screenW screenH deviceName =>
      match packHandshake caps screenW screenH deviceName with
      | .ok payload => payload
      | .error _ => []
  | .keyframeRequest => []
  | .inputBatch events => inputBatchBytes (events.map InputEvent.struct)

def Outgoing.message (o : Outgoing) : Message := (o.type, o.payload)

/-- The events of a call. -/
def Outgoing.events : Outgoing → List InputEvent
  | .inputBatch events => events
  | _ => []

/-- A size that an `Int` holds. -/
def Outgoing.Fits : Outgoing → Prop
  | .inputBatch events => 4 + 12 * events.length < 2 ^ 31
  | _ => True

/-! ## its bytes -/

/-- The frame of a call. -/
def Outgoing.frame (o : Outgoing) : List UInt8 :=
  (sentHeader o.type o.payload.length).bytes ++ o.payload

/-- A handshake that is packed has its size. -/
theorem length_packHandshake {caps screenW screenH : Int} {deviceName : List UInt16}
    {payload : List UInt8} (h : packHandshake caps screenW screenH deviceName = .ok payload) :
    payload.length = handshakeSize := by
  by_cases hfits : utf8Width (deviceName.take 31) ≤ 32
  · rw [packHandshake_eq hfits] at h
    cases h
    simp only [List.length_append, length_handshakeFields, length_utf8, List.length_replicate,
      handshakeSize]
    omega
  · rw [packHandshake_overflows (by omega)] at h
    contradiction

/-- A call that packs writes its frame. -/
theorem Outgoing.packed_eq {o : Outgoing} (ho : o.Fits) {p : List UInt8 × List UInt8}
    (h : o.packed = .ok p) : rawBytes p.1 p.2 = o.frame ∧ o.payload.length < 2 ^ 31 := by
  cases o with
  | handshake caps screenW screenH deviceName =>
      rw [packed, packHeader_eq spMsgHandshake (by decide)] at h
      cases hpack : packHandshake caps screenW screenH deviceName with
      | error e =>
          rw [hpack] at h
          contradiction
      | ok payload =>
          rw [hpack] at h
          cases h
          have hlen := length_packHandshake hpack
          have hpayload : (Outgoing.handshake caps screenW screenH deviceName).payload =
              payload := by
            rw [Outgoing.payload, hpack]
          rw [rawBytes_eq, frame, hpayload, hlen]
          exact ⟨rfl, by decide⟩
  | keyframeRequest =>
      have hheader : packHeader spMsgKeyframeReq.toNat (toInt 0) 0 0 =
          .ok (sentHeader spMsgKeyframeReq 0).bytes := packHeader_eq spMsgKeyframeReq (by decide)
      rw [packed, hheader] at h
      cases h
      rw [rawBytes_eq]
      exact ⟨rfl, by decide⟩
  | inputBatch events =>
      rw [packed, packHeader_inputBatch ho, packInputBatch_eq ho] at h
      cases h
      have hlen := length_sentBatch events
      rw [rawBytes_eq, frame, Outgoing.payload, hlen]
      exact ⟨rfl, ho⟩

theorem Outgoing.next_frame {o : Outgoing} (h : o.payload.length < 2 ^ 31) (rest : List UInt8) :
    wireFraming.next (o.frame ++ rest) = some (o.message, rest) := by
  have hdec : wireFraming.decode (sentHeader o.type o.payload.length).bytes =
      some (o.type, o.payload.length) := by
    have hlen := payloadLen_sentHeader o.type h
    simp only [wireFraming, SpHeader.ofBytes_bytes, hlen]
    rfl
  exact wireFraming.next_encode (SpHeader.length_bytes _) hdec rest

/-- **What the calls write**, as the protocol reads it. -/
theorem split_sendRaws {sent : List Outgoing} {bytes : List UInt8} (hfits : ∀ o ∈ sent, o.Fits)
    (h : sendRaws sent = .ok bytes) :
    wireFraming.split bytes = sent.map Outgoing.message ∧
      ∀ h ∈ wireFraming.headers bytes, h.2 < 2 ^ 31 := by
  have hall : bytes = sent.flatMap Outgoing.frame ∧ ∀ o ∈ sent, o.payload.length < 2 ^ 31 := by
    induction sent generalizing bytes with
    | nil =>
        cases h
        exact ⟨rfl, nofun⟩
    | cons o sent ih =>
        rw [List.forall_mem_cons] at hfits
        rw [sendRaws] at h
        cases hpacked : o.packed with
        | error e =>
            rw [hpacked] at h
            contradiction
        | ok p =>
            rw [hpacked] at h
            cases hrest : sendRaws sent with
            | error e =>
                rw [hrest] at h
                contradiction
            | ok bytes' =>
                rw [hrest] at h
                cases h
                obtain ⟨hframe, hlen⟩ := Outgoing.packed_eq hfits.1 hpacked
                obtain ⟨hbytes, hlens⟩ := ih hfits.2 hrest
                rw [List.flatMap_cons, hframe, hbytes, List.forall_mem_cons]
                exact ⟨rfl, hlen, hlens⟩
  obtain ⟨rfl, hlens⟩ := hall
  obtain ⟨hsplit, hheaders⟩ := wireFraming.split_flatMap fun o ho =>
    Outgoing.next_frame (hlens o ho)
  refine ⟨hsplit, fun h hmem => ?_⟩
  rw [hheaders] at hmem
  obtain ⟨o, ho, rfl⟩ := List.mem_map.mp hmem
  exact hlens o ho

/-! ## what the host does with it -/

/-- What a call asks of the encoder. -/
def Outgoing.order : Outgoing → Option LoopEvent
  | .keyframeRequest => some .keyframeRequested
  | _ => none

/-- A payload that is not a batch's is not injected. -/
theorem dispatch_message (o : Outgoing) :
    inboundOrder o.message = o.order ∧
      (dispatch o.message.1 o.message.2 = .injectBatch ↔ ∃ events, o = .inputBatch events) := by
  cases o with
  | handshake caps screenW screenH deviceName =>
      have hdispatch : dispatch spMsgHandshake (Outgoing.handshake caps screenW screenH
          deviceName).payload = .nothing := by
        simp [dispatch, spMsgHandshake, spMsgInputBatch, spMsgKeyframeReq, spMsgControl]
      constructor
      · simp only [inboundOrder, Outgoing.message, Outgoing.type, hdispatch]
        rfl
      · simp [Outgoing.message, Outgoing.type, hdispatch]
  | keyframeRequest => exact ⟨rfl, by simp [dispatch_eq_injectBatch_iff]; decide⟩
  | inputBatch events =>
      have hdispatch : dispatch spMsgInputBatch (Outgoing.inputBatch events).payload =
          .injectBatch := by
        rw [dispatch_eq_injectBatch_iff, Outgoing.payload, length_inputBatchBytes]
        exact ⟨rfl, by omega⟩
      constructor
      · simp only [inboundOrder, Outgoing.message, Outgoing.type, hdispatch]
        rfl
      · simp [Outgoing.message, Outgoing.type, hdispatch]

/-- The events of the calls are injected, and nothing else. -/
theorem injections_messages (inj : InputInjector) (scr : VirtualScreen) (beyond : Memory)
    {sent : List Outgoing} (h : ∀ o ∈ sent, o.Fits) :
    injections inj scr beyond (sent.map Outgoing.message) =
      (sent.flatMap Outgoing.events).filterMap fun event => injectEvent inj scr event.struct := by
  induction sent with
  | nil => rfl
  | cons o sent ih =>
      rw [List.forall_mem_cons] at h
      have hone : injections inj scr beyond [o.message] =
          o.events.filterMap fun event => injectEvent inj scr event.struct := by
        have hdispatch := (dispatch_message o).2
        cases o with
        | inputBatch events =>
            have hfit : Fit [events] := fun _ hmem => by
              rw [List.mem_singleton.mp hmem]
              exact h.1
            have hbatch := injections_batches inj scr beyond hfit
            rwa [List.flatten_cons, List.flatten_nil, List.append_nil] at hbatch
        | handshake caps screenW screenH deviceName =>
            simp [injections, hdispatch, Outgoing.events]
        | keyframeRequest => simp [injections, hdispatch, Outgoing.events]
      have hcons : injections inj scr beyond (o.message :: sent.map Outgoing.message) =
          injections inj scr beyond [o.message] ++
            injections inj scr beyond (sent.map Outgoing.message) := by
        simp [injections]
      rw [List.map_cons, hcons, hone, ih h.2, List.flatMap_cons, List.filterMap_append]

/-- A server on a stream whose lengths fit. -/
theorem hears_accepted (srv : TcpServer) {sock : Socket}
    (h : ∀ h ∈ wireFraming.headers (flatten sock), h.2 < 2 ^ 31) :
    Hears (flatten sock) (srv.accepted sock) [] := by
  refine ⟨List.nil_prefix, ?_⟩
  rintro _ ⟨⟩
  exact ⟨rfl, h⟩

/-- What `main` has made of the calls behind the handshake when it has read `k` of them. -/
structure Answered (rest : List Outgoing) (k : Nat) (log : List LoopEvent)
    (os : List ConnEvent) : Prop where
  read : readMsgs os = (rest.take k).map Outgoing.message
  orders : ordersOf log = (rest.take k).filterMap Outgoing.order
  injected : ∀ inj scr beyond, injections inj scr beyond (readMsgs os) =
    ((rest.take k).flatMap Outgoing.events).filterMap fun event => injectEvent inj scr event.struct

/-- **Uplink.**  Let the tablet make any calls, and let any part of their bytes arrive.  If `main`
enters its loop, the first of them is the handshake, and after any turns `main` has read the next
`k`, injected the events of those and asked the encoder for what those ask; all of them, when all
has arrived and nothing is left in the socket. -/
theorem uplink (send : Nat → Int) (cfg : Config) (srv : TcpServer) {sent : List Outgoing}
    (hfits : ∀ o ∈ sent, o.Fits) {bytes : List UInt8} (hbytes : sendRaws sent = .ok bytes)
    {sock : Socket} (hsock : flatten sock <+: bytes) (readable : Bool) (us : UInt64)
    (hentered : (greet send cfg (srv.accepted sock) readable us).1.loop.running = true)
    {ts : List ConnTurn} {s' : Connection} {os : List ConnEvent}
    (hrun : (connection send cfg).run (greet send cfg (srv.accepted sock) readable us).1 ts =
      some (s', os)) :
    ∃ first rest k is log, sent = first :: rest ∧ first.type = spMsgHandshake ∧
      RunIs cfg cfg.entry is (ts.flatMap ConnTurn.aacFrames) s'.loop log os ∧
      Answered rest k log os ∧
      (flatten sock = bytes → (∃ s, s'.srv.clientSock = some s ∧ flatten s = []) →
        k = rest.length) := by
  obtain ⟨hsplit, hheaders⟩ := split_sendRaws hfits hbytes
  have hlens : ∀ h ∈ wireFraming.headers (flatten sock), h.2 < 2 ^ 31 := by
    obtain ⟨xs, rfl⟩ := hsock
    exact fun h hmem => hheaders h (wireFraming.headers_subset_append _ xs hmem)
  have hears := hears_run (hears_greet send cfg (hears_accepted srv hlens) readable us) hrun
  have hcases := greet_cases send cfg (srv.accepted sock) readable us
  generalize greet send cfg (srv.accepted sock) readable us = g at *
  obtain ⟨g, gos⟩ := g
  dsimp only at *
  cases hcases with
  | inr hleft =>
      rw [hleft.1] at hentered
      contradiction
  | inl hin =>
      obtain ⟨payload, -, hhello⟩ := hin.read
      have hread := hears.read.trans (wireFraming.split_isPrefix hsock)
      rw [readMsgs_append, hhello, hsplit] at hread
      cases sent with
      | nil => exact absurd (List.prefix_nil.mp hread) (List.cons_ne_nil _ _)
      | cons first rest =>
          rw [List.map_cons, List.singleton_append, List.cons_prefix_cons] at hread
          obtain ⟨hfirst, hread⟩ := hread
          obtain ⟨is, log, hrunIs, -⟩ := mainLoop_run (P := fun _ => True) hrun
            ((connection send cfg).along_mono (fun _ _ _ _ _ => trivial)
              ((connection send cfg).along_true g ts))
          rw [hin.loop] at hrunIs
          have htake : readMsgs os = (rest.take (readMsgs os).length).map Outgoing.message := by
            obtain ⟨l, hl⟩ := hread
            rw [List.map_take, ← hl, List.take_left]
          have hfits' : ∀ o ∈ rest.take (readMsgs os).length, o.Fits := fun o ho =>
            hfits o (List.mem_cons_of_mem _ (List.mem_of_mem_take ho))
          refine ⟨first, rest, (readMsgs os).length, is, log, rfl, ?_, hrunIs, ⟨htake, ?_, ?_⟩, ?_⟩
          · exact congrArg Prod.fst hfirst.symm
          · rw [hrunIs.orders, htake, List.filterMap_map, ← htake]
            exact List.filterMap_congr fun o _ => (dispatch_message o).1
          · intro inj scr beyond
            rw [htake, injections_messages inj scr beyond hfits', ← htake]
          · rintro hall ⟨s, hs, hnil⟩
            obtain ⟨hunread, -⟩ := hears.unread s hs
            rw [hnil, wireFraming.split_nil, List.append_nil, hall, hsplit, readMsgs_append,
              hhello] at hunread
            have hlen := congrArg List.length hunread
            simpa using hlen

/-- A handshake, and a request behind it. -/
def helloAndRequest : List Outgoing := [.handshake 3 1920 1200 [0x54], .keyframeRequest]

/-- A turn without a picture, in which the socket is readable once. -/
def readTurn : ConnTurn where
  captured := false
  resize := true
  scale := ⟨true, true, true⟩
  encode := none
  videoUs := 0
  sendMs := 0
  audio := []
  polls := [true]

theorem uplink_helloAndRequest :
    ∃ bytes, sendRaws helloAndRequest = .ok bytes ∧
      ∃ s' os, (connection sevenBytes fullHd).run
          (greet sevenBytes fullHd ((⟨none, 0, 1, [], 0⟩ : TcpServer).accepted (arrive bytes)) true
            10).1 [readTurn] = some (s', os) ∧
        ∃ k log, Answered [.keyframeRequest] k log os := by
  have hwidth : utf8Width (([0x54] : List UInt16).take 31) ≤ 32 := by decide
  have hpacked : ∃ bytes, sendRaws helloAndRequest = .ok bytes := by
    have hheader : packHeader spMsgKeyframeReq.toNat (toInt 0) 0 0 =
        .ok (sentHeader spMsgKeyframeReq 0).bytes := packHeader_eq spMsgKeyframeReq (by decide)
    rw [helloAndRequest, sendRaws, sendRaws, Outgoing.packed, Outgoing.packed, hheader,
      packHeader_eq spMsgHandshake (by decide), packHandshake_eq hwidth]
    exact ⟨_, rfl⟩
  obtain ⟨bytes, hbytes⟩ := hpacked
  have hfits : ∀ o ∈ helloAndRequest, o.Fits := by
    simp [helloAndRequest, Outgoing.Fits]
  have hsplit := (split_sendRaws hfits hbytes).1
  rw [← flatten_arrive bytes] at hsplit
  have hlen : (Outgoing.handshake 3 1920 1200 [0x54]).payload.length = 42 := by
    rw [Outgoing.payload, packHandshake_eq hwidth]
    decide
  cases hnext : wireFraming.next (flatten (arrive bytes)) with
  | none =>
      rw [wireFraming.split_of_next_none hnext] at hsplit
      contradiction
  | some f =>
      obtain ⟨f, rest⟩ := f
      rw [wireFraming.split_of_next hnext] at hsplit
      obtain ⟨rfl, -⟩ := List.cons.inj hsplit
      have hsend : ∀ i, 0 < sevenBytes i := fun i => show (0 : Int) < 7 by decide
      have hentered := greet_enters hsend fullHd ⟨none, 0, 1, [], 0⟩ (Nat.le_of_eq hlen.symm)
        (by rw [hlen]; decide) hnext 10
      have hrunning := congrArg Loop.running hentered.loop
      obtain ⟨s', os, hrun⟩ := exists_run_turn sevenBytes fullHd hrunning readTurn
      have hall : flatten (arrive bytes) <+: bytes := by
        simp [flatten_arrive]
      obtain ⟨first, rest, k, -, log, hsent, -, -, hanswered, -⟩ :=
        uplink sevenBytes fullHd ⟨none, 0, 1, [], 0⟩ hfits hbytes hall true 10 hrunning hrun
      cases hsent
      exact ⟨bytes, hbytes, s', os, hrun, k, log, hanswered⟩

end TwinScreen
