import TwinScreen.Lib.Chunks
import TwinScreen.Protocol

/-!
# TwinScreen.Host.Server

`host/src/net/server.cpp`: the blocking TCP server.  A connection is what
`recv` will still return, as a list of arrivals, and the bytes `send` has taken
so far; closing the socket forgets the first and keeps the second, which are on
their way.

* `recvExact` / `readFrame` — the receiving side.  `readFrameLaw_iff` says
  for which streams a call keeps the framing, `readFrames_eq_split` that
  successive calls then read the reference framing of `protocol.md`.
* `sendAll` / `sendFrame` — the sending side.  `split_wire_sendFrames` reads the
  bytes of a run of calls back as the calls that returned true.
-/

namespace TwinScreen.Host

open Lib

/-- `static_cast<int>` of a 32-bit length. -/
def staticCastInt (n : UInt32) : Int := (n.toNat : Int).bmod (2 ^ 32)

theorem staticCastInt_of_lt {n : UInt32} (h : n.toNat < 2 ^ 31) : staticCastInt n = n.toNat :=
  (bmod_of_lt n.toNat_lt).trans (if_pos (by omega))

theorem staticCastInt_neg {n : UInt32} (h : 2 ^ 31 ≤ n.toNat) : staticCastInt n < 0 := by
  have hlt := n.toNat_lt
  have hwrap : staticCastInt n = n.toNat - (2 ^ 32 : Nat) :=
    (bmod_of_lt hlt).trans (if_neg (by omega))
  rw [hwrap]
  omega

/-- `std::vector::resize`: the front is kept, new elements are zero. -/
def resize (v : List UInt8) (n : Nat) : List UInt8 := v.take n ++ List.replicate (n - v.length) 0

@[simp] theorem length_resize (v : List UInt8) (n : Nat) : (resize v n).length = n := by
  simp [resize]; omega

/-- Bytes copied to the front of a buffer. -/
def overwrite (v bs : List UInt8) : List UInt8 := bs ++ v.drop bs.length

theorem overwrite_of_length {v bs : List UInt8} (h : bs.length = v.length) :
    overwrite v bs = bs := by
  simp [overwrite, h]

/-! ## the server -/

/-- What a socket will still return to `recv`; a failure of the connection is
the end of the stream. -/
abbrev Socket := List (Chunk UInt8)

/-- `TcpServer`, with what the connection has taken from `send`. -/
structure TcpServer where
  /-- `client_sock_`; `none` is `INVALID_SOCKET`. -/
  clientSock : Option Socket
  seq : UInt32
  ts0Ns : UInt64
  /-- Bytes accepted by `send` on this connection. -/
  wire : List UInt8
  /-- Number of `send` calls made on this connection. -/
  sends : Nat

/-- `Disconnect`. -/
def TcpServer.disconnect (srv : TcpServer) : TcpServer := { srv with clientSock := none }

/-- The server with an accepted client. -/
def TcpServer.accepted (srv : TcpServer) (s : Socket) : TcpServer :=
  { srv with clientSock := some s }

/-! ## receiving -/

/-- The loop of `recv_exact` with `got` bytes in the buffer. -/
def recvExactFrom (len : Int) (got : List UInt8) (s : Socket) : Option (List UInt8 × Socket) :=
  if (got.length : Int) < len then
    -- r = ::recv(s, p + got, len - got, 0); nothing read means r <= 0
    if (read (len - got.length).toNat s).1 = [] then
      none
    else
      recvExactFrom len (got ++ (read (len - got.length).toNat s).1)
        (read (len - got.length).toNat s).2
  else
    some (got, s)
termination_by (len - got.length).toNat
decreasing_by
  have := List.length_pos_iff.mpr ‹¬(read (len - got.length).toNat s).1 = []›
  simp only [List.length_append]
  omega

/-- `recv_exact`. -/
def recvExact (s : Socket) (len : Int) : Option (List UInt8 × Socket) := recvExactFrom len [] s

/-- The result of a `ReadFrame` call: its value, the server, and the two output
parameters. -/
structure ReadResult where
  ret : Bool
  srv : TcpServer
  type : UInt16
  payload : List UInt8

/-- `TcpServer::ReadFrame`; `readable` is the outcome of `select`.  When the stream ends inside
a payload, the code leaves in its buffer what has arrived, and the model does not; no caller
reads the payload of a call that fails. -/
def readFrame (srv : TcpServer) (type : UInt16) (payload : List UInt8) (readable : Bool) :
    ReadResult :=
  match srv.clientSock with
  | none => ⟨false, srv, type, payload⟩
  | some s =>
      if readable = false then
        ⟨false, srv, type, payload⟩
      else
        match recvExact s SpHeader.size with
        | none => ⟨false, srv.disconnect, type, payload⟩
        | some (hdr, s) =>
            let h := SpHeader.ofBytes hdr
            if h.magic ≠ spMagic ∨ h.version ≠ spVersion then
              ⟨false, srv.disconnect, type, payload⟩
            else
              let buf := resize payload h.payloadLen.toNat
              if h.payloadLen = 0 then
                ⟨true, { srv with clientSock := some s }, h.type, buf⟩
              else
                match recvExact s (staticCastInt h.payloadLen) with
                | none => ⟨false, srv.disconnect, h.type, buf⟩
                | some (bs, s) =>
                    ⟨true, { srv with clientSock := some s }, h.type, overwrite buf bs⟩

/-- The loop of `recv_exact` fills the rest of the buffer by repeated reads. -/
theorem recvExactFrom_eq (len : Int) (got : List UInt8) (s : Socket) :
    recvExactFrom len got s =
      (readExactly (len - got.length).toNat s).map fun (bs, s') => (got ++ bs, s') := by
  induction got, s using recvExactFrom.induct len with
  | case1 got s hlt hr =>
      have hpos : (len - got.length).toNat ≠ 0 := by omega
      rw [recvExactFrom, if_pos hlt, if_pos hr, readExactly, if_neg hpos, if_pos hr]
      rfl
  | case2 got s hlt hr ih =>
      have hpos : (len - got.length).toNat ≠ 0 := by omega
      have hle := length_read_le (len - got.length).toNat s
      have hrest : (len - ((got ++ (read (len - got.length).toNat s).1).length : Int)).toNat =
          (len - got.length).toNat - (read (len - got.length).toNat s).1.length := by
        simp only [List.length_append]
        omega
      rw [recvExactFrom, if_pos hlt, if_neg hr, ih, hrest]
      conv => rhs; rw [readExactly, if_neg hpos, if_neg hr]
      rw [Option.map_map]
      simp [Function.comp_def, List.append_assoc]
  | case3 got s hge =>
      have hzero : (len - got.length).toNat = 0 := by omega
      rw [recvExactFrom, if_neg hge, hzero, readExactly]
      simp

/-- `recv_exact` reads `len` bytes, and none when `len` is negative. -/
theorem recvExact_eq (s : Socket) (len : Int) : recvExact s len = readExactly len.toNat s := by
  rw [recvExact, recvExactFrom_eq]
  simp

/-! ## what a `ReadFrame` call does to the stream -/

/-- The law of a call that finds the socket readable: it returns the payload that
follows the header, having consumed exactly header and payload; or it returns
false with the client disconnected. -/
def ReadFrameLaw (s : Socket) (r : ReadResult) : Prop :=
  (r.ret = true ∧ ∃ s', r.srv.clientSock = some s' ∧
    let n := (SpHeader.ofBytes (flatten s)).payloadLen.toNat
    SpHeader.size + n ≤ (flatten s).length ∧
      r.payload = ((flatten s).drop SpHeader.size).take n ∧
      flatten s' = (flatten s).drop (SpHeader.size + n)) ∨
  (r.ret = false ∧ r.srv.clientSock = none)

/-- The stream starts with an acceptable header whose length does not fit an
`int`. -/
def Oversize (bs : List UInt8) : Prop :=
  ∃ h, wireFraming.header bs = some h ∧ 2 ^ 31 ≤ h.2

/-- A stream without an acceptable header: the call drops the client. -/
theorem readFrame_of_header_none {srv : TcpServer} {s : Socket} (hs : srv.clientSock = some s)
    (h : wireFraming.header (flatten s) = none) (type : UInt16) (payload : List UInt8) :
    readFrame srv type payload true = ⟨false, srv.disconnect, type, payload⟩ := by
  have hnone : ∀ t n, wireFraming.header (flatten s) ≠ some (t, n) := by simp [h]
  simp only [readFrame, hs, recvExact_eq, Int.toNat_natCast]
  cases hr : readExactly SpHeader.size s with
  | none => rfl
  | some r =>
      obtain ⟨hdr, s'⟩ := r
      obtain ⟨rfl, -, hle⟩ := readExactly_eq_some hr
      have hbad : (SpHeader.ofBytes (flatten s)).magic ≠ spMagic ∨
          (SpHeader.ofBytes (flatten s)).version ≠ spVersion := by
        by_contra hok
        rw [not_or, not_not, not_not] at hok
        exact hnone _ _ (wireFraming_header_eq_some_iff.mpr ⟨hle, hok.1, hok.2, rfl, rfl⟩)
      simp [SpHeader.ofBytes_take, hbad]

/-- An acceptable header: the payload is read as `recv_exact` reads its length. -/
theorem readFrame_of_header {srv : TcpServer} {s : Socket} (hs : srv.clientSock = some s)
    {t : UInt16} {n : Nat} (h : wireFraming.header (flatten s) = some (t, n)) (type : UInt16)
    (payload : List UInt8) :
    ∃ s', flatten s' = (flatten s).drop SpHeader.size ∧
      readFrame srv type payload true =
        if n = 0 then ⟨true, { srv with clientSock := some s' }, t, []⟩
        else
          match readExactly (staticCastInt (SpHeader.ofBytes (flatten s)).payloadLen).toNat s' with
          | none => ⟨false, srv.disconnect, t, resize payload n⟩
          | some (bs, s'') =>
              ⟨true, { srv with clientSock := some s'' }, t, overwrite (resize payload n) bs⟩ := by
  obtain ⟨hle, hmagic, hversion, rfl, rfl⟩ := wireFraming_header_eq_some_iff.mp h
  obtain ⟨s', hr, hs'⟩ := exists_readExactly hle
  refine ⟨s', hs', ?_⟩
  simp only [readFrame, hs, recvExact_eq, Int.toNat_natCast, hr, SpHeader.ofBytes_take, hmagic,
    hversion]
  by_cases hzero : (SpHeader.ofBytes (flatten s)).payloadLen = 0
  · simp [hzero, resize]
  · have hn : (SpHeader.ofBytes (flatten s)).payloadLen.toNat ≠ 0 := by
      intro h0
      exact hzero (UInt32.toNat_inj.mp h0)
    simp only [hzero, hn, if_false, ne_eq, not_true_eq_false, or_self, Bool.true_eq_false]
    cases readExactly (staticCastInt (SpHeader.ofBytes (flatten s)).payloadLen).toNat s' <;> rfl

/-- A frame with a length that fits an `int`, complete: it is returned. -/
theorem readFrame_of_next {srv : TcpServer} {s : Socket} (hs : srv.clientSock = some s)
    (hsize : ¬ Oversize (flatten s)) {t : UInt16} {p rest : List UInt8}
    (hn : wireFraming.next (flatten s) = some ((t, p), rest)) (type : UInt16)
    (payload : List UInt8) :
    ∃ s', flatten s' = rest ∧
      readFrame srv type payload true = ⟨true, { srv with clientSock := some s' }, t, p⟩ := by
  obtain ⟨n, hh, hle, rfl, rfl⟩ := wireFraming.next_eq_some_iff.mp hn
  have hlt : n < 2 ^ 31 := Nat.lt_of_not_le fun hge => hsize ⟨_, hh, hge⟩
  obtain ⟨s', hs', hr⟩ := readFrame_of_header hs hh type payload
  have hcast : (staticCastInt (SpHeader.ofBytes (flatten s)).payloadLen).toNat = n := by
    obtain ⟨-, -, -, -, rfl⟩ := wireFraming_header_eq_some_iff.mp hh
    rw [staticCastInt_of_lt hlt, Int.toNat_natCast]
  have hhead : wireFraming.headerLen = SpHeader.size := rfl
  rw [hhead] at hle ⊢
  have hle' : n ≤ (flatten s').length := by rw [hs', List.length_drop]; omega
  obtain ⟨s'', hr', hs''⟩ := exists_readExactly hle'
  by_cases hzero : n = 0
  · exact ⟨s', by rw [hs', hzero, Nat.add_zero], by rw [hr, if_pos hzero, hzero, List.take_zero]⟩
  · refine ⟨s'', by rw [hs'', hs', List.drop_drop], ?_⟩
    have hlen : ((flatten s').take n).length = (resize payload n).length := by
      rw [length_resize, List.length_take, Nat.min_eq_left hle']
    rw [hr, if_neg hzero, hcast, hr', ← hs']
    simp only [overwrite_of_length hlen]

/-- A frame with a length that fits an `int`, cut short: the client is dropped. -/
theorem readFrame_of_next_none {srv : TcpServer} {s : Socket} (hs : srv.clientSock = some s)
    (hsize : ¬ Oversize (flatten s)) (hn : wireFraming.next (flatten s) = none) (type : UInt16)
    (payload : List UInt8) :
    (readFrame srv type payload true).ret = false ∧
      (readFrame srv type payload true).srv = srv.disconnect := by
  cases hh : wireFraming.header (flatten s) with
  | none => rw [readFrame_of_header_none hs hh]; exact ⟨rfl, rfl⟩
  | some h =>
      obtain ⟨t, n⟩ := h
      have hlt : n < 2 ^ 31 := Nat.lt_of_not_le fun hge => hsize ⟨_, hh, hge⟩
      have hshort : (flatten s).length < SpHeader.size + n := by
        by_contra hge
        have := wireFraming.next_eq_some_iff.mpr ⟨n, hh, Nat.not_lt.mp hge, rfl, rfl⟩
        rw [hn] at this
        contradiction
      have hlen := wireFraming.headerLen_le_of_header hh
      have hhead : wireFraming.headerLen = SpHeader.size := rfl
      obtain ⟨s', hs', hr⟩ := readFrame_of_header hs hh type payload
      have hcast : (staticCastInt (SpHeader.ofBytes (flatten s)).payloadLen).toNat = n := by
        obtain ⟨-, -, -, -, rfl⟩ := wireFraming_header_eq_some_iff.mp hh
        rw [staticCastInt_of_lt hlt, Int.toNat_natCast]
      have hnone : readExactly n s' = none := by
        rw [readExactly_eq_none_iff, hs', List.length_drop]
        omega
      rw [hr, if_neg (by omega), hcast, hnone]
      exact ⟨rfl, rfl⟩

/-- A length of `2^31` or more is read as no payload at all: the call returns
true in the middle of the frame. -/
theorem readFrame_of_oversize {srv : TcpServer} {s : Socket} (hs : srv.clientSock = some s)
    (ho : Oversize (flatten s)) (type : UInt16) (payload : List UInt8) :
    (readFrame srv type payload true).ret = true ∧
      ∃ s', (readFrame srv type payload true).srv.clientSock = some s' ∧
        flatten s' = (flatten s).drop SpHeader.size := by
  obtain ⟨⟨t, n⟩, hh, hge⟩ := ho
  obtain ⟨s', hs', hr⟩ := readFrame_of_header hs hh type payload
  have hcast : (staticCastInt (SpHeader.ofBytes (flatten s)).payloadLen).toNat = 0 := by
    obtain ⟨-, -, -, -, rfl⟩ := wireFraming_header_eq_some_iff.mp hh
    have := staticCastInt_neg hge
    omega
  have hzero : n ≠ 0 := by
    intro h0
    simp [h0] at hge
  have hempty : readExactly 0 s' = some ([], s') := by rw [readExactly, if_pos rfl]
  rw [hr, if_neg hzero, hcast, hempty]
  exact ⟨rfl, s', rfl, hs'⟩

/-- **When a call keeps the framing**: exactly when the frame's length fits an
`int`. -/
theorem readFrameLaw_iff {srv : TcpServer} {s : Socket} (hs : srv.clientSock = some s)
    (type : UInt16) (payload : List UInt8) :
    ReadFrameLaw s (readFrame srv type payload true) ↔ ¬ Oversize (flatten s) := by
  constructor
  · intro hlaw ho
    obtain ⟨hret, s', hs', hdrop⟩ := readFrame_of_oversize hs ho type payload
    obtain ⟨⟨t, n⟩, hh, hge⟩ := ho
    obtain ⟨-, -, -, -, rfl⟩ := wireFraming_header_eq_some_iff.mp hh
    cases hlaw with
    | inl hread =>
        obtain ⟨-, s'', hs'', hle, -, hdrop'⟩ := hread
        rw [hs', Option.some.injEq] at hs''
        subst hs''
        -- the call stopped after the header, the law puts the reader behind the payload
        have hlen := congrArg List.length (hdrop.symm.trans hdrop')
        simp only [List.length_drop] at hlen
        omega
    | inr hdown => rw [hret] at hdown; exact absurd hdown.1 (by decide)
  · intro hsize
    cases hn : wireFraming.next (flatten s) with
    | none =>
        have hdown := readFrame_of_next_none hs hsize hn type payload
        exact .inr ⟨hdown.1, by rw [hdown.2]; rfl⟩
    | some r =>
        obtain ⟨⟨t, p⟩, rest⟩ := r
        obtain ⟨s', hs', hr⟩ := readFrame_of_next hs hsize hn type payload
        obtain ⟨n, hh, hle, rfl, rfl⟩ := wireFraming.next_eq_some_iff.mp hn
        obtain ⟨-, -, -, -, rfl⟩ := wireFraming_header_eq_some_iff.mp hh
        exact .inl ⟨by rw [hr], s', by rw [hr], hle, by rw [hr]; rfl, hs'⟩

/-! ## successive `ReadFrame` calls -/

/-- Successive calls, one for each outcome of `select`; the frames are those of
the calls that return true. -/
def readFrames (srv : TcpServer) (type : UInt16) (payload : List UInt8) :
    List Bool → List Message × TcpServer
  | [] => ([], srv)
  | readable :: polls =>
      let r := readFrame srv type payload readable
      let rest := readFrames r.srv r.type r.payload polls
      (if r.ret then (r.type, r.payload) :: rest.1 else rest.1, rest.2)

/-- Without a client there is nothing to read. -/
theorem readFrames_of_clientSock_none {srv : TcpServer} (hs : srv.clientSock = none)
    (type : UInt16) (payload : List UInt8) (polls : List Bool) :
    readFrames srv type payload polls = ([], srv) := by
  induction polls with
  | nil => rfl
  | cons readable polls ih => simp [readFrames, readFrame, hs, ih]

/-- Where the server stands after `k` readable calls: behind `k` frames, or
disconnected once the stream has no further frame. -/
def StandsAfter (bs : List UInt8) (k : Nat) (srv : TcpServer) : Prop :=
  if k ≤ (wireFraming.split bs).length then
    ∃ s, srv.clientSock = some s ∧ flatten s = wireFraming.after k bs
  else
    srv.clientSock = none

/-- **Successive calls read the reference framing** of a stream whose lengths all
fit an `int`, and stop only between frames. -/
theorem readFrames_eq_split {srv : TcpServer} {s : Socket} (hs : srv.clientSock = some s)
    (hsize : ∀ h ∈ wireFraming.headers (flatten s), h.2 < 2 ^ 31) (type : UInt16)
    (payload : List UInt8) (polls : List Bool) :
    (readFrames srv type payload polls).1 =
        (wireFraming.split (flatten s)).take (polls.count true) ∧
      StandsAfter (flatten s) (polls.count true) (readFrames srv type payload polls).2 := by
  induction polls generalizing srv s type payload with
  | nil => exact ⟨rfl, by simp [StandsAfter, readFrames, hs, Framing.after]⟩
  | cons readable polls ih =>
      cases readable with
      | false =>
          have hr : readFrame srv type payload false = ⟨false, srv, type, payload⟩ := by
            simp [readFrame, hs]
          have hcount : (false :: polls).count true = polls.count true := by simp
          simp only [readFrames, hr, hcount]
          exact ih hs hsize type payload
      | true =>
          have hfits : ¬ Oversize (flatten s) := by
            rintro ⟨h, hh, hge⟩
            have := hsize h (wireFraming.mem_headers_of_header hh)
            omega
          have hcount : (true :: polls).count true = polls.count true + 1 := by simp
          cases hn : wireFraming.next (flatten s) with
          | none =>
              obtain ⟨hret, hsrv⟩ := readFrame_of_next_none hs hfits hn type payload
              have hdown : srv.disconnect.clientSock = none := rfl
              simp only [readFrames, hret, hsrv, readFrames_of_clientSock_none hdown, hcount,
                wireFraming.split_of_next_none hn]
              exact ⟨rfl, by simp [StandsAfter, wireFraming.split_of_next_none hn, hdown]⟩
          | some r =>
              obtain ⟨⟨t, p⟩, rest⟩ := r
              obtain ⟨s', hs', hr⟩ := readFrame_of_next hs hfits hn type payload
              have hrest : ∀ h ∈ wireFraming.headers (flatten s'), h.2 < 2 ^ 31 := fun h hmem =>
                hsize h (wireFraming.mem_headers_of_next hn (hs' ▸ hmem))
              have hih := @ih { srv with clientSock := some s' } s' rfl hrest t p
              simp only [readFrames, hr, hcount, wireFraming.split_of_next hn, if_true,
                List.take_succ_cons, hih.1, hs', true_and]
              have hpos := hih.2
              rw [hs'] at hpos
              simpa [StandsAfter, wireFraming.split_of_next hn, wireFraming.after_of_next hn]
                using hpos

/-- **Framing of the receiving side.**  A call that finds the socket readable
keeps the framing exactly when the frame's length fits an `int`; on a stream
whose lengths all do, successive calls return its reference framing and never
stop inside a frame. -/
theorem readFrame_framing (srv : TcpServer) (s : Socket) (type : UInt16) (payload : List UInt8) :
    (ReadFrameLaw s (readFrame (srv.accepted s) type payload true) ↔ ¬ Oversize (flatten s)) ∧
      ((∀ h ∈ wireFraming.headers (flatten s), h.2 < 2 ^ 31) → ∀ polls : List Bool,
        (readFrames (srv.accepted s) type payload polls).1 =
            (wireFraming.split (flatten s)).take (polls.count true) ∧
          StandsAfter (flatten s) (polls.count true)
            (readFrames (srv.accepted s) type payload polls).2) :=
  ⟨readFrameLaw_iff rfl type payload, fun hsize polls =>
    readFrames_eq_split rfl hsize type payload polls⟩

/-- A header announcing `2^31` payload bytes. -/
def oversizeHeader : SpHeader :=
  { magic := spMagic, version := spVersion, type := spMsgInputBatch, seq := 1, tsUs := 0,
    payloadLen := 0x80000000 }

/-- After such a header the call returns true at the first payload byte. -/
theorem readFrame_stops_inside_frame :
    ¬ ReadFrameLaw (arrive oversizeHeader.bytes)
      (readFrame ((⟨none, 0, 0, [], 0⟩ : TcpServer).accepted (arrive oversizeHeader.bytes)) 0 []
        true) := by
  rw [readFrameLaw_iff rfl, not_not, flatten_arrive]
  refine ⟨(spMsgInputBatch, 2 ^ 31), ?_, Nat.le_refl _⟩
  rw [wireFraming_header_eq_some_iff, SpHeader.ofBytes_bytes]
  decide

/-! ## sending -/

/-- The result of `send_all`: its value, the bytes taken and the `send` calls
made, which number the outcomes. -/
structure SendResult where
  ret : Bool
  sent : Nat
  calls : Nat

/-- The loop of `send_all`; `send k` is what the `k`-th `send` call returns, cut
to the bytes it was offered. -/
def sendAllFrom (send : Nat → Int) (len : Int) (sent calls : Nat) : SendResult :=
  if (sent : Int) < len then
    if send calls ≤ 0 then
      ⟨false, sent, calls + 1⟩
    else
      sendAllFrom send len (sent + min (send calls).toNat (len - sent).toNat) (calls + 1)
  else
    ⟨true, sent, calls⟩
termination_by (len - sent).toNat

/-- `send_all`: the connection takes the first `sent` bytes of the buffer. -/
def sendAll (send : Nat → Int) (len : Int) (calls : Nat) : SendResult := sendAllFrom send len 0 calls

/-- The header `SendFrame` fills in; `elapsedUs` is the time since the client
connected. -/
def frameHeader (srv : TcpServer) (type : UInt16) (len : UInt32) (elapsedUs : UInt64) : SpHeader where
  magic := spMagic
  version := spVersion
  type := type
  seq := srv.seq + 1
  tsUs := if srv.ts0Ns = 0 then 0 else elapsedUs
  payloadLen := len

/-- `TcpServer::SendFrame`, its `len` the payload's size. -/
def sendFrame (send : Nat → Int) (srv : TcpServer) (type : UInt16) (payload : List UInt8)
    (elapsedUs : UInt64) : Bool × TcpServer :=
  match srv.clientSock with
  | none => (false, srv)
  | some _ =>
      let len := UInt32.ofNat payload.length
      let h := frameHeader srv type len elapsedUs
      let r := sendAll send SpHeader.size srv.sends
      let srv := { srv with
        seq := srv.seq + 1, wire := srv.wire ++ h.bytes.take r.sent, sends := r.calls }
      if r.ret = false then
        (false, srv.disconnect)
      else if len = 0 then
        (true, srv)
      else
        let r := sendAll send (staticCastInt len) srv.sends
        let srv := { srv with wire := srv.wire ++ payload.take r.sent, sends := r.calls }
        if r.ret = false then (false, srv.disconnect) else (true, srv)

/-- `send_all` takes everything when it succeeds and less when it fails; it fails
only after a `send` call has. -/
structure SendAllLaw (send : Nat → Int) (len calls : Nat) (r : SendResult) : Prop where
  all : r.ret = true → r.sent = len
  part : r.ret = false → r.sent < len
  calls_le : calls ≤ r.calls
  ret_of_pos : (∀ i, calls ≤ i → i < r.calls → 0 < send i) → r.ret = true

theorem sendAllFrom_law (send : Nat → Int) (len sent calls : Nat) (h : sent ≤ len) :
    SendAllLaw send len calls (sendAllFrom send len sent calls) := by
  induction sent, calls using sendAllFrom.induct send (len : Int) with
  | case1 sent calls hlt hfail =>
      rw [sendAllFrom, if_pos hlt, if_pos hfail]
      refine ⟨by simp, fun _ => by simpa using hlt, Nat.le_succ calls, fun hall => ?_⟩
      have := hall calls (Nat.le_refl _) (Nat.lt_succ_self _)
      omega
  | case2 sent calls hlt hok ih =>
      have ih := ih (by omega)
      rw [sendAllFrom, if_pos hlt, if_neg hok]
      have hle := ih.calls_le
      exact ⟨ih.all, ih.part, by omega, fun hpos => ih.ret_of_pos fun i hi => hpos i (by omega)⟩
  | case3 sent calls hge =>
      rw [sendAllFrom, if_neg hge]
      have hall : sent = len := by omega
      exact ⟨fun _ => hall, by simp, Nat.le_refl _, fun _ => rfl⟩

theorem sendAll_law (send : Nat → Int) (len calls : Nat) :
    SendAllLaw send len calls (sendAll send len calls) :=
  sendAllFrom_law send len 0 calls (Nat.zero_le len)

/-- A header that `SendFrame` puts in front of a message. -/
def Announces (h : SpHeader) (m : Message) : Prop :=
  h.magic = spMagic ∧ h.version = spVersion ∧ h.type = m.1 ∧ h.payloadLen.toNat = m.2.length

/-- What one call may leave on the wire: the whole frame, when it returns true;
otherwise a proper part of it, and no connection. -/
def SendFrameLaw (srv : TcpServer) (m : Message) (r : Bool × TcpServer) : Prop :=
  ∃ h, Announces h m ∧
    ((r.1 = true ∧ r.2.clientSock = srv.clientSock ∧ r.2.wire = srv.wire ++ (h.bytes ++ m.2)) ∨
      (r.1 = false ∧ r.2.clientSock = none ∧ ∃ part, part <+: h.bytes ++ m.2 ∧
        part.length < (h.bytes ++ m.2).length ∧ r.2.wire = srv.wire ++ part))

/-- The front of a list, cut where the list still goes on. -/
theorem take_isPrefix_append {xs : List UInt8} {k : Nat} (hk : k < xs.length) (ys : List UInt8) :
    xs.take k <+: xs ++ ys ∧ (xs.take k).length < (xs ++ ys).length := by
  constructor
  · exact (List.take_prefix k xs).trans (List.prefix_append xs ys)
  · rw [List.length_take, List.length_append]
    omega

/-- The header of a call announces its message, when the length fits. -/
theorem frameHeader_announces (srv : TcpServer) (type : UInt16) {payload : List UInt8}
    (hlen : payload.length < 2 ^ 31) (elapsedUs : UInt64) :
    Announces (frameHeader srv type (UInt32.ofNat payload.length) elapsedUs) (type, payload) := by
  refine ⟨rfl, rfl, rfl, ?_⟩
  rw [frameHeader, UInt32.toNat_ofNat', Nat.mod_eq_of_lt (by omega)]

/-- **One call**: it sends its whole frame, or a proper part of it and closes the
connection; and it fails only after a `send` has. -/
theorem sendFrame_law (send : Nat → Int) {srv : TcpServer} {s : Socket}
    (hs : srv.clientSock = some s) (type : UInt16) {payload : List UInt8}
    (hlen : payload.length < 2 ^ 31) (elapsedUs : UInt64) :
    SendFrameLaw srv (type, payload) (sendFrame send srv type payload elapsedUs) ∧
      srv.sends ≤ (sendFrame send srv type payload elapsedUs).2.sends ∧
      ((∀ i, srv.sends ≤ i → i < (sendFrame send srv type payload elapsedUs).2.sends →
        0 < send i) → (sendFrame send srv type payload elapsedUs).1 = true) := by
  have hh := frameHeader_announces srv type hlen elapsedUs
  have hsize : (UInt32.ofNat payload.length).toNat = payload.length := hh.2.2.2
  have hcast : staticCastInt (UInt32.ofNat payload.length) = payload.length := by
    rw [staticCastInt_of_lt (by omega), hsize]
  have hzero : UInt32.ofNat payload.length = 0 ↔ payload = [] := by
    rw [← UInt32.toNat_inj, hsize, ← List.length_eq_zero_iff]
    rfl
  have hl₁ := sendAll_law send SpHeader.size srv.sends
  simp only [sendFrame, hs, hcast, hzero]
  generalize frameHeader srv type (UInt32.ofNat payload.length) elapsedUs = h at hh ⊢
  generalize sendAll send SpHeader.size srv.sends = r₁ at hl₁ ⊢
  have hbytes : h.bytes.length = SpHeader.size := SpHeader.length_bytes h
  cases hret₁ : r₁.ret with
  | false =>
      have hcut : r₁.sent < h.bytes.length := by rw [hbytes]; exact hl₁.part hret₁
      obtain ⟨hpre, hlt⟩ := take_isPrefix_append hcut payload
      refine ⟨⟨h, hh, .inr ⟨rfl, rfl, _, hpre, hlt, rfl⟩⟩, hl₁.calls_le, fun hpos => ?_⟩
      exact absurd (hl₁.ret_of_pos hpos) (by simp [hret₁])
  | true =>
      have hfull : h.bytes.take r₁.sent = h.bytes := by
        rw [hl₁.all hret₁, ← hbytes, List.take_length]
      have hl₂ := sendAll_law send payload.length r₁.calls
      by_cases hp : payload = []
      · subst hp
        simp only [hfull, Bool.true_eq_false, if_false, if_true]
        exact ⟨⟨h, hh, .inl ⟨rfl, hs.symm, by simp⟩⟩, hl₁.calls_le, fun _ => trivial⟩
      · simp only [hfull, hp, Bool.true_eq_false, if_false]
        generalize sendAll send payload.length r₁.calls = r₂ at hl₂ ⊢
        have hcalls := Nat.le_trans hl₁.calls_le hl₂.calls_le
        cases hret₂ : r₂.ret with
        | false =>
            have hcut := hl₂.part hret₂
            refine ⟨⟨h, hh, .inr ⟨rfl, rfl, h.bytes ++ payload.take r₂.sent, ?_, ?_, ?_⟩⟩, hcalls,
              fun hpos => ?_⟩
            · exact (List.prefix_append_right_inj h.bytes).mpr (List.take_prefix r₂.sent payload)
            · simp only [List.length_append, List.length_take]
              omega
            · exact List.append_assoc ..
            · have hret := hl₂.ret_of_pos fun i hi => hpos i (Nat.le_trans hl₁.calls_le hi)
              exact absurd hret (by simp [hret₂])
        | true =>
            have hall : payload.take r₂.sent = payload := by
              rw [hl₂.all hret₂, List.take_length]
            simp only [hall, Bool.true_eq_false, if_false]
            exact ⟨⟨h, hh, .inl ⟨rfl, hs.symm, List.append_assoc ..⟩⟩, hcalls, fun _ => trivial⟩

/-! ## a run of `SendFrame` calls -/

/-- A `SendFrame` call. -/
structure SendCall where
  msg : Message
  elapsedUs : UInt64

/-- Successive calls; the messages are those of the calls that return true. -/
def sendFrames (send : Nat → Int) (srv : TcpServer) : List SendCall → List Message × TcpServer
  | [] => ([], srv)
  | c :: cs =>
      let r := sendFrame send srv c.msg.1 c.msg.2 c.elapsedUs
      let rest := sendFrames send r.2 cs
      (if r.1 then c.msg :: rest.1 else rest.1, rest.2)

/-- The calls that return true are some of the calls, in order. -/
theorem sendFrames_sublist (send : Nat → Int) (srv : TcpServer) (calls : List SendCall) :
    (sendFrames send srv calls).1.Sublist (calls.map SendCall.msg) := by
  induction calls generalizing srv with
  | nil => exact List.Sublist.refl _
  | cons c calls ih =>
      simp only [sendFrames, List.map_cons]
      split
      · exact (ih _).cons_cons c.msg
      · exact (ih _).cons c.msg

/-- Once the client is gone every call returns false and sends nothing. -/
theorem sendFrames_of_clientSock_none {send : Nat → Int} {srv : TcpServer}
    (hs : srv.clientSock = none) (calls : List SendCall) :
    sendFrames send srv calls = ([], srv) := by
  induction calls with
  | nil => rfl
  | cons c calls ih => simp [sendFrames, sendFrame, hs, ih]

/-- A framing that accepts the headers of `SendFrame`. -/
structure ReadsHostHeaders (F : Framing UInt8 UInt16) : Prop where
  headerLen : F.headerLen = SpHeader.size
  decode : ∀ h m, Announces h m → F.decode h.bytes = some (m.1, m.2.length)

/-- **What is on the wire**: read back frame by frame it is the calls that
returned true, in order; a frame cut by a failed `send` is no frame, and no
header on the wire announces more than `2^31` bytes. -/
theorem split_wire_sendFrames {F : Framing UInt8 UInt16} (hF : ReadsHostHeaders F)
    (send : Nat → Int) {srv : TcpServer} {s : Socket} (hs : srv.clientSock = some s)
    {calls : List SendCall} (hlen : ∀ c ∈ calls, c.msg.2.length < 2 ^ 31) :
    ∃ w, (sendFrames send srv calls).2.wire = srv.wire ++ w ∧
      F.split w = (sendFrames send srv calls).1 ∧ ∀ h ∈ F.headers w, h.2 < 2 ^ 31 := by
  induction calls generalizing srv with
  | nil =>
      refine ⟨[], by simp [sendFrames], ?_, ?_⟩
      · rw [F.split_nil]
        rfl
      · simp
  | cons c calls ih =>
      have hrest : ∀ c' ∈ calls, c'.msg.2.length < 2 ^ 31 := fun c' hc' =>
        hlen c' (List.mem_cons_of_mem c hc')
      have hc := hlen c List.mem_cons_self
      obtain ⟨⟨h, hh, hcase⟩, -, -⟩ :=
        sendFrame_law send hs c.msg.1 hc c.elapsedUs
      have hhdr : h.bytes.length = F.headerLen := by rw [hF.headerLen, SpHeader.length_bytes]
      have hdec := hF.decode h c.msg hh
      simp only [sendFrames]
      cases hcase with
      | inl htrue =>
          obtain ⟨hret, hsock, hwire⟩ := htrue
          obtain ⟨w, hw, hsplit, hheaders⟩ := ih (hsock.trans hs) hrest
          have hnext := F.next_encode hhdr hdec w
          refine ⟨h.bytes ++ c.msg.2 ++ w, ?_, ?_, ?_⟩
          · rw [hw, hwire, List.append_assoc]
          · rw [F.split_of_next hnext, hsplit, hret]
            rfl
          · have hhead := F.header_encode hhdr hdec (c.msg.2 ++ w)
            rw [← List.append_assoc] at hhead
            rw [F.headers_of_next hhead hnext]
            intro h' hmem
            cases List.mem_cons.mp hmem with
            | inl heq => rw [heq]; exact hc
            | inr htail => exact hheaders h' htail
      | inr hfalse =>
          obtain ⟨hret, hsock, part, hpre, hlt, hwire⟩ := hfalse
          rw [sendFrames_of_clientSock_none hsock, hret]
          obtain ⟨hnext, hheaders⟩ := F.next_of_truncated hhdr hdec hpre hlt
          refine ⟨part, hwire, F.split_of_next_none hnext, fun h' hmem => ?_⟩
          rw [hheaders h' hmem]
          exact hc

/-- When no `send` fails every call returns true. -/
theorem sendFrames_of_send_pos (send : Nat → Int) {srv : TcpServer} {s : Socket}
    (hs : srv.clientSock = some s) {calls : List SendCall}
    (hlen : ∀ c ∈ calls, c.msg.2.length < 2 ^ 31) :
    srv.sends ≤ (sendFrames send srv calls).2.sends ∧
      ((∀ i, srv.sends ≤ i → i < (sendFrames send srv calls).2.sends → 0 < send i) →
        (sendFrames send srv calls).1 = calls.map SendCall.msg) := by
  induction calls generalizing srv with
  | nil => exact ⟨Nat.le_refl _, fun _ => rfl⟩
  | cons c calls ih =>
      have hrest : ∀ c' ∈ calls, c'.msg.2.length < 2 ^ 31 := fun c' hc' =>
        hlen c' (List.mem_cons_of_mem c hc')
      obtain ⟨⟨h, hh, hcase⟩, hle, hpos⟩ :=
        sendFrame_law send hs c.msg.1 (hlen c List.mem_cons_self) c.elapsedUs
      simp only [sendFrames, List.map_cons]
      cases hcase with
      | inl htrue =>
          obtain ⟨hret, hsock, -⟩ := htrue
          obtain ⟨hle', hall⟩ := ih (hsock.trans hs) hrest
          refine ⟨Nat.le_trans hle hle', fun hsend => ?_⟩
          rw [hret, hall fun i hi hlt => hsend i (Nat.le_trans hle hi) hlt]
          rfl
      | inr hfalse =>
          obtain ⟨hret, hsock, -⟩ := hfalse
          rw [sendFrames_of_clientSock_none hsock]
          refine ⟨hle, fun hsend => ?_⟩
          rw [hpos hsend] at hret
          contradiction

end TwinScreen.Host
