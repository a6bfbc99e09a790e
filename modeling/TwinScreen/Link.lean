import TwinScreen.Host.Server
import TwinScreen.Tablet.Client

/-!
# TwinScreen.Link

The host's sender and the tablet's reader on one connection.  TCP delivers a
prefix of the bytes that `send` took, in any chunks; `receiveLoop_sendFrames`
says that the messages `receiveLoop` reads are then a prefix of the `SendFrame`
calls that returned true.
-/

namespace TwinScreen

open Lib Host Tablet

/-- The tablet's reader accepts the headers the host writes. -/
theorem readsHostHeaders_clientFraming : ReadsHostHeaders clientFraming where
  headerLen := rfl
  decode h m hm := by
    obtain ⟨hmagic, -, htype, hlen⟩ := hm
    simp [clientFraming, SpHeader.ofBytes_bytes, hmagic, htype, hlen]

/-- **The link delivers a prefix of the messages sent**, and all of them when no
`send` failed and the stream is read to its end. -/
theorem receiveLoop_sendFrames (send : Nat → Int) (srv : TcpServer) (sock : Socket)
    (calls : List SendCall) (hlen : ∀ c ∈ calls, c.msg.2.length < 2 ^ 31)
    (hparse : ∀ c ∈ calls, Parses c.msg) (alive : Nat → Bool) (client : Client)
    {s : List (Chunk UInt8)}
    (hwire : srv.wire ++ flatten s <+: (sendFrames send (srv.accepted sock) calls).2.wire) :
    let sent := sendFrames send (srv.accepted sock) calls
    let received := (receiveLoop alive 0 client s).frames
    received <+: sent.1 ∧
      ((∀ i, alive i = true) → srv.wire ++ flatten s = sent.2.wire → received = sent.1) ∧
      ((∀ i, srv.sends ≤ i → i < sent.2.sends → 0 < send i) → sent.1 = calls.map SendCall.msg) := by
  have hsock : (srv.accepted sock).clientSock = some sock := rfl
  obtain ⟨w, hw, hsplit, hheaders⟩ :=
    split_wire_sendFrames readsHostHeaders_clientFraming send hsock hlen
  have hprefix : flatten s <+: w := by
    rw [hw] at hwire
    exact (List.prefix_append_right_inj srv.wire).mp hwire
  refine ⟨?_, fun halive hall => ?_, ?_⟩
  · rw [← hsplit]
    exact (frames_receiveLoop_isPrefix alive 0 client s).trans (clientFraming.split_isPrefix hprefix)
  · rw [hw] at hall
    have hflat : flatten s = w := List.append_cancel_left hall
    rw [← hsplit, ← hflat]
    refine frames_receiveLoop_eq_split halive client (by rwa [hflat]) (fun m hm => ?_) 0
    rw [hflat, hsplit] at hm
    obtain ⟨c, hc, rfl⟩ :=
      List.mem_map.mp ((sendFrames_sublist send (srv.accepted sock) calls).subset hm)
    exact hparse c hc
  · exact (sendFrames_of_send_pos send hsock hlen).2

/-- A connection that takes seven bytes at a time, and two messages on it. -/
theorem receiveLoop_sendFrames_seven :
    let calls : List SendCall :=
      [⟨(spMsgAudioFrame, [0, 0, 0, 0, 1, 2, 0, 0, 9]), 0⟩, ⟨(spMsgControl, []), 5⟩]
    let sent := sendFrames (fun _ => 7) ((⟨none, 0, 0, [], 0⟩ : TcpServer).accepted []) calls
    (receiveLoop (fun _ => true) 0 {} (arrive sent.2.wire)).frames = calls.map SendCall.msg := by
  intro calls sent
  have hflat : [] ++ flatten (arrive sent.2.wire) = sent.2.wire := by
    rw [flatten_arrive, List.nil_append]
  have h := receiveLoop_sendFrames (fun _ => 7) ⟨none, 0, 0, [], 0⟩ [] calls (by decide)
    (by decide) (fun _ => true) {} ⟨[], by rw [List.append_nil, hflat]⟩
  exact (h.2.1 (fun _ => rfl) hflat).trans (h.2.2 fun _ _ _ => by decide)

end TwinScreen
