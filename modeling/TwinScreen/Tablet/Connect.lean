import TwinScreen.Tablet.Session

/-!
# TwinScreen.Tablet.Connect

What a connection delivers to the tablet: `readAck` of `Client.kt` on the host's stream, as
`tryConnect` calls it, then `receiveLoop` on the rest.

* `readAckFrame_of_next`, `exists_next_of_readAckFrame` — the acknowledgement is the first frame of
  the stream.
* `shown`, `heard` — the video and audio frames among the messages that are read.
-/

namespace TwinScreen.Tablet

open Lib

/-- `Client.readAck`; `tryConnect` catches what it throws. -/
def readAckFrame (s : List (Chunk UInt8)) : Option (Ack × List (Chunk UInt8)) :=
  match readExactly SpHeader.size s with
  | none => none
  | some (header, s₁) =>
      match getHeader.run header with
      | .error _ => none
      | .ok (h, _) =>
          if h.magic ≠ spMagic.toNat ∨ h.type ≠ spMsgHandshakeAck ∨ h.len < 0 then none
          else
            match readExactly h.len.toNat s₁ with
            | none => none
            | some (payload, s₂) =>
                match readAck payload with
                | .error _ => none
                | .ok a => some (a, s₂)

/-- What `tryConnect` makes of the stream: the acknowledgement and the stream behind it, when
the protocol versions agree. -/
def acknowledged (s : List (Chunk UInt8)) : Option (Ack × List (Chunk UInt8)) :=
  (readAckFrame s).filter fun a => a.1.protoVersion = version

/-- The video frames among the messages. -/
def shown (ms : List Message) : List VideoFrame :=
  ms.filterMap fun m => if m.1 = spMsgVideoFrame then (parseVideoFrame m.2).toOption else none

/-- The audio frames. -/
def heard (ms : List Message) : List AudioFrame :=
  ms.filterMap fun m => if m.1 = spMsgAudioFrame then (parseAudioFrame m.2).toOption else none

/-! ## the acknowledgement -/

/-- A frame that announces less than `2^31` bytes. -/
theorem readAckFrame_of_next {s : List (Chunk UInt8)} {t : UInt16} {p rest : List UInt8}
    (hp : p.length < 2 ^ 31) (hnext : clientFraming.next (flatten s) = some ((t, p), rest)) :
    ∃ s', flatten s' = rest ∧
      readAckFrame s =
        if t = spMsgHandshakeAck then (readAck p).toOption.map fun a => (a, s') else none := by
  obtain ⟨n, hh, hle, rfl, rfl⟩ := clientFraming.next_eq_some_iff.mp hnext
  have hsize : clientFraming.headerLen = SpHeader.size := rfl
  rw [hsize] at hle hp hnext ⊢
  have hn : n < 2 ^ 31 := by
    rw [List.length_take, List.length_drop, Nat.min_eq_left (by omega)] at hp
    exact hp
  obtain ⟨-, hmagic, rfl, hlen⟩ := clientFraming_header_eq_some_iff.mp hh
  obtain ⟨s₁, hr₁, hs₁⟩ := exists_readExactly (n := SpHeader.size) (s := s) (by omega)
  obtain ⟨s₂, hr₂, hs₂⟩ :=
    exists_readExactly (n := n) (s := s₁) (by rw [hs₁, List.length_drop]; omega)
  obtain ⟨r, rest, hrun, hmagic', htype, hlen'⟩ :=
    @getHeader_run ((flatten s).take SpHeader.size) (by rw [List.length_take]; omega)
  rw [SpHeader.ofBytes_take] at hmagic' htype hlen'
  rw [← hlen, bmod_of_lt (by omega), if_pos (by omega)] at hlen'
  refine ⟨s₂, by rw [hs₂, hs₁, List.drop_drop], ?_⟩
  have hnonneg : ¬ r.len < 0 := by omega
  have hcast : r.len.toNat = n := by omega
  simp only [readAckFrame, hr₁, hrun, hmagic'.mpr hmagic, htype, ne_eq, not_true_eq_false,
    hnonneg, false_or, or_false, hcast, hr₂, hs₁]
  split
  · rfl
  · next heq =>
      rw [if_pos (Classical.not_not.mp heq)]
      cases readAck (((flatten s).drop SpHeader.size).take n) <;> rfl

/-- **The acknowledgement is the first frame of the stream.** -/
theorem exists_next_of_readAckFrame {s s' : List (Chunk UInt8)} {a : Ack}
    (h : readAckFrame s = some (a, s')) :
    ∃ p, clientFraming.next (flatten s) = some ((spMsgHandshakeAck, p), flatten s') ∧
      p.length < 2 ^ 31 ∧ readAck p = .ok a := by
  unfold readAckFrame at h
  split at h
  · contradiction
  · next header s₁ hr₁ =>
      obtain ⟨rfl, hs₁, hle⟩ := readExactly_eq_some hr₁
      obtain ⟨r, rest, hrun, hmagic, htype, hlen⟩ :=
        @getHeader_run ((flatten s).take SpHeader.size) (by rw [List.length_take]; omega)
      rw [SpHeader.ofBytes_take] at hmagic htype hlen
      simp only [hrun] at h
      split at h
      · contradiction
      · next hok =>
          simp only [not_or, ne_eq, Classical.not_not, hmagic, htype, Int.not_lt] at hok
          obtain ⟨hok, hack, hnonneg⟩ := hok
          split at h
          · contradiction
          · next payload s₂ hr₂ =>
              obtain ⟨rfl, hs₂, hle₂⟩ := readExactly_eq_some hr₂
              have hsize : clientFraming.headerLen = SpHeader.size := rfl
              have hlt := (SpHeader.ofBytes (flatten s)).payloadLen.toNat_lt
              have hh : clientFraming.header (flatten s) = some
                  (spMsgHandshakeAck, (SpHeader.ofBytes (flatten s)).payloadLen.toNat) :=
                clientFraming_header_eq_some_iff.mpr ⟨hle, hok, hack.symm, rfl⟩
              generalize (SpHeader.ofBytes (flatten s)).payloadLen.toNat = n at hlen hlt hh
              rw [bmod_of_lt (by omega)] at hlen
              split at hlen
              case isFalse => omega
              case isTrue hn =>
                have hcast : r.len.toNat = n := by omega
                rw [hcast] at h hs₂ hle₂
                rw [hs₁] at h hle₂
                rw [hs₁, List.drop_drop] at hs₂
                rw [List.length_drop] at hle₂
                split at h
                · contradiction
                · next a' hread =>
                    cases h
                    refine ⟨_, clientFraming.next_eq_some_iff.mpr
                      ⟨n, hh, by omega, rfl, by rw [hs₂, hsize]⟩, ?_, hread⟩
                    rw [List.length_take]
                    omega

end TwinScreen.Tablet
