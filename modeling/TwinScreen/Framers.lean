import TwinScreen.Host.Server
import TwinScreen.Tablet.Client

/-!
# TwinScreen.Framers

The two readers of the wire format on the same bytes: `ReadFrame`, called until it
fails, and `receiveLoop`, which nothing interrupts.  The host looks at the header's
version and the tablet does not.

* `stopsAt_iff` — a reader is stopped by a header, whatever may still arrive,
  exactly when its framing rejects one.
* `framers_agree_iff` — the two agree on a stream exactly when every header with
  the protocol's magic that the tablet reaches has version 1.
-/

namespace TwinScreen

open Lib Host Tablet

/-- `ReadFrame` called again and again: a frame takes a byte at least, so this many
calls are enough. -/
def hostReads (srv : TcpServer) (type : UInt16) (payload : List UInt8) (s : Socket) :
    List Message :=
  (readFrames (srv.accepted s) type payload (List.replicate ((flatten s).length + 1) true)).1

/-- The messages `receiveLoop` reads. -/
def tabletReads (c : Client) (s : List (Chunk UInt8)) : List Message :=
  (receiveLoop (fun _ => true) 0 c s).frames

/-- A reader is stopped by the header of frame `k`: it reads `k` frames, a header is
there behind them, and no more bytes would make it read another frame. -/
def StopsAt (reads : List (Chunk UInt8) → List Message) (s : List (Chunk UInt8)) (k : Nat) : Prop :=
  (reads s).length = k ∧
    ((reads s).map fun m => SpHeader.size + m.2.length).sum + SpHeader.size ≤ (flatten s).length ∧
      ∀ (s' : List (Chunk UInt8)) (more : List UInt8), flatten s' = flatten s ++ more →
        reads s' = reads s

/-- A reader accepts a header: with some payload it is read as a frame. -/
def Accepts (reads : List (Chunk UInt8) → List Message) (h : SpHeader) : Prop :=
  ∃ p, ∀ s, flatten s = h.bytes ++ p → reads s ≠ []

/-- Every header with the protocol's magic on the way has its version. -/
def SpeaksVersion (bs : List UInt8) : Prop :=
  ∀ k, SpHeader.size ≤ (clientFraming.after k bs).length →
    (SpHeader.ofBytes (clientFraming.after k bs)).magic = spMagic →
      (SpHeader.ofBytes (clientFraming.after k bs)).version = spVersion

/-! ## the readers and their framings -/

/-- A reader reads the frames of a framing, when the lengths among the headers fit
31 bits and every payload but the last can be parsed. -/
def Follows (reads : List (Chunk UInt8) → List Message) (F : Framing UInt8 UInt16) : Prop :=
  ∀ s, (∀ h ∈ F.headers (flatten s), h.2 < 2 ^ 31) →
    (∀ m ∈ (F.split (flatten s)).dropLast, Parses m) → reads s = F.split (flatten s)

theorem hostReads_eq_split (srv : TcpServer) (type : UInt16) (payload : List UInt8) {s : Socket}
    (hlen : ∀ h ∈ wireFraming.headers (flatten s), h.2 < 2 ^ 31) :
    hostReads srv type payload s = wireFraming.split (flatten s) := by
  have hcount := wireFraming.length_split_le (flatten s)
  rw [hostReads, (readFrames_eq_split rfl hlen type payload _).1, List.count_replicate_self,
    List.take_of_length_le (by omega)]

theorem hostReads_follows (srv : TcpServer) (type : UInt16) (payload : List UInt8) :
    Follows (hostReads srv type payload) wireFraming :=
  fun _ hlen _ => hostReads_eq_split srv type payload hlen

theorem tabletReads_follows (c : Client) : Follows (tabletReads c) clientFraming :=
  fun _ hlen hparse => frames_receiveLoop_eq_split_of_dropLast (fun _ => rfl) c hlen hparse 0

section Reader

variable {reads : List (Chunk UInt8) → List Message} {F : Framing UInt8 UInt16}

/-- A reader that follows a framing is stopped exactly where the framing rejects a
header. -/
theorem stopsAt_iff (hreads : Follows reads F) (hsize : F.headerLen = SpHeader.size)
    {s : List (Chunk UInt8)} (hlen : ∀ h ∈ F.headers (flatten s), h.2 < 2 ^ 31)
    (hparse : ∀ m ∈ F.split (flatten s), Parses m) (k : Nat) :
    StopsAt reads s k ↔ (F.split (flatten s)).length = k ∧ F.Rejects (flatten s) := by
  have hown := hreads s hlen fun m hm => hparse m (List.dropLast_subset _ hm)
  have htotal := F.length_eq (flatten s)
  rw [hsize] at htotal
  have hthere : ((F.split (flatten s)).map fun m => SpHeader.size + m.2.length).sum +
      SpHeader.size ≤ (flatten s).length ↔ SpHeader.size ≤ (F.rest (flatten s)).length := by
    omega
  rw [StopsAt, hown, Framing.Rejects, hsize, hthere]
  apply and_congr_right
  intro _
  apply and_congr_right
  intro hrest
  constructor
  · intro hstuck
    cases hh : F.header (F.rest (flatten s)) with
    | none => rfl
    | some h =>
        -- with the bytes of its payload the header would give another frame
        obtain ⟨t, n⟩ := h
        obtain ⟨more, p, hsplit, hheaders⟩ := F.exists_split_append hh
        have hflat := flatten_arrive (flatten s ++ more)
        have hmore := hreads (arrive (flatten s ++ more))
          (by rw [hflat]; exact fun h hmem => hlen h (hheaders h hmem))
          (by rwa [hflat, hsplit, List.dropLast_concat])
        rw [hstuck _ more hflat, hflat, hsplit] at hmore
        exact absurd hmore (by simp)
  · intro hh s' more hs'
    obtain ⟨hsplit, hheaders⟩ := F.split_append_of_rejects ⟨hsize ▸ hrest, hh⟩ more
    rw [hreads s' (by rw [hs']; exact fun h hmem => hlen h (hheaders h hmem))
      (by rw [hs', hsplit]; exact fun m hm => hparse m (List.dropLast_subset _ hm)), hs', hsplit]

/-- A reader that follows a framing accepts the headers that the framing decodes. -/
theorem accepts_iff (hreads : Follows reads F) (hsize : F.headerLen = SpHeader.size)
    {h : SpHeader} (hlen : h.payloadLen.toNat < 2 ^ 31)
    (hdec : ∀ r, F.decode h.bytes = some r → r.2 = h.payloadLen.toNat) :
    Accepts reads h ↔ (F.decode h.bytes).isSome = true := by
  have hhead : ∀ p, F.header (h.bytes ++ p) = F.decode h.bytes := by
    intro p
    have hbytes := h.length_bytes.trans hsize.symm
    rw [Framing.header, ← hbytes, List.take_left, if_neg (by rw [List.length_append]; omega)]
  constructor
  · intro haccept
    obtain ⟨p, hp⟩ := haccept
    cases hd : F.decode h.bytes with
    | some r => rfl
    | none =>
        have hnone := (hhead p).trans hd
        have hflat := flatten_arrive (h.bytes ++ p)
        have hnil := F.split_of_next_none (F.next_of_header_none hnone)
        have hread := hreads (arrive (h.bytes ++ p))
          (by rw [hflat, F.headers_of_header_none hnone]; simp) (by rw [hflat, hnil]; simp)
        rw [hflat, hnil] at hread
        exact absurd hread (hp _ hflat)
  · intro hsome
    obtain ⟨⟨t, n⟩, hd⟩ := Option.isSome_iff_exists.mp hsome
    obtain rfl : n = h.payloadLen.toNat := hdec _ hd
    let p := List.replicate h.payloadLen.toNat (0 : UInt8)
    have hp : F.decode h.bytes = some (t, p.length) := by rw [hd, List.length_replicate]
    have hnext := F.next_encode (h.length_bytes.trans hsize.symm) hp []
    rw [List.append_nil] at hnext
    refine ⟨p, fun s hs => ?_⟩
    have hsplit : F.split (flatten s) = [(t, p)] := by
      rw [hs, F.split_of_next hnext, F.split_nil]
    have hread := hreads s
      (by
        rw [hs, F.headers_of_next ((hhead p).trans hd) hnext, F.headers_nil]
        simpa using hlen)
      (by rw [hsplit]; simp)
    rw [hread, hsplit]
    exact List.cons_ne_nil _ _

end Reader

/-! ## host and tablet -/

/-- The tablet takes every header that the host takes. -/
theorem clientFraming_header_of_wireFraming (bs : List UInt8) (r : UInt16 × Nat)
    (h : wireFraming.header bs = some r) : clientFraming.header bs = some r := by
  obtain ⟨t, n⟩ := r
  obtain ⟨hsize, hmagic, -, ht, hn⟩ := wireFraming_header_eq_some_iff.mp h
  exact clientFraming_header_eq_some_iff.mpr ⟨hsize, hmagic, ht, hn⟩

/-- Host and tablet judge a header alike when it has another magic or the right version. -/
theorem header_eq_iff (bs : List UInt8) :
    wireFraming.header bs = clientFraming.header bs ↔
      (SpHeader.size ≤ bs.length → (SpHeader.ofBytes bs).magic = spMagic →
        (SpHeader.ofBytes bs).version = spVersion) := by
  constructor
  · intro heq hsize hmagic
    have hclient := clientFraming_header_eq_some_iff.mpr ⟨hsize, hmagic, rfl, rfl⟩
    exact (wireFraming_header_eq_some_iff.mp (heq.trans hclient)).2.2.1
  · intro hversion
    cases hclient : clientFraming.header bs with
    | none =>
        cases hwire : wireFraming.header bs with
        | none => rfl
        | some r =>
            rw [clientFraming_header_of_wireFraming bs r hwire] at hclient
            contradiction
    | some r =>
        obtain ⟨t, n⟩ := r
        obtain ⟨hsize, hmagic, ht, hn⟩ := clientFraming_header_eq_some_iff.mp hclient
        exact wireFraming_header_eq_some_iff.mpr ⟨hsize, hmagic, hversion hsize hmagic, ht, hn⟩

/-- **The two framers.**  On a stream whose lengths fit 31 bits and whose payloads
parse, `ReadFrame` and `receiveLoop` read the same frames and are stopped by a header
at the same frame exactly when every header with the protocol's magic on the way has
version 1: the host accepts a header by magic and version, the tablet by its magic. -/
theorem framers_agree_iff (srv : TcpServer) (type : UInt16) (payload : List UInt8) (c : Client) :
    (∀ s : List (Chunk UInt8), (∀ h ∈ clientFraming.headers (flatten s), h.2 < 2 ^ 31) →
      (∀ m ∈ clientFraming.split (flatten s), Parses m) →
        ((hostReads srv type payload s = tabletReads c s ∧
            ∀ k, StopsAt (hostReads srv type payload) s k ↔ StopsAt (tabletReads c) s k) ↔
          SpeaksVersion (flatten s))) ∧
      ∀ h : SpHeader, h.payloadLen.toNat < 2 ^ 31 →
        (Accepts (hostReads srv type payload) h ↔ h.magic = spMagic ∧ h.version = spVersion) ∧
          (Accepts (tabletReads c) h ↔ h.magic = spMagic) := by
  have hhost := hostReads_follows srv type payload
  have htablet := tabletReads_follows c
  constructor
  · intro s hlen hparse
    have hsub := clientFraming_header_of_wireFraming
    have hhead : wireFraming.headerLen = clientFraming.headerLen := rfl
    have hlen' : ∀ h ∈ wireFraming.headers (flatten s), h.2 < 2 ^ 31 := fun h hmem =>
      hlen h (Framing.headers_subset hhead hsub (flatten s) h hmem)
    have hparse' : ∀ m ∈ wireFraming.split (flatten s), Parses m := fun m hmem =>
      hparse m ((Framing.split_isPrefix_of_header hhead hsub (flatten s)).subset hmem)
    have hspeaks : SpeaksVersion (flatten s) ↔ ∀ k, wireFraming.header
        (clientFraming.after k (flatten s)) = clientFraming.header
          (clientFraming.after k (flatten s)) :=
      forall_congr' fun k => (header_eq_iff _).symm
    rw [hspeaks, ← Framing.agree_iff hhead hsub,
      hhost s hlen' fun m hm => hparse' m (List.dropLast_subset _ hm),
      htablet s hlen fun m hm => hparse m (List.dropLast_subset _ hm)]
    apply and_congr_right
    intro heq
    simp only [stopsAt_iff hhost rfl hlen' hparse', stopsAt_iff htablet rfl hlen hparse, heq]
    constructor
    · intro h
      simpa using h (clientFraming.split (flatten s)).length
    · intro h k
      rw [h]
  · intro h hlen
    constructor
    · rw [accepts_iff hhost rfl hlen (by simp [wireFraming, SpHeader.ofBytes_bytes])]
      simp [wireFraming, SpHeader.ofBytes_bytes]
    · rw [accepts_iff htablet rfl hlen (by simp [clientFraming, SpHeader.ofBytes_bytes])]
      simp [clientFraming, SpHeader.ofBytes_bytes]

/-- A control message without a payload. -/
def emptyControl (version : UInt16) : SpHeader :=
  { magic := spMagic, version := version, type := spMsgControl, seq := 1, tsUs := 0,
    payloadLen := 0 }

/-- A frame of PCM, and a control message with five bytes. -/
def audioAndControl : List UInt8 :=
  ({ emptyControl 1 with type := spMsgAudioFrame, payloadLen := 12 } : SpHeader).bytes ++
    [0x80, 0xBB, 0, 0, 0, 0, 2, 0, 1, 0, 2, 0] ++
    ({ emptyControl 1 with payloadLen := 5 } : SpHeader).bytes ++ [1, 0, 0, 0, 7]

theorem framers_agree_audioAndControl :
    hostReads ⟨none, 0, 0, [], 0⟩ 0 [] (arrive audioAndControl) =
        tabletReads {} (arrive audioAndControl) ∧
      clientFraming.split audioAndControl =
        [(spMsgAudioFrame, [0x80, 0xBB, 0, 0, 0, 0, 2, 0, 1, 0, 2, 0]),
          (spMsgControl, [1, 0, 0, 0, 7])] := by
  have haudio : clientFraming.header audioAndControl = some (spMsgAudioFrame, 12) := by decide
  have hfirst : clientFraming.next audioAndControl =
      some ((spMsgAudioFrame, [0x80, 0xBB, 0, 0, 0, 0, 2, 0, 1, 0, 2, 0]),
        audioAndControl.drop 36) := by decide
  have hcontrol : clientFraming.header (audioAndControl.drop 36) = some (spMsgControl, 5) := by
    decide
  have hsecond : clientFraming.next (audioAndControl.drop 36) =
      some ((spMsgControl, [1, 0, 0, 0, 7]), []) := by decide
  have hrest := clientFraming.next_of_header_none clientFraming.header_nil
  have hsplit := clientFraming.split_of_next hfirst
  rw [clientFraming.split_of_next hsecond, Framing.split_nil] at hsplit
  refine ⟨(((framers_agree_iff ⟨none, 0, 0, [], 0⟩ 0 [] {}).1 _ ?_ ?_).mpr fun k => ?_).1, hsplit⟩
  · rw [flatten_arrive, clientFraming.headers_of_next haudio hfirst,
      clientFraming.headers_of_next hcontrol hsecond, Framing.headers_nil]
    decide
  · rw [flatten_arrive, hsplit]
    decide
  · rw [flatten_arrive]
    rcases k with _ | _ | k
    · decide
    · rw [clientFraming.after_of_next hfirst]
      decide
    · rw [clientFraming.after_of_next hfirst, clientFraming.after_of_next hsecond,
        clientFraming.after_of_next_none hrest]
      decide

/-- A message of version 2 is read by the tablet only. -/
theorem tablet_reads_other_version :
    let s := arrive (emptyControl 2).bytes
    (∀ h ∈ clientFraming.headers (flatten s), h.2 < 2 ^ 31) ∧
      (∀ m ∈ clientFraming.split (flatten s), Parses m) ∧
      ¬ (hostReads ⟨none, 0, 0, [], 0⟩ 0 [] s = tabletReads {} s ∧
        ∀ k, StopsAt (hostReads ⟨none, 0, 0, [], 0⟩ 0 []) s k ↔ StopsAt (tabletReads {}) s k) := by
  intro s
  have hflat : flatten s = (emptyControl 2).bytes := flatten_arrive _
  have hwire : wireFraming.header (flatten s) = none := by rw [hflat]; decide
  have hheader : clientFraming.header (flatten s) = some (spMsgControl, 0) := by rw [hflat]; decide
  have hnext : clientFraming.next (flatten s) = some ((spMsgControl, []), []) := by
    rw [hflat]
    decide
  have hhost := hostReads_follows ⟨none, 0, 0, [], 0⟩ 0 [] s
  have htablet := tabletReads_follows {} s
  have hlen : ∀ h ∈ clientFraming.headers (flatten s), h.2 < 2 ^ 31 := by
    rw [clientFraming.headers_of_next hheader hnext, Framing.headers_nil]
    decide
  have hsplit : clientFraming.split (flatten s) = [(spMsgControl, [])] := by
    rw [clientFraming.split_of_next hnext, Framing.split_nil]
  rw [wireFraming.headers_of_header_none hwire,
    wireFraming.split_of_next_none (wireFraming.next_of_header_none hwire)] at hhost
  rw [hsplit] at htablet ⊢
  refine ⟨hlen, by decide, fun h => ?_⟩
  rw [hhost (by simp) (by simp), htablet hlen (by simp)] at h
  exact List.cons_ne_nil _ _ h.1.symm

end TwinScreen
