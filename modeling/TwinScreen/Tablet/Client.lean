import TwinScreen.Lib.Chunks
import TwinScreen.Tablet.Protocol

/-!
# TwinScreen.Tablet.Client

`Client.kt`, the tablet's TCP client: its fields, the operations on them, and
`receiveLoop`, which splits the host's byte stream into messages and queues the
video and audio frames.

* `receiveLoop_loops` — only the flattened stream matters; the cases of the loop
  are the rules of `Loops`, and the theorems below are inductions on them.
* `frames_receiveLoop_isPrefix` / `frames_receiveLoop_eq_split` — the messages
  read are a prefix of the client's framing of the stream, and all of it when
  nothing interrupts the loop.
* `exit_receiveLoop_iff` — the loop ends by returning exactly on the streams
  whose frames it reaches are harmless: no announced length has its sign bit
  set, and no payload makes a parser throw.

Allocations succeed: `ByteArray(len)` throws for a negative `len` only.
-/

namespace TwinScreen.Tablet

open Lib

/-! ## the client -/

/-- The fields of `Client`.  A `Socket` and its output stream are named by the
number of the connection attempt that made them. -/
structure Client where
  socket : Option Nat := none
  out : Option Nat := none
  connected : Bool := false
  stopRequested : Bool := false
  /-- The interrupt flag of the client thread. -/
  interrupted : Bool := false
  frames : List VideoFrame := []
  audioFrames : List AudioFrame := []
  ack : Option Ack := none
  queueDepth : Nat := 0
  reconnectActive : Bool := false
  /-- A 32-bit signed counter. -/
  reconnectAttempt : Int := 0
  deriving DecidableEq, Repr

namespace Client

def maxQueuedFrames : Nat := 4
def maxQueuedAudioFrames : Nat := 80

/-- `disconnect`; `interrupt()` sets the thread's flag. -/
def disconnect (c : Client) : Client :=
  { c with stopRequested := true, connected := false, socket := none, interrupted := true }

/-- The cleanup of `run` after `receiveLoop`. -/
def cleanup (c : Client) : Client :=
  { c with
    connected := false, socket := none, out := none, frames := [], audioFrames := [],
    queueDepth := 0 }

/-- `while (queue.size >= max) queue.poll()`. -/
def pollWhileFull (max : Nat) : List α → List α
  | [] => []
  | x :: q => if max ≤ (x :: q).length then pollWhileFull max q else x :: q

/-- The `when (type)` of `receiveLoop`; the parsers may throw. -/
def handleFrame (c : Client) (m : Message) : Except Throwable Client :=
  if m.1 = spMsgVideoFrame then
    match parseVideoFrame m.2 with
    | .error e => .error e
    | .ok f =>
        let frames := pollWhileFull maxQueuedFrames c.frames ++ [f]
        .ok { c with frames := frames, queueDepth := frames.length }
  else if m.1 = spMsgAudioFrame then
    match parseAudioFrame m.2 with
    | .error e => .error e
    | .ok f => .ok { c with audioFrames := pollWhileFull maxQueuedAudioFrames c.audioFrames ++ [f] }
  else
    .ok c

end Client

/-! ## the receive loop -/

/-- The header fields `receiveLoop` keeps. -/
structure RecvHeader where
  magic : Int
  type : UInt16
  len : Int

/-- The header as `receiveLoop` takes it from the buffer, field by field. -/
def getHeader : Get RecvHeader := do
  let magic ← Get.int
  let _version ← Get.short
  let type ← Get.short
  let _seq ← Get.int
  let _tsUs ← Get.num 8
  let len ← Get.int
  return ⟨magic, UInt16.ofNat (type % 65536).toNat, len⟩

/-- How `receiveLoop` ended. -/
inductive Exit
  | returned
  | threw (e : Throwable)
  deriving DecidableEq, Repr

/-- What `receiveLoop` leaves: the client, the messages it finished reading, and
its exit. -/
structure LoopResult where
  client : Client
  frames : List Message
  exit : Exit

/-- `receiveLoop` on what the input stream still delivers; a read error is the
end of the stream.  `alive i` is `connected.get() && !stopRequested.get()` at the
`i`-th test, which other threads decide too. -/
def receiveLoop (alive : Nat → Bool) (i : Nat) (c : Client) (s : List (Chunk UInt8)) : LoopResult :=
  if alive i = false then
    ⟨c, [], .returned⟩
  else
    match _hr : readExactly SpHeader.size s with
    | none => ⟨c, [], .returned⟩
    | some (header, s₁) =>
        match getHeader.run header with
        | .error e => ⟨c, [], .threw e⟩
        | .ok (h, _) =>
            if h.magic ≠ spMagic.toNat then
              ⟨c, [], .returned⟩
            else if h.len < 0 then
              ⟨c, [], .threw .negativeArraySize⟩
            else
              match _hp : readExactly h.len.toNat s₁ with
              | none => ⟨c, [], .returned⟩
              | some (payload, s₂) =>
                  match c.handleFrame (h.type, payload) with
                  | .error e => ⟨c, [(h.type, payload)], .threw e⟩
                  | .ok c₁ =>
                      let rest := receiveLoop alive (i + 1) c₁ s₂
                      ⟨rest.client, (h.type, payload) :: rest.frames, rest.exit⟩
termination_by (flatten s).length
decreasing_by
  obtain ⟨-, hs₁, hle⟩ := readExactly_eq_some _hr
  obtain ⟨-, hs₂, -⟩ := readExactly_eq_some _hp
  rw [hs₂, hs₁, List.length_drop, List.length_drop]
  have := SpHeader.size_pos
  omega

/-! ## the framing it applies -/

/-- The framing of `receiveLoop`: the magic is checked, the version is not. -/
def clientFraming : Framing UInt8 UInt16 where
  headerLen := SpHeader.size
  headerLen_pos := SpHeader.size_pos
  decode bs :=
    let h := SpHeader.ofBytes bs
    if h.magic = spMagic then some (h.type, h.payloadLen.toNat) else none

theorem clientFraming_header_eq_some_iff {bs : List UInt8} {t : UInt16} {n : Nat} :
    clientFraming.header bs = some (t, n) ↔
      SpHeader.size ≤ bs.length ∧ (SpHeader.ofBytes bs).magic = spMagic ∧
        t = (SpHeader.ofBytes bs).type ∧ n = (SpHeader.ofBytes bs).payloadLen.toNat := by
  simp only [Framing.header, clientFraming, SpHeader.ofBytes_take]
  by_cases hlen : bs.length < SpHeader.size
  · simp [hlen, Nat.not_le.mpr hlen]
  · by_cases hok : (SpHeader.ofBytes bs).magic = spMagic
    · simp [hlen, hok, Nat.not_lt.mp hlen, eq_comm]
    · simp [hlen, hok]

/-- The header fields the tablet takes are the fields of the struct, its length
read as a signed number. -/
theorem getHeader_run {bs : List UInt8} (hlen : SpHeader.size ≤ bs.length) :
    ∃ r rest, getHeader.run bs = .ok (r, rest) ∧
      (r.magic = spMagic.toNat ↔ (SpHeader.ofBytes bs).magic = spMagic) ∧
      r.type = (SpHeader.ofBytes bs).type ∧
      r.len = ((SpHeader.ofBytes bs).payloadLen.toNat : Int).bmod (256 ^ 4) := by
  have hsize : 24 ≤ bs.length := hlen
  have hrun : getHeader.run bs = .ok
      (⟨leInt ((bs.drop 0).take 4), UInt16.ofNat (leInt ((bs.drop 6).take 2) % 65536).toNat,
        leInt ((bs.drop 20).take 4)⟩, bs.drop 24) := by
    simp [getHeader, Get.bind_run, Get.int, Get.short, Get.num_run, List.drop_drop,
      List.length_drop, show 4 ≤ bs.length by omega, show 2 ≤ bs.length - 4 by omega,
      show 2 ≤ bs.length - 6 by omega, show 4 ≤ bs.length - 8 by omega,
      show 8 ≤ bs.length - 12 by omega, show 4 ≤ bs.length - 20 by omega]
  rw [leInt_field (by omega), leInt_field (by omega), leInt_field (by omega)] at hrun
  refine ⟨_, _, hrun, ?_, ?_, ?_⟩
  · have hmagic : (SpHeader.ofBytes bs).magic.toNat = fieldAt bs 0 4 := toNat_u32At bs 0
    have hcast := bmod_eq_natCast_iff (fieldAt_lt bs 0 4) (m := spMagic.toNat) (by decide)
    rw [← hmagic, UInt32.toNat_inj, hmagic] at hcast
    dsimp only
    exact hcast
  · show UInt16.ofNat _ = u16At bs 6
    have hmod : (((fieldAt bs 6 2 : Int).bmod (256 ^ 2)) % 65536).toNat = fieldAt bs 6 2 := by
      have hlt := fieldAt_lt bs 6 2
      rw [show (65536 : Int) = ((256 ^ 2 : Nat) : Int) from rfl, Int.bmod_emod]
      omega
    rw [hmod, u16At]
  · have hfield : (SpHeader.ofBytes bs).payloadLen.toNat = fieldAt bs 20 4 := toNat_u32At bs 20
    rw [hfield]

section Loop

variable {alive : Nat → Bool} {i : Nat} {c : Client} {s : List (Chunk UInt8)}

/-- Not alive: the loop returns. -/
theorem receiveLoop_of_not_alive (h : alive i = false) :
    receiveLoop alive i c s = ⟨c, [], .returned⟩ := by
  rw [receiveLoop, if_pos h]

/-- No header, or one with another magic: the loop returns. -/
theorem receiveLoop_of_header_none (halive : alive i = true)
    (h : clientFraming.header (flatten s) = none) :
    receiveLoop alive i c s = ⟨c, [], .returned⟩ := by
  rw [receiveLoop, if_neg (by simp [halive])]
  split
  · rfl
  · next hdr s₁ hr =>
      obtain ⟨rfl, -, hle⟩ := readExactly_eq_some hr
      have hsize : SpHeader.size ≤ ((flatten s).take SpHeader.size).length := by simpa using hle
      obtain ⟨r, rest, hrun, hmagic, -⟩ := getHeader_run hsize
      have hbad : ¬ (SpHeader.ofBytes (flatten s)).magic = spMagic := by
        intro hok
        have := clientFraming_header_eq_some_iff.mpr ⟨hle, hok, rfl, rfl⟩
        rw [h] at this
        contradiction
      rw [SpHeader.ofBytes_take] at hmagic
      simp only [hrun]
      rw [if_pos (fun hm => hbad (hmagic.mp hm))]

/-- What the loop does with a payload that was read. -/
def LoopResult.cons (m : Message) (r : LoopResult) : LoopResult := { r with frames := m :: r.frames }

/-- A header with the right magic: the payload is read and handled, unless the
length has its sign bit set. -/
theorem receiveLoop_of_header (halive : alive i = true) {t : UInt16} {n : Nat}
    (h : clientFraming.header (flatten s) = some (t, n)) :
    ∃ s₁, flatten s₁ = (flatten s).drop SpHeader.size ∧
      receiveLoop alive i c s =
        if 2 ^ 31 ≤ n then ⟨c, [], .threw .negativeArraySize⟩
        else
          match readExactly n s₁ with
          | none => ⟨c, [], .returned⟩
          | some (payload, s₂) =>
              match c.handleFrame (t, payload) with
              | .error e => ⟨c, [(t, payload)], .threw e⟩
              | .ok c₁ => (receiveLoop alive (i + 1) c₁ s₂).cons (t, payload) := by
  obtain ⟨hle, hok, rfl, rfl⟩ := clientFraming_header_eq_some_iff.mp h
  obtain ⟨s₁, hr, hs₁⟩ := exists_readExactly hle
  have hsize : SpHeader.size ≤ ((flatten s).take SpHeader.size).length := by simpa using hle
  obtain ⟨r, rest, hrun, hmagic, htype, hlen⟩ := getHeader_run hsize
  rw [SpHeader.ofBytes_take] at hmagic htype hlen
  have hlt := (SpHeader.ofBytes (flatten s)).payloadLen.toNat_lt
  refine ⟨s₁, hs₁, ?_⟩
  rw [receiveLoop, if_neg (by simp [halive])]
  split
  · next hnone => rw [hr] at hnone; contradiction
  · next hdr s₂ hsome =>
      rw [hr] at hsome
      cases hsome
      simp only [hrun, hmagic.mpr hok, ne_eq, not_true_eq_false, if_false, htype]
      generalize (SpHeader.ofBytes (flatten s)).payloadLen.toNat = n at hlt hlen
      have hbmod := hlen.trans (bmod_of_lt (p := 256 ^ 4) (by omega))
      by_cases hneg : 2 ^ 31 ≤ n
      · rw [if_neg (by omega)] at hbmod
        rw [if_pos hneg, if_pos (by omega)]
      · rw [if_pos (by omega)] at hbmod
        rw [if_neg hneg, if_neg (by omega)]
        have hn : r.len.toNat = n := by omega
        split
        · next hp => rw [hn] at hp; rw [hp]
        · next payload s₂ hp =>
            rw [hn] at hp
            simp only [hp]
            cases c.handleFrame ((SpHeader.ofBytes (flatten s)).type, payload) <;> rfl

/-- A length with its sign bit set: `ByteArray(len)` throws. -/
theorem receiveLoop_of_oversize (halive : alive i = true) {t : UInt16} {n : Nat}
    (h : clientFraming.header (flatten s) = some (t, n)) (hn : 2 ^ 31 ≤ n) :
    receiveLoop alive i c s = ⟨c, [], .threw .negativeArraySize⟩ := by
  obtain ⟨s₁, -, hr⟩ := receiveLoop_of_header (c := c) halive h
  rw [hr, if_pos hn]

/-- A frame the stream does not finish: the loop returns. -/
theorem receiveLoop_of_next_none (halive : alive i = true) {t : UInt16} {n : Nat}
    (h : clientFraming.header (flatten s) = some (t, n)) (hn : n < 2 ^ 31)
    (hnext : clientFraming.next (flatten s) = none) :
    receiveLoop alive i c s = ⟨c, [], .returned⟩ := by
  obtain ⟨s₁, hs₁, hr⟩ := receiveLoop_of_header (c := c) halive h
  have hhead := clientFraming.headerLen_le_of_header h
  have hshort : readExactly n s₁ = none := by
    rw [readExactly_eq_none_iff, hs₁, List.length_drop]
    by_contra hge
    have hsize : clientFraming.headerLen = SpHeader.size := rfl
    have := clientFraming.next_eq_some_iff.mpr ⟨n, h, by omega, rfl, rfl⟩
    rw [hnext] at this
    contradiction
  rw [hr, if_neg (by omega), hshort]

/-- A complete frame: it is handled, and the loop goes on unless a parser throws. -/
theorem receiveLoop_of_next (halive : alive i = true) {t : UInt16} {n : Nat}
    (h : clientFraming.header (flatten s) = some (t, n)) (hn : n < 2 ^ 31) {m : Message}
    {rest : List UInt8} (hnext : clientFraming.next (flatten s) = some (m, rest)) :
    ∃ s₂, flatten s₂ = rest ∧
      receiveLoop alive i c s =
        match c.handleFrame m with
        | .error e => ⟨c, [m], .threw e⟩
        | .ok c₁ => (receiveLoop alive (i + 1) c₁ s₂).cons m := by
  obtain ⟨t', p⟩ := m
  obtain ⟨n', h', hle, rfl, rfl⟩ := clientFraming.next_eq_some_iff.mp hnext
  rw [h, Option.some.injEq, Prod.mk.injEq] at h'
  obtain ⟨rfl, rfl⟩ := h'
  obtain ⟨s₁, hs₁, hr⟩ := receiveLoop_of_header (c := c) halive h
  have hsize : clientFraming.headerLen = SpHeader.size := rfl
  obtain ⟨s₂, hr₂, hs₂⟩ :=
    exists_readExactly (n := n) (s := s₁) (by rw [hs₁, List.length_drop]; omega)
  refine ⟨s₂, by rw [hs₂, hs₁, List.drop_drop, hsize], ?_⟩
  rw [hr, if_neg (by omega), hr₂, hs₁, hsize]

end Loop

/-- The loop on a flattened stream, one rule for each way through its body. -/
inductive Loops (alive : Nat → Bool) : Nat → Client → List UInt8 → LoopResult → Prop
  | dead {i c bs} (h : alive i = false) : Loops alive i c bs ⟨c, [], .returned⟩
  | noHeader {i c bs} (h : clientFraming.header bs = none) : Loops alive i c bs ⟨c, [], .returned⟩
  | oversize {i c bs t n} (ha : alive i = true) (h : clientFraming.header bs = some (t, n))
      (hn : 2 ^ 31 ≤ n) : Loops alive i c bs ⟨c, [], .threw .negativeArraySize⟩
  | unfinished {i c bs t n} (h : clientFraming.header bs = some (t, n)) (hn : n < 2 ^ 31)
      (hnext : clientFraming.next bs = none) : Loops alive i c bs ⟨c, [], .returned⟩
  | throws {i c bs m rest e} (ha : alive i = true)
      (hnext : clientFraming.next bs = some (m, rest)) (hm : c.handleFrame m = .error e) :
      Loops alive i c bs ⟨c, [m], .threw e⟩
  | frame {i c bs t n m rest c₁ r} (ha : alive i = true)
      (h : clientFraming.header bs = some (t, n)) (hn : n < 2 ^ 31)
      (hnext : clientFraming.next bs = some (m, rest)) (hm : c.handleFrame m = .ok c₁)
      (hrest : Loops alive (i + 1) c₁ rest r) : Loops alive i c bs (r.cons m)

/-- **The cuts do not matter**: `receiveLoop` is the loop on the flattened stream. -/
theorem receiveLoop_loops (alive : Nat → Bool) (i : Nat) (c : Client) (s : List (Chunk UInt8)) :
    Loops alive i c (flatten s) (receiveLoop alive i c s) := by
  induction hk : (flatten s).length using Nat.strong_induction_on generalizing i c s with
  | h k ih =>
      cases halive : alive i with
      | false => rw [receiveLoop_of_not_alive halive]; exact .dead halive
      | true =>
          cases hh : clientFraming.header (flatten s) with
          | none => rw [receiveLoop_of_header_none halive hh]; exact .noHeader hh
          | some h =>
              obtain ⟨t, n⟩ := h
              by_cases hn : 2 ^ 31 ≤ n
              · rw [receiveLoop_of_oversize halive hh hn]
                exact .oversize halive hh hn
              · have hn : n < 2 ^ 31 := by omega
                cases hnext : clientFraming.next (flatten s) with
                | none =>
                    rw [receiveLoop_of_next_none halive hh hn hnext]
                    exact .unfinished hh hn hnext
                | some r =>
                    obtain ⟨m, rest⟩ := r
                    obtain ⟨s₂, rfl, hr⟩ := receiveLoop_of_next (c := c) halive hh hn hnext
                    have hlt := clientFraming.length_lt_of_next hnext
                    rw [hr]
                    cases hm : c.handleFrame m with
                    | error e => exact .throws halive hnext hm
                    | ok c₁ =>
                        exact .frame halive hh hn hnext hm (ih _ (by omega) (i + 1) c₁ s₂ rfl)

/-! ## what the loop reads -/

/-- The parser of the message's type returns on its payload. -/
def Parses (m : Message) : Prop :=
  if m.1 = spMsgVideoFrame then VideoFits m.2
  else if m.1 = spMsgAudioFrame then AudioFits m.2
  else True

instance (m : Message) : Decidable (Parses m) := by
  unfold Parses
  infer_instance

/-- Handling a message returns when its parser does. -/
theorem handleFrame_returns_iff (c : Client) (m : Message) :
    (∃ c₁, c.handleFrame m = .ok c₁) ↔ Parses m := by
  unfold Client.handleFrame Parses
  split
  · rw [← parseVideoFrame_returns_iff]
    cases parseVideoFrame m.2 <;> simp
  · split
    · rw [← parseAudioFrame_returns_iff]
      cases parseAudioFrame m.2 <;> simp
    · simp

theorem not_parses_of_error {c : Client} {m : Message} {e : Throwable}
    (h : c.handleFrame m = .error e) : ¬ Parses m := by
  rw [← handleFrame_returns_iff c m]
  simp [h]

/-- **The messages read** are a prefix of the client's framing of the stream. -/
theorem frames_receiveLoop_isPrefix (alive : Nat → Bool) (i : Nat) (c : Client)
    (s : List (Chunk UInt8)) :
    (receiveLoop alive i c s).frames <+: clientFraming.split (flatten s) := by
  have hloop := receiveLoop_loops alive i c s
  generalize flatten s = bs, receiveLoop alive i c s = r at hloop ⊢
  induction hloop with
  | dead | noHeader | oversize | unfinished => exact List.nil_prefix
  | throws ha hnext hm =>
      rw [clientFraming.split_of_next hnext]
      exact List.cons_prefix_cons.mpr ⟨rfl, List.nil_prefix⟩
  | frame ha h hn hnext hm hrest ih =>
      rw [clientFraming.split_of_next hnext]
      exact List.cons_prefix_cons.mpr ⟨rfl, ih⟩

theorem mem_dropLast_cons {α : Type} {a x : α} {l : List α} (h : x ∈ l.dropLast) :
    x ∈ (a :: l).dropLast := by
  cases l with
  | nil => contradiction
  | cons b l => exact List.mem_cons_of_mem a h

/-- A loop that nothing interrupts reads the whole framing of a stream whose
frames it can take, the last of which may make its parser throw. -/
theorem frames_receiveLoop_eq_split_of_dropLast {alive : Nat → Bool}
    (halive : ∀ i, alive i = true) (c : Client) {s : List (Chunk UInt8)}
    (hlen : ∀ h ∈ clientFraming.headers (flatten s), h.2 < 2 ^ 31)
    (hparse : ∀ m ∈ (clientFraming.split (flatten s)).dropLast, Parses m) (i : Nat) :
    (receiveLoop alive i c s).frames = clientFraming.split (flatten s) := by
  have hloop := receiveLoop_loops alive i c s
  generalize flatten s = bs, receiveLoop alive i c s = r at hloop hlen hparse ⊢
  induction hloop with
  | dead h => rw [halive] at h; contradiction
  | noHeader h => exact (clientFraming.split_of_next_none (clientFraming.next_of_header_none h)).symm
  | oversize ha h hn =>
      have := hlen _ (clientFraming.mem_headers_of_header h)
      omega
  | unfinished h hn hnext => exact (clientFraming.split_of_next_none hnext).symm
  | @throws i c bs m rest e ha hnext hm =>
      rw [clientFraming.split_of_next hnext] at hparse ⊢
      cases hrest : clientFraming.split rest with
      | nil => rfl
      | cons m' ms =>
          rw [hrest] at hparse
          exact absurd (hparse m List.mem_cons_self) (not_parses_of_error hm)
  | frame ha h hn hnext hm hrest ih =>
      rw [clientFraming.split_of_next hnext] at hparse ⊢
      have ih := ih (fun h' hmem => hlen h' (clientFraming.mem_headers_of_next hnext hmem))
        fun m' hmem => hparse m' (mem_dropLast_cons hmem)
      show _ :: _ = _
      rw [ih]

/-- A loop that nothing interrupts reads the whole framing of a stream whose
frames it can take. -/
theorem frames_receiveLoop_eq_split {alive : Nat → Bool} (halive : ∀ i, alive i = true)
    (c : Client) {s : List (Chunk UInt8)}
    (hlen : ∀ h ∈ clientFraming.headers (flatten s), h.2 < 2 ^ 31)
    (hparse : ∀ m ∈ clientFraming.split (flatten s), Parses m) (i : Nat) :
    (receiveLoop alive i c s).frames = clientFraming.split (flatten s) :=
  frames_receiveLoop_eq_split_of_dropLast halive c hlen
    (fun m hm => hparse m (List.dropLast_subset _ hm)) i

/-! ## how the loop ends -/

/-- The messages the loop reaches are harmless: no length among the headers has
its sign bit set, and every payload parses. -/
def Harmless (alive : Nat → Bool) (i : Nat) (bs : List UInt8) : Prop :=
  ∀ k, (∀ j ≤ k, alive (i + j) = true) →
    (∀ h, (clientFraming.headers bs)[k]? = some h → h.2 < 2 ^ 31) ∧
      ∀ m, (clientFraming.split bs)[k]? = some m → Parses m

/-- Harmless from one frame on: that frame is, and what follows it is. -/
theorem harmless_of_next {alive : Nat → Bool} {i : Nat} {bs rest : List UInt8} {t : UInt16}
    {n : Nat} {m : Message} (halive : alive i = true)
    (h : clientFraming.header bs = some (t, n)) (hnext : clientFraming.next bs = some (m, rest)) :
    Harmless alive i bs ↔ n < 2 ^ 31 ∧ Parses m ∧ Harmless alive (i + 1) rest := by
  unfold Harmless
  rw [clientFraming.headers_of_next h hnext, clientFraming.split_of_next hnext]
  constructor
  · intro hall
    have hzero := hall 0 (by simpa using halive)
    refine ⟨hzero.1 _ rfl, hzero.2 _ rfl, fun k hk => ?_⟩
    refine hall (k + 1) fun j hj => ?_
    cases j with
    | zero => exact halive
    | succ j => rw [← hk j (by omega)]; congr 1; omega
  · intro hall k hk
    obtain ⟨hn, hm, hrest⟩ := hall
    cases k with
    | zero => simpa using ⟨hn, hm⟩
    | succ k =>
        refine hrest k fun j hj => ?_
        rw [← hk (j + 1) (by omega)]
        congr 1
        omega

/-- **How the loop ends**: by returning exactly when what it reaches is harmless. -/
theorem exit_receiveLoop_iff (alive : Nat → Bool) (i : Nat) (c : Client) (s : List (Chunk UInt8)) :
    (receiveLoop alive i c s).exit = .returned ↔ Harmless alive i (flatten s) := by
  have hloop := receiveLoop_loops alive i c s
  generalize flatten s = bs, receiveLoop alive i c s = r at hloop ⊢
  induction hloop with
  | dead h =>
      refine iff_of_true rfl fun k hk => ?_
      have := hk 0 (Nat.zero_le k)
      rw [Nat.add_zero, h] at this
      contradiction
  | noHeader h =>
      refine iff_of_true rfl fun k _ => ?_
      rw [clientFraming.headers_of_header_none h,
        clientFraming.split_of_next_none (clientFraming.next_of_header_none h)]
      simp
  | oversize ha h hn =>
      refine iff_of_false (by simp) fun hall => ?_
      have := (hall 0 (by simpa using ha)).1 _ (clientFraming.headers_getElem?_zero h)
      omega
  | unfinished h hn hnext =>
      refine iff_of_true rfl fun k _ => ?_
      rw [clientFraming.headers_of_next_none h hnext, clientFraming.split_of_next_none hnext]
      cases k with
      | zero => simpa using hn
      | succ k => simp
  | throws ha hnext hm =>
      refine iff_of_false (by simp) fun hall => ?_
      obtain ⟨n, h, -⟩ := clientFraming.next_eq_some_iff.mp hnext
      exact not_parses_of_error hm ((harmless_of_next ha h hnext).mp hall).2.1
  | frame ha h hn hnext hm hrest ih =>
      have hparse := (handleFrame_returns_iff _ _).mp ⟨_, hm⟩
      rw [harmless_of_next ha h hnext]
      simp only [hn, hparse, true_and]
      exact ih

/-- What `run` does with a connected stream: the loop, the cleanup, and whether a
reconnect follows; `stopRequested` is the flag after the cleanup.  An exception
leaves `run`. -/
def runLink (alive : Nat → Bool) (stopRequested : Bool) (c : Client) (s : List (Chunk UInt8)) :
    Except Throwable (Client × Bool) :=
  let r := receiveLoop alive 0 c s
  match r.exit with
  | .threw e => .error e
  | .returned => .ok (r.client.cleanup, !stopRequested)

/-- The state the cleanup leaves. -/
structure Cleared (c : Client) : Prop where
  connected : c.connected = false
  socket : c.socket = none
  frames : c.frames = []
  audioFrames : c.audioFrames = []

/-- **Malformed streams.**  The loop returns, and `run` gets to its cleanup and
retries, exactly when the messages the loop reaches are harmless. -/
theorem runLink_cleans_up_iff (alive : Nat → Bool) (stopRequested : Bool) (c : Client)
    (s : List (Chunk UInt8)) :
    ((receiveLoop alive 0 c s).exit = .returned ↔ Harmless alive 0 (flatten s)) ∧
      ((∃ c', runLink alive stopRequested c s = .ok (c', !stopRequested) ∧ Cleared c') ↔
        Harmless alive 0 (flatten s)) := by
  have hexit := exit_receiveLoop_iff alive 0 c s
  refine ⟨hexit, ?_⟩
  rw [← hexit]
  simp only [runLink]
  generalize receiveLoop alive 0 c s = r
  obtain ⟨c₁, ms, exit⟩ := r
  cases exit with
  | returned => exact iff_of_true ⟨c₁.cleanup, rfl, rfl, rfl, rfl, rfl⟩ rfl
  | threw e => simp

/-- A video message without a payload. -/
def emptyVideoHeader : SpHeader :=
  { magic := spMagic, version := spVersion, type := spMsgVideoFrame, seq := 1, tsUs := 0,
    payloadLen := 0 }

/-- Such a message ends the client thread. -/
theorem receiveLoop_throws :
    ¬ ((receiveLoop (fun _ => true) 0 {} (arrive emptyVideoHeader.bytes)).exit = .returned ∧
      ∃ c', runLink (fun _ => true) false {} (arrive emptyVideoHeader.bytes) = .ok (c', true) ∧
        Cleared c') := by
  have hh : clientFraming.header emptyVideoHeader.bytes = some (spMsgVideoFrame, 0) := by
    rw [clientFraming_header_eq_some_iff, SpHeader.ofBytes_bytes]
    decide
  have hnext : clientFraming.next emptyVideoHeader.bytes = some ((spMsgVideoFrame, []), []) :=
    clientFraming.next_eq_some_iff.mpr ⟨0, hh, by decide, by decide, by decide⟩
  intro h
  have hharm := (exit_receiveLoop_iff _ _ _ _).mp h.1
  rw [flatten_arrive, harmless_of_next rfl hh hnext] at hharm
  exact absurd hharm.2.1 (by decide)

end TwinScreen.Tablet
