import TwinScreen.Lib.Machine
import TwinScreen.Lib.Trace
import TwinScreen.Tablet.Client

/-!
# TwinScreen.Tablet.Player

`VideoPlayer.feedLoop` between the client's frame queue and the decoder, as a
machine of several threads: `receiveLoop`, which drops the oldest frames of a full
queue, the feed thread of every `VideoPlayer` that a surface has brought about, and
the UI thread that starts and stops them.

* `recv_alone` — undisturbed, the receiver does what `Client.handleFrame` says.
* `gaps_answered` — after a gap the decoder gets a keyframe, or one has been asked
  for, in every run in which a decoder starts on a keyframe and no frame is
  dropped behind a running decoder without a request.
-/

namespace TwinScreen.Tablet

open Lib

/-! ## the threads -/

/-- A frame that was received: the link it came on, and its number among all. -/
structure Arrival where
  link : Nat
  number : Nat
  frame : VideoFrame
  deriving DecidableEq, Repr

/-- Where `receiveLoop` is with a video frame. -/
inductive Recv
  | idle
  /-- At `frames.size >= MAX_QUEUED_FRAMES`. -/
  | testing (f : Arrival)
  /-- At `frames.poll()`. -/
  | polling (f : Arrival)
  deriving DecidableEq, Repr

/-- Where `feedLoop` is. -/
inductive FeedPc
  /-- At `while (running)`. -/
  | top
  /-- At `client.nextFrame()`. -/
  | polling
  /-- At `if (!configured)`. -/
  | checkConfigured (f : Arrival)
  /-- At `codec ?: continue`. -/
  | readCodec (f : Arrival)
  /-- At `c.dequeueInputBuffer`. -/
  | dequeue (f : Arrival)
  | done
  deriving DecidableEq, Repr

/-- A started `VideoPlayer` with its feed thread; `codec` says that one is set. -/
structure Player where
  running : Bool := true
  codec : Bool := false
  configured : Bool := false
  idleStreak : Nat := 0
  pc : FeedPc := .top
  deriving DecidableEq, Repr

/-- The client's frame queue, and the players on it. -/
structure Playback where
  /-- Number of links so far. -/
  link : Nat := 0
  up : Bool := false
  /-- Number of frames received so far. -/
  arrived : Nat := 0
  frames : List Arrival := []
  recv : Recv := .idle
  players : List Player := []
  /-- `RenderView.player`. -/
  player : Option Nat := none
  /-- `surfaceDestroyed` is inside `player.stop()`. -/
  stopping : Bool := false
  deriving DecidableEq, Repr

/-- The `MediaFormat` a decoder is configured with. -/
structure MediaFormat where
  hevc : Bool
  width : Int
  height : Int
  deriving DecidableEq, Repr

/-- What is seen of the playback. -/
inductive PlayEvent
  /-- `requestKeyframe` is called. -/
  | requested
  /-- The queue, or the feed loop, drops a frame. -/
  | dropped (f : Arrival)
  /-- A player has configured and started a decoder. -/
  | configured (player : Nat) (format : MediaFormat)
  /-- A player queues a frame's bytes to its decoder. -/
  | fed (player : Nat) (f : Arrival) (bytes : List UInt8)
  deriving DecidableEq, Repr

/-- How a step of `feedLoop` ends. -/
inductive Outcome
  /-- It calls nothing of the decoder's. -/
  | go
  | configured
  | notConfigured
  /-- `dequeueInputBuffer` throws an `IllegalStateException`. -/
  | illegalState
  /-- It returns a negative index. -/
  | noIndex
  /-- `getInputBuffer` returns null. -/
  | noBuffer
  | queued
  /-- Another call throws. -/
  | throws
  deriving DecidableEq, Repr

/-- What can happen next. -/
inductive PlayInput
  /-- The client thread is connected. -/
  | linkUp
  /-- The cleanup of `run`. -/
  | linkLost
  /-- `receiveLoop` has parsed a video frame. -/
  | arrive (f : VideoFrame)
  /-- `receiveLoop` goes on with it. -/
  | recvGo
  | surfaceCreated
  /-- `surfaceDestroyed`, and the first writes of `stop`. -/
  | surfaceDestroyed
  /-- The rest of `stop`. -/
  | stopped
  /-- A feed thread goes on. -/
  | feed (player : Nat) (o : Outcome)
  deriving DecidableEq, Repr

def maxStaleFrames : Nat := 4
def startCode : List UInt8 := [0x00, 0x00, 0x00, 0x01]
def codecHevc : Int := 1

/-- The bytes of a frame for the decoder: wire NALs carry no start codes. -/
def annexB (nals : List (List UInt8)) : List UInt8 := nals.flatMap (startCode ++ ·)

/-- The format `configure` asks for. -/
def formatOf (f : VideoFrame) : MediaFormat := ⟨f.codec = codecHevc, f.displayW, f.displayH⟩

/-- `feedLoop` of player `i` at the decoder's input buffers. -/
def dequeueInput (i : Nat) (frames : List Arrival) (p : Player) (f : Arrival) :
    Outcome → Option (List Arrival × Player × List PlayEvent)
  | .illegalState => some (frames, { p with pc := .top }, [.dropped f, .requested])
  | .noIndex =>
      -- `while (client.frames.size > MAX_STALE_FRAMES) client.frames.poll()`
      let stale := frames.length - maxStaleFrames
      some (frames.drop stale, { p with pc := .top },
        (frames.take stale).map .dropped ++ [.dropped f])
  | .noBuffer => some (frames, { p with pc := .top }, [.dropped f])
  | .queued => some (frames, { p with pc := .top }, [.fed i f (annexB f.frame.nals)])
  | .throws => some (frames, { p with pc := .done }, [.dropped f])
  | .go | .configured | .notConfigured => none

/-- One step of `feedLoop` of player `i`. -/
def feedLoop (i : Nat) (frames : List Arrival) (p : Player) (o : Outcome) :
    Option (List Arrival × Player × List PlayEvent) :=
  match p.pc, o with
  | .top, .go => some (frames, { p with pc := if p.running then .polling else .done }, [])
  | .polling, .go =>
      match frames with
      | [] =>
          let idleStreak := (p.idleStreak + 1) % 2 ^ 32
          let p' := { p with pc := .top, idleStreak := idleStreak }
          some ([], p', if idleStreak = 30 then [.requested] else [])
      | f :: q => some (q, { p with pc := .checkConfigured f, idleStreak := 0 }, [])
  | .checkConfigured f, .go =>
      if p.configured then some (frames, { p with pc := .readCodec f }, []) else none
  | .checkConfigured f, .configured =>
      if p.configured then none
      else
        let p' := { p with pc := .readCodec f, codec := true, configured := true }
        some (frames, p', [.configured i (formatOf f.frame)])
  | .checkConfigured f, .notConfigured =>
      if p.configured then none
      else some (frames, { p with pc := .top }, [.dropped f, .requested])
  | .readCodec f, .go =>
      if p.codec then some (frames, { p with pc := .dequeue f }, [])
      else some (frames, { p with pc := .top }, [.dropped f])
  | .dequeue f, o => dequeueInput i frames p f o
  | _, _ => none

/-- `receiveLoop` with a frame in hand. -/
def recvGo (s : Playback) : Option (Playback × List PlayEvent) :=
  match s.recv with
  | .idle => none
  | .testing f =>
      if Client.maxQueuedFrames ≤ s.frames.length then some ({ s with recv := .polling f }, [])
      else some ({ s with frames := s.frames ++ [f], recv := .idle }, [])
  | .polling f =>
      match s.frames with
      | [] => some ({ s with recv := .testing f }, [])
      | m :: q => some ({ s with frames := q, recv := .testing f }, [.dropped m])

/-- The first writes of `VideoPlayer.stop`. -/
def Player.stop (p : Player) : Player := { p with running := false, configured := false }

/-- The last write of `VideoPlayer.stop`. -/
def Player.release (p : Player) : Player := { p with codec := false }

/-- One step of the playback. -/
def playStep (s : Playback) : PlayInput → Option (Playback × List PlayEvent)
  | .linkUp =>
      if s.up then none else some ({ s with link := s.link + 1, up := true }, [.requested])
  | .linkLost =>
      if s.up ∧ s.recv = .idle then some ({ s with up := false, frames := [] }, []) else none
  | .arrive v =>
      if s.up ∧ s.recv = .idle then
        let f : Arrival := ⟨s.link, s.arrived, v⟩
        some ({ s with recv := .testing f, arrived := s.arrived + 1 }, [])
      else none
  | .recvGo => recvGo s
  | .surfaceCreated =>
      if s.stopping then none
      else
        some ({ s with players := s.players ++ [{}], player := some s.players.length }, [])
  | .surfaceDestroyed =>
      if s.stopping then none
      else
        match s.player with
        | none => some (s, [])
        | some i => some ({ s with players := s.players.modify i .stop, stopping := true }, [])
  | .stopped =>
      match s.stopping, s.player with
      | true, some i =>
          let players := s.players.modify i .release
          some ({ s with players := players, player := none, stopping := false }, [])
      | _, _ => none
  | .feed i o =>
      match s.players[i]? with
      | none => none
      | some p =>
          match feedLoop i s.frames p o with
          | none => none
          | some (frames, p', os) =>
              some ({ s with frames := frames, players := s.players.set i p' }, os)

/-- The playback as a machine. -/
def playback : Machine Playback PlayInput PlayEvent where
  step := playStep

/-- **Undisturbed**, the receiver polls and adds as `Client.handleFrame` does. -/
theorem recv_alone (s : Playback) {f : Arrival} (h : s.recv = .testing f) :
    ∃ n tr, playback.run s (List.replicate n .recvGo) = some
      ({ s with
          recv := .idle
          frames := Client.pollWhileFull Client.maxQueuedFrames s.frames ++ [f] }, tr) := by
  induction hq : s.frames generalizing s with
  | nil =>
      refine ⟨1, [], ?_⟩
      simp [Machine.run, playback, playStep, recvGo, h, hq, Client.maxQueuedFrames,
        Client.pollWhileFull]
  | cons m q ih =>
      by_cases hfull : Client.maxQueuedFrames ≤ (m :: q).length
      · have htest : playStep s .recvGo = some ({ s with recv := .polling f }, []) := by
          simp only [playStep, recvGo, h, hq, if_pos hfull]
        have hpoll : playStep { s with recv := .polling f } .recvGo = some
            ({ s with frames := q, recv := .testing f }, [.dropped m]) := by
          simp only [playStep, recvGo, hq]
        obtain ⟨n, tr, hrun⟩ := ih { s with frames := q, recv := .testing f } rfl rfl
        refine ⟨n + 2, .dropped m :: tr, ?_⟩
        rw [Client.pollWhileFull, if_pos hfull]
        simp only [playback] at hrun
        simp [List.replicate_succ, Machine.run, playback, htest, hpoll, hrun]
      · have hadd : playStep s .recvGo = some
            ({ s with frames := m :: q ++ [f], recv := .idle }, []) := by
          simp only [playStep, recvGo, h, hq, if_neg hfull]
        refine ⟨1, [], ?_⟩
        rw [Client.pollWhileFull, if_neg hfull]
        simp [Machine.run, playback, hadd]

/-! ## gaps -/

/-- Player `i` starts a decoder. -/
def Starts (i : Nat) : PlayEvent → Prop
  | .configured j _ => j = i
  | _ => False

/-- Player `i` feeds a frame. -/
def Feeds (i : Nat) : PlayEvent → Prop
  | .fed j _ _ => j = i
  | _ => False

/-- Player `i` has a decoder it has not fed, and no keyframe was requested since
the decoder's start. -/
def NewDecoder (i : Nat) (tr : List PlayEvent) : Prop :=
  Pending (Starts i) (fun e => e = .requested ∨ Feeds i e) tr

/-- Frame `m` was dropped, and no keyframe was requested since. -/
def Unanswered (m : Arrival) (tr : List PlayEvent) : Prop :=
  Pending (· = .dropped m) (· = .requested) tr

/-- `g` is the last frame that player `i` fed. -/
def LastFed (i : Nat) (g : Arrival) (tr : List PlayEvent) : Prop :=
  Pending (fun e => ∃ bytes, e = .fed i g bytes) (Feeds i) tr

/-- Of the link of `f` and of the frames between the one player `i` fed last and `f`,
one was dropped and no keyframe was requested since. -/
def Missing (i : Nat) (f : Arrival) (tr : List PlayEvent) : Prop :=
  ∃ m, Unanswered m tr ∧ m.link = f.link ∧ m.number < f.number ∧
    ∀ g, LastFed i g tr → g.number < m.number

/-- A frame behind a gap is a keyframe, or one was requested. -/
def GapAnswered (before : List PlayEvent) : PlayEvent → Prop
  | .fed i f _ =>
      f.frame.keyframe = true ∨ (¬ NewDecoder i before ∧ ¬ Missing i f before)
  | _ => True

/-- The player may feed a decoder it has started, or has a frame in hand. -/
def Player.Feeding (p : Player) : Prop :=
  match p.pc with
  | .top => p.running = true ∧ p.configured = true
  | .polling => p.configured = true
  | .checkConfigured _ | .readCodec _ | .dequeue _ => True
  | .done => False

/-- No player but `i` is feeding. -/
def Playback.QuietBut (s : Playback) (i : Nat) : Prop :=
  ∀ j p, s.players[j]? = some p → j ≠ i → ¬ p.Feeding

/-- The steps that leave no gap unanswered: a decoder starts on a keyframe, and a
frame for which no keyframe is requested is dropped only when nobody is feeding. -/
def AnswersGaps (s : Playback) : PlayInput → Prop
  | .recvGo =>
      match s.recv, s.frames with
      | .polling _, _ :: _ => ∀ p ∈ s.players, ¬ p.Feeding
      | _, _ => True
  | .feed i o => ∀ p, s.players[i]? = some p →
      match p.pc, o with
      | .checkConfigured f, .configured => f.frame.keyframe = true
      | .readCodec _, .go =>
          p.codec = false → (p.running = false ∨ p.configured = false) ∧ s.QuietBut i
      | .dequeue _, .noIndex | .dequeue _, .noBuffer =>
          (p.running = false ∨ p.configured = false) ∧ s.QuietBut i
      | .dequeue _, .throws => s.QuietBut i
      | _, _ => True
  | _ => True

/-! ## the invariant -/

/-- The frames that wait, in the order in which they came. -/
def Playback.waiting (s : Playback) : List Arrival :=
  s.frames ++ match s.recv with
    | .idle => []
    | .testing f | .polling f => [f]

/-- Number `n` is before all that waits and all that is to come. -/
def Playback.Ahead (s : Playback) (n : Nat) : Prop :=
  n < s.arrived ∧ ∀ w ∈ s.waiting, n < w.number

/-- Player `i` is past its gaps. -/
structure Settled (i : Nat) (tr : List PlayEvent) : Prop where
  decoder : ¬ NewDecoder i tr
  dropped : ∀ m, Unanswered m tr → ∃ g, LastFed i g tr ∧ m.number ≤ g.number

/-- A frame in a player's hand is past the unanswered drops, and ahead of the rest. -/
structure InHand (s : Playback) (tr : List PlayEvent) (f : Arrival) : Prop where
  ahead : s.Ahead f.number
  dropped : ∀ m, Unanswered m tr → m.number < f.number

/-- What holds of player `i`, by where its feed thread is. -/
def PlayerInv (s : Playback) (tr : List PlayEvent) (i : Nat) (p : Player) : Prop :=
  match p.pc with
  | .top => p.running = true → p.configured = true → Settled i tr
  | .polling => p.configured = true → Settled i tr
  | .checkConfigured f => InHand s tr f ∧ (p.configured = true → Settled i tr)
  | .readCodec f | .dequeue f =>
      InHand s tr f ∧ (f.frame.keyframe = true ∨ Settled i tr)
  | .done => True

/-- What waits is in order, and has arrived. -/
structure Ordered (s : Playback) : Prop where
  sorted : s.waiting.Pairwise fun v w => v.number < w.number
  below : ∀ w ∈ s.waiting, w.number < s.arrived

/-- The invariant of the runs that answer their gaps. -/
structure Decodes (s : Playback) (tr : List PlayEvent) : Prop where
  ordered : Ordered s
  ahead : ∀ m, .dropped m ∈ tr → s.Ahead m.number
  players : ∀ i p, s.players[i]? = some p → PlayerInv s tr i p
  law : Each GapAnswered tr

/-! ### traces that grow -/

/-- The event makes no gap for player `i`, and feeds it nothing. -/
def Mild (i : Nat) : PlayEvent → Prop
  | .requested => True
  | .dropped _ => False
  | .configured j _ | .fed j _ _ => j ≠ i

section Grow

variable {i : Nat} {tr os : List PlayEvent} {m f g : Arrival}

/-- Without a drop nothing more is unanswered. -/
theorem Unanswered.of_append (h : Unanswered m (tr ++ os)) (hos : ∀ m, .dropped m ∉ os) :
    Unanswered m tr := by
  have hdrop : ∀ e ∈ os, ¬ e = .dropped m := fun e he heq => hos m (heq ▸ he)
  exact ((pending_append_of_not_opens hdrop).mp h).1

/-- A request answers what was dropped. -/
theorem not_unanswered_requested : ¬ Unanswered m (tr ++ [.requested]) := by
  simp [Unanswered, pending_concat]

theorem Unanswered.mem (h : Unanswered m tr) : .dropped m ∈ tr := by
  obtain ⟨e, he, rfl⟩ := h.exists_opens
  exact he

theorem Settled.mild (h : Settled i tr) (hos : ∀ e ∈ os, Mild i e) : Settled i (tr ++ os) where
  decoder hnew := by
    have hstart : ∀ e ∈ os, ¬ Starts i e := by
      intro e he
      have hmild := hos e he
      cases e <;> simp_all [Mild, Starts]
    exact h.decoder ((pending_append_of_not_opens hstart).mp hnew).1
  dropped m hm := by
    obtain ⟨g, hg, hle⟩ := h.dropped m (hm.of_append fun m hmem => hos _ hmem)
    refine ⟨g, ?_, hle⟩
    have hfeed : ∀ e ∈ os, ¬ Feeds i e := by
      intro e he
      have hmild := hos e he
      cases e <;> simp_all [Mild, Feeds]
    refine (pending_append_of_not_opens fun e he => ?_).mpr ⟨hg, hfeed⟩
    rintro ⟨bytes, rfl⟩
    exact hfeed _ he rfl

/-- A request settles every player. -/
theorem settled_requested : Settled i (tr ++ [.requested]) where
  decoder := by simp [NewDecoder, pending_concat, Starts]
  dropped m hm := absurd hm not_unanswered_requested

/-- What player `i` is fed settles it, up to that frame. -/
theorem settled_fed {bytes : List UInt8} (h : ∀ m, Unanswered m tr → m.number < f.number) :
    Settled i (tr ++ [.fed i f bytes]) where
  decoder := by simp [NewDecoder, pending_concat, Starts, Feeds]
  dropped m hm := by
    have hm := h m (hm.of_append (by simp))
    exact ⟨f, (pending_concat _ _).mpr (.inl ⟨bytes, rfl⟩), Nat.le_of_lt hm⟩

/-- A settled player may be fed any frame. -/
theorem Settled.gapAnswered (h : Settled i tr) (f : Arrival) (bytes : List UInt8) :
    GapAnswered tr (.fed i f bytes) := by
  refine .inr ⟨h.decoder, fun hmissing => ?_⟩
  obtain ⟨m, hm, -, -, hafter⟩ := hmissing
  obtain ⟨g, hg, hle⟩ := h.dropped m hm
  exact absurd (hafter g hg) (Nat.not_lt.mpr hle)

end Grow

/-! ### the queue moves on -/

/-- From `s` to `s'` the order is kept, and what was ahead stays ahead. -/
structure Onward (s s' : Playback) : Prop where
  ordered : Ordered s → Ordered s'
  ahead : ∀ n, s.Ahead n → s'.Ahead n

section Move

variable {i : Nat} {tr os : List PlayEvent} {f : Arrival} {s s' : Playback} {p p' : Player}

/-- Frames leave at the front. -/
theorem Onward.of_suffix (hwaiting : s'.waiting <:+ s.waiting) (harrived : s'.arrived = s.arrived) :
    Onward s s' where
  ordered h := by
    refine ⟨h.sorted.sublist hwaiting.sublist, fun w hw => ?_⟩
    rw [harrived]
    exact h.below w (hwaiting.subset hw)
  ahead n h := by
    refine ⟨?_, fun w hw => h.2 w (hwaiting.subset hw)⟩
    rw [harrived]
    exact h.1

theorem Onward.of_eq (hwaiting : s'.waiting = s.waiting) (harrived : s'.arrived = s.arrived) :
    Onward s s' :=
  .of_suffix (hwaiting ▸ List.suffix_refl _) harrived

/-- The frames at the front are ahead of the rest. -/
theorem Ordered.ahead_front {front rest : List Arrival} (h : Ordered s)
    (hs : s.waiting = front ++ rest) (hs' : s'.waiting = rest) (harrived : s'.arrived = s.arrived) :
    ∀ f ∈ front, s'.Ahead f.number := by
  have hsorted := h.sorted
  rw [hs, List.pairwise_append] at hsorted
  intro f hf
  constructor
  · rw [harrived]
    exact h.below f (by simp [hs, hf])
  · rw [hs']
    exact hsorted.2.2 f hf

theorem InHand.append (h : InHand s tr f) (hon : Onward s s')
    (hos : ∀ m, Unanswered m (tr ++ os) → Unanswered m tr) : InHand s' (tr ++ os) f :=
  ⟨hon.ahead _ h.ahead, fun m hm => h.dropped m (hos m hm)⟩

/-- A player that does not move keeps its invariant. -/
theorem PlayerInv.append (h : PlayerInv s tr i p) (hon : Onward s s')
    (hos : ∀ m, Unanswered m (tr ++ os) → Unanswered m tr)
    (hsettled : Settled i tr → Settled i (tr ++ os)) : PlayerInv s' (tr ++ os) i p := by
  unfold PlayerInv at h ⊢
  split
  · next hpc =>
      rw [hpc] at h
      exact fun hrun hconf => hsettled (h hrun hconf)
  · next hpc =>
      rw [hpc] at h
      exact fun hconf => hsettled (h hconf)
  · next f hpc =>
      rw [hpc] at h
      exact ⟨h.1.append hon hos, fun hconf => hsettled (h.2 hconf)⟩
  · next f hpc =>
      rw [hpc] at h
      exact ⟨h.1.append hon hos, h.2.imp_right hsettled⟩
  · next f hpc =>
      rw [hpc] at h
      exact ⟨h.1.append hon hos, h.2.imp_right hsettled⟩
  · trivial

/-- While nothing is dropped, started or fed for a player, it keeps its invariant. -/
theorem PlayerInv.mild (h : PlayerInv s tr i p) (hon : Onward s s') (hos : ∀ e ∈ os, Mild i e) :
    PlayerInv s' (tr ++ os) i p :=
  h.append hon (fun _ hm => hm.of_append fun _ hmem => hos _ hmem) fun hset => hset.mild hos

/-- A request answers every player's gaps. -/
theorem PlayerInv.requested (h : PlayerInv s tr i p) (hon : Onward s s') :
    PlayerInv s' (tr ++ (os ++ [.requested])) i p := by
  refine h.append hon (fun m hm => ?_) fun _ => ?_
  · rw [← List.append_assoc] at hm
    exact absurd hm not_unanswered_requested
  · rw [← List.append_assoc]
    exact settled_requested

/-- A request that is all that is seen of a step. -/
theorem PlayerInv.asked (h : PlayerInv s tr i p) (hon : Onward s s') :
    PlayerInv s' (tr ++ [.requested]) i p :=
  h.append hon (fun _ hm => absurd hm not_unanswered_requested) fun _ => settled_requested

/-- A step of which nothing is seen. -/
theorem PlayerInv.onward (h : PlayerInv s tr i p) (hon : Onward s s') : PlayerInv s' tr i p := by
  have hmild : PlayerInv s' (tr ++ []) i p := h.mild hon (by simp)
  rwa [List.append_nil] at hmild

/-- Nothing is asked of a player that is not feeding. -/
theorem playerInv_of_not_feeding (h : ¬ p.Feeding) : PlayerInv s tr i p := by
  unfold Player.Feeding at h
  unfold PlayerInv
  split <;> simp_all

/-- The law restricts what is fed. -/
theorem gapAnswered_of_not_feeds {e : PlayEvent} (h : ∀ i, ¬ Feeds i e) (before : List PlayEvent) :
    GapAnswered before e := by
  cases e with
  | fed i f bytes => exact absurd rfl (h i)
  | requested | dropped _ | configured _ _ => trivial

/-- One more step, from what it does to the queue, the trace and the players. -/
theorem Decodes.next (h : Decodes s tr) (hon : Onward s s')
    (hdrop : ∀ m, .dropped m ∈ os → s'.Ahead m.number) (hlaw : ∀ e ∈ os, ∀ i, ¬ Feeds i e)
    (hplayers : ∀ i p, s'.players[i]? = some p → PlayerInv s' (tr ++ os) i p) :
    Decodes s' (tr ++ os) where
  ordered := hon.ordered h.ordered
  ahead m hm := by
    cases List.mem_append.mp hm with
    | inl hm => exact hon.ahead _ (h.ahead m hm)
    | inr hm => exact hdrop m hm
  players := hplayers
  law := (each_append_of_free fun before e he => gapAnswered_of_not_feeds (hlaw e he) before).mpr
    h.law

/-- A step of player `i`: the other players stay. -/
theorem Decodes.feed (h : Decodes s tr) (hon : Onward s s')
    (hset : s'.players = s.players.set i p') (hdrop : ∀ m, .dropped m ∈ os → s'.Ahead m.number)
    (hlaw : ∀ e ∈ os, ∀ i, ¬ Feeds i e) (hself : PlayerInv s' (tr ++ os) i p')
    (hothers : ∀ j q, j ≠ i → s.players[j]? = some q → PlayerInv s' (tr ++ os) j q) :
    Decodes s' (tr ++ os) := by
  refine h.next hon hdrop hlaw fun j q hq => ?_
  rw [hset, List.getElem?_set] at hq
  split at hq
  · next hij =>
      split at hq
      · cases hq
        rwa [← hij]
      · contradiction
  · next hij => exact hothers j q (fun heq => hij heq.symm) hq

end Move

/-! ### the feed threads -/

section FeedLoop

variable {i : Nat} {tr : List PlayEvent} {f : Arrival} {s s' : Playback} {p p' : Player}

/-- A step of a feed thread that drops, starts and feeds nothing. -/
theorem Decodes.feed_mild (h : Decodes s tr) (hon : Onward s s')
    (hset : s'.players = s.players.set i p') (hself : PlayerInv s' tr i p') :
    Decodes s' (tr ++ []) := by
  refine h.feed hon hset (by simp) (by simp) ?_ fun j q _ hq => ?_
  · rwa [List.append_nil]
  · exact (h.players j q hq).mild hon (by simp)

/-- A step that drops a frame and asks for a keyframe. -/
theorem Decodes.feed_asks (h : Decodes s tr) (hon : Onward s s')
    (hset : s'.players = s.players.set i p') (hf : s.Ahead f.number) (htop : p'.pc = .top) :
    Decodes s' (tr ++ [.dropped f, .requested]) := by
  have hdrop : ∀ m, .dropped m ∈ [PlayEvent.dropped f, .requested] → s'.Ahead m.number := by
    intro m hm
    obtain rfl : m = f := by simpa using hm
    exact hon.ahead _ hf
  refine h.feed hon hset hdrop (by simp [Feeds]) ?_ fun j q _ hq => ?_
  · unfold PlayerInv
    rw [htop]
    intro _ _
    have hsettled : Settled i (tr ++ [.dropped f] ++ [.requested]) := settled_requested
    rwa [List.append_assoc] at hsettled
  · have hasked : PlayerInv s' (tr ++ ([.dropped f] ++ [.requested])) j q :=
      (h.players j q hq).requested hon
    exact hasked

/-- A step that drops frames and asks for nothing, while nobody is feeding. -/
theorem Decodes.feed_silent {os : List PlayEvent} (h : Decodes s tr) (hon : Onward s s')
    (hset : s'.players = s.players.set i p') (hdrop : ∀ m, .dropped m ∈ os → s'.Ahead m.number)
    (hlaw : ∀ e ∈ os, ∀ i, ¬ Feeds i e) (hidle : ¬ p'.Feeding) (hquiet : s.QuietBut i) :
    Decodes s' (tr ++ os) :=
  h.feed hon hset hdrop hlaw (playerInv_of_not_feeding hidle) fun j q hj hq =>
    playerInv_of_not_feeding (hquiet j q hq hj)

/-- At the top of its loop a stopped player, and one without a decoder, is not feeding. -/
theorem not_feeding_top (htop : p'.pc = .top) (h : p'.running = false ∨ p'.configured = false) :
    ¬ p'.Feeding := by
  unfold Player.Feeding
  rw [htop]
  simpa [← Bool.not_eq_true, Classical.or_iff_not_imp_left] using h

/-- Feeding the frame in hand, a keyframe or behind no gap. -/
theorem Decodes.feed_fed (h : Decodes s tr) (hp : s.players[i]? = some p)
    (hpc : p.pc = .dequeue f) (bytes : List UInt8) :
    Decodes { s with players := s.players.set i { p with pc := .top } }
      (tr ++ [.fed i f bytes]) := by
  have hinv := h.players i p hp
  simp only [PlayerInv, hpc] at hinv
  obtain ⟨hhand, hkey⟩ := hinv
  let s' := { s with players := s.players.set i { p with pc := .top } }
  have hon : Onward s s' := .of_eq rfl rfl
  refine ⟨hon.ordered h.ordered, fun m hm => ?_, fun j q hq => ?_, ?_⟩
  · exact hon.ahead _ (h.ahead m (by simpa using hm))
  · rw [List.getElem?_set] at hq
    split at hq
    · next hij =>
        split at hq
        · cases hq
          exact fun _ _ => hij ▸ settled_fed hhand.dropped
        · contradiction
    · next hij => exact (h.players j q hq).mild hon (by simpa [Mild] using hij)
  · refine (each_concat _ _).mpr ⟨h.law, ?_⟩
    cases hkey with
    | inl hkey => exact .inl hkey
    | inr hsettled => exact hsettled.gapAnswered f bytes

/-- `nextFrame` gives the first frame. -/
theorem Decodes.feed_taken {frames : List Arrival} (h : Decodes s tr)
    (hframes : s.frames = f :: frames)
    (hset : s' = { s with frames := frames, players := s.players.set i p' })
    (hself : InHand s' tr f → PlayerInv s' tr i p') : Decodes s' (tr ++ []) := by
  have hwaiting : s.waiting = [f] ++ s'.waiting := by simp [hset, Playback.waiting, hframes]
  have harrived : s'.arrived = s.arrived := by rw [hset]
  have hplayers : s'.players = s.players.set i p' := by rw [hset]
  have hhand : InHand s' tr f :=
    ⟨h.ordered.ahead_front hwaiting rfl harrived f (by simp),
      fun m hm => (h.ahead m hm.mem).2 f (by simp [hwaiting])⟩
  exact h.feed_mild (.of_suffix ⟨_, hwaiting.symm⟩ harrived) hplayers (hself hhand)

/-- `feedLoop` at the input buffers keeps the invariant. -/
theorem decodes_dequeueInput {o : Outcome} {frames : List Arrival} {os : List PlayEvent}
    (h : Decodes s tr) (hp : s.players[i]? = some p) (hpc : p.pc = .dequeue f)
    (hok : AnswersGaps s (.feed i o))
    (hstep : dequeueInput i s.frames p f o = some (frames, p', os)) :
    Decodes { s with frames := frames, players := s.players.set i p' } (tr ++ os) := by
  have hinv := h.players i p hp
  simp only [PlayerInv, hpc] at hinv
  have hf := hinv.1.ahead
  have hdropf : ∀ m, .dropped m ∈ [PlayEvent.dropped f] → s.Ahead m.number := by
    intro m hm
    obtain rfl : m = f := by simpa using hm
    exact hf
  have hok := hok p hp
  simp only [hpc] at hok
  cases o with
  | illegalState =>
      cases hstep
      exact h.feed_asks (.of_eq rfl rfl) rfl hf rfl
  | noIndex =>
      cases hstep
      obtain ⟨hidle, hquiet⟩ := hok
      generalize s.frames.length - maxStaleFrames = stale
      let s' := { s with
        frames := s.frames.drop stale, players := s.players.set i { p with pc := .top } }
      have hwaiting : s.waiting = s.frames.take stale ++ s'.waiting := by
        simp only [Playback.waiting, s']
        rw [← List.append_assoc, List.take_append_drop]
      have hon : Onward s s' := .of_suffix ⟨_, hwaiting.symm⟩ rfl
      refine h.feed_silent hon rfl (fun m hm => ?_) (fun e he => ?_) (not_feeding_top rfl hidle)
        hquiet
      · cases List.mem_append.mp hm with
        | inl hm =>
            obtain ⟨w, hw, heq⟩ := List.mem_map.mp hm
            cases heq
            exact h.ordered.ahead_front hwaiting rfl rfl m hw
        | inr hm => exact hon.ahead _ (hdropf m hm)
      · cases List.mem_append.mp he with
        | inl he =>
            obtain ⟨m, -, rfl⟩ := List.mem_map.mp he
            exact fun _ => id
        | inr he =>
            cases List.mem_singleton.mp he
            exact fun _ => id
  | noBuffer =>
      cases hstep
      obtain ⟨hidle, hquiet⟩ := hok
      exact h.feed_silent (.of_eq rfl rfl) rfl hdropf (by simp [Feeds])
        (not_feeding_top rfl hidle) hquiet
  | queued =>
      cases hstep
      exact h.feed_fed hp hpc _
  | throws =>
      cases hstep
      exact h.feed_silent (.of_eq rfl rfl) rfl hdropf (by simp [Feeds]) id hok
  | go | configured | notConfigured => contradiction

/-- **One step of `feedLoop`** keeps the invariant. -/
theorem decodes_feedLoop {o : Outcome} {frames : List Arrival} {os : List PlayEvent}
    (h : Decodes s tr) (hp : s.players[i]? = some p) (hok : AnswersGaps s (.feed i o))
    (hstep : feedLoop i s.frames p o = some (frames, p', os)) :
    Decodes { s with frames := frames, players := s.players.set i p' } (tr ++ os) := by
  have hinv := h.players i p hp
  have hokp := hok p hp
  unfold feedLoop at hstep
  split at hstep
  · next hpc =>
      cases hstep
      simp only [PlayerInv, hpc] at hinv
      refine h.feed_mild (.of_eq rfl rfl) rfl ?_
      cases hrun : p.running with
      | true => simpa [PlayerInv] using hinv hrun
      | false => simp [PlayerInv]
  · next hpc =>
      simp only [PlayerInv, hpc] at hinv
      split at hstep
      · next hempty =>
          cases hstep
          have hon : Onward s { s with frames := [], players := s.players.set i { p with
              pc := .top, idleStreak := (p.idleStreak + 1) % 2 ^ 32 } } :=
            .of_eq (by simp [Playback.waiting, hempty]) rfl
          split
          · refine h.feed hon rfl (by simp) (by simp [Feeds]) ?_ fun j q _ hq => ?_
            · exact fun _ _ => settled_requested
            · exact (h.players j q hq).asked hon
          · exact h.feed_mild hon rfl fun _ hconf => hinv hconf
      · next f q hframes =>
          cases hstep
          exact h.feed_taken hframes rfl fun hand => ⟨hand, hinv⟩
  · next f hpc =>
      simp only [PlayerInv, hpc] at hinv
      split at hstep
      · next hconf =>
          cases hstep
          exact h.feed_mild (.of_eq rfl rfl) rfl
            ⟨⟨hinv.1.ahead, hinv.1.dropped⟩, .inr (hinv.2 hconf)⟩
      · contradiction
  · next f hpc =>
      simp only [PlayerInv, hpc] at hinv
      simp only [hpc] at hokp
      split at hstep
      · contradiction
      · cases hstep
        have hon : Onward s { s with players := s.players.set i { p with
            pc := .readCodec f, codec := true, configured := true } } := .of_eq rfl rfl
        refine h.feed hon rfl (by simp) (by simp [Feeds]) ?_ fun j q hj hq => ?_
        · exact ⟨hinv.1.append hon fun m hm => hm.of_append (by simp), .inl hokp⟩
        · exact (h.players j q hq).mild hon (by simpa [Mild] using hj.symm)
  · next f hpc =>
      simp only [PlayerInv, hpc] at hinv
      split at hstep
      · contradiction
      · cases hstep
        exact h.feed_asks (.of_eq rfl rfl) rfl hinv.1.ahead rfl
  · next f hpc =>
      simp only [PlayerInv, hpc] at hinv
      simp only [hpc] at hokp
      split at hstep
      · cases hstep
        exact h.feed_mild (.of_eq rfl rfl) rfl ⟨⟨hinv.1.ahead, hinv.1.dropped⟩, hinv.2⟩
      · next hcodec =>
          cases hstep
          obtain ⟨hidle, hquiet⟩ := hokp (by simpa using hcodec)
          refine h.feed_silent (.of_eq rfl rfl) rfl (fun m hm => ?_) (by simp [Feeds])
            (not_feeding_top rfl hidle) hquiet
          obtain rfl : m = f := by simpa using hm
          exact hinv.1.ahead
  · next f hpc => exact decodes_dequeueInput h hp hpc hok hstep
  · contradiction

end FeedLoop

/-! ### whole runs -/

section Step

variable {tr : List PlayEvent} {s s' : Playback}

/-- A step without an event. -/
theorem Decodes.quiet (h : Decodes s tr) (hon : Onward s s')
    (hplayers : ∀ i p, s'.players[i]? = some p → PlayerInv s' tr i p) : Decodes s' (tr ++ []) := by
  refine h.next hon (by simp) (by simp) ?_
  rwa [List.append_nil]

/-- A step without an event that leaves the players alone. -/
theorem Decodes.same_players (h : Decodes s tr) (hon : Onward s s')
    (hplayers : s'.players = s.players) : Decodes s' (tr ++ []) := by
  refine h.next hon (by simp) (by simp) fun i p hp => ?_
  rw [hplayers] at hp
  exact (h.players i p hp).mild hon (by simp)

/-- A step without an event that changes one player. -/
theorem Decodes.modify {i : Nat} {change : Player → Player} (h : Decodes s tr)
    (hon : Onward s s') (hset : s'.players = s.players.modify i change)
    (hchange : ∀ j p, PlayerInv s' tr j p → PlayerInv s' tr j (change p)) :
    Decodes s' (tr ++ []) := by
  refine h.quiet hon fun j p hp => ?_
  rw [hset, List.getElem?_modify, Option.map_eq_map, Option.map_eq_some_iff] at hp
  obtain ⟨q, hq, rfl⟩ := hp
  have hinv : PlayerInv s' tr j q := (h.players j q hq).onward hon
  split
  · exact hchange j q hinv
  · exact hinv

/-- A stopped player has only its frame in hand to go on with. -/
theorem PlayerInv.stop {i : Nat} {p : Player} (h : PlayerInv s tr i p) :
    PlayerInv s tr i p.stop := by
  unfold PlayerInv at h ⊢
  cases hpc : p.pc <;> simp_all [Player.stop]

theorem PlayerInv.release {i : Nat} {p : Player} (h : PlayerInv s tr i p) :
    PlayerInv s tr i p.release := h

/-- **`receiveLoop`** keeps the invariant. -/
theorem decodes_recvGo {os : List PlayEvent} (h : Decodes s tr) (hok : AnswersGaps s .recvGo)
    (hstep : recvGo s = some (s', os)) : Decodes s' (tr ++ os) := by
  unfold recvGo at hstep
  split at hstep
  · contradiction
  · next f hrecv =>
      split at hstep
      · cases hstep
        exact h.same_players (.of_eq (by simp [Playback.waiting, hrecv]) rfl) rfl
      · cases hstep
        exact h.same_players (.of_eq (by simp [Playback.waiting, hrecv]) rfl) rfl
  · next f hrecv =>
      split at hstep
      · next hempty =>
          cases hstep
          exact h.same_players (.of_eq (by simp [Playback.waiting, hrecv]) rfl) rfl
      · next m q hframes =>
          cases hstep
          simp only [AnswersGaps, hrecv, hframes] at hok
          let s' := { s with frames := q, recv := .testing f }
          have hwaiting : s.waiting = [m] ++ s'.waiting := by
            simp [Playback.waiting, hframes, hrecv, s']
          have hon : Onward s s' := .of_suffix ⟨_, hwaiting.symm⟩ rfl
          refine h.next hon (fun w hw => ?_) (by simp [Feeds]) fun i p hp => ?_
          · obtain rfl : w = m := by simpa using hw
            exact h.ordered.ahead_front hwaiting rfl rfl w (by simp)
          · exact playerInv_of_not_feeding (hok p (List.mem_of_getElem? hp))

/-- A frame that arrives is behind all others. -/
theorem onward_arrive (hidle : s.recv = .idle) (v : VideoFrame) :
    Onward s { s with recv := .testing ⟨s.link, s.arrived, v⟩, arrived := s.arrived + 1 } where
  ordered h := by
    have hsorted := h.sorted
    have hbelow := h.below
    simp only [Playback.waiting, hidle, List.append_nil] at hsorted hbelow
    constructor
    · simp only [Playback.waiting, List.pairwise_append]
      exact ⟨hsorted, List.pairwise_singleton _ _, by simpa using hbelow⟩
    · simp only [Playback.waiting, List.mem_append, List.mem_singleton]
      rintro w (hw | rfl)
      · exact Nat.lt_succ_of_lt (hbelow w hw)
      · exact Nat.lt_succ_self _
  ahead n h := by
    obtain ⟨hlt, hwait⟩ := h
    simp only [Playback.waiting, hidle, List.append_nil] at hwait
    refine ⟨Nat.lt_succ_of_lt hlt, ?_⟩
    simp only [Playback.waiting, List.mem_append, List.mem_singleton]
    rintro w (hw | rfl)
    · exact hwait w hw
    · exact hlt

/-- **One step** keeps the invariant when it answers its gaps. -/
theorem decodes_step {i : PlayInput} {os : List PlayEvent} (h : Decodes s tr)
    (hok : AnswersGaps s i) (hstep : playStep s i = some (s', os)) : Decodes s' (tr ++ os) := by
  cases i with
  | linkUp =>
      simp only [playStep] at hstep
      split at hstep
      · contradiction
      · cases hstep
        have hon : Onward s { s with link := s.link + 1, up := true } := .of_eq rfl rfl
        exact h.next hon (by simp) (by simp [Feeds]) fun i p hp => (h.players i p hp).asked hon
  | linkLost =>
      simp only [playStep] at hstep
      split at hstep
      · next hidle =>
          cases hstep
          refine h.same_players (.of_suffix ?_ rfl) rfl
          simp [Playback.waiting, hidle.2]
      · contradiction
  | arrive v =>
      simp only [playStep] at hstep
      split at hstep
      · next hidle =>
          cases hstep
          exact h.same_players (onward_arrive hidle.2 v) rfl
      · contradiction
  | recvGo => exact decodes_recvGo h hok hstep
  | surfaceCreated =>
      simp only [playStep] at hstep
      split at hstep
      · contradiction
      · cases hstep
        have hon : Onward s { s with
            players := s.players ++ [{}], player := some s.players.length } := .of_eq rfl rfl
        refine h.quiet hon fun i p hp => ?_
        rw [List.getElem?_append] at hp
        split at hp
        · exact (h.players i p hp).onward hon
        · -- the new player: at the top, without a decoder
          obtain rfl := List.mem_singleton.mp (List.mem_of_getElem? hp)
          exact playerInv_of_not_feeding (not_feeding_top rfl (.inr rfl))
  | surfaceDestroyed =>
      simp only [playStep] at hstep
      split at hstep
      · contradiction
      · split at hstep
        · cases hstep
          exact h.same_players (.of_eq rfl rfl) rfl
        · cases hstep
          exact h.modify (.of_eq rfl rfl) rfl fun _ _ => PlayerInv.stop
  | stopped =>
      simp only [playStep] at hstep
      split at hstep
      · cases hstep
        exact h.modify (.of_eq rfl rfl) rfl fun _ _ => PlayerInv.release
      · contradiction
  | feed i o =>
      simp only [playStep] at hstep
      split at hstep
      · contradiction
      · next p hp =>
          split at hstep
          · contradiction
          · next frames p' os hfeed =>
              cases hstep
              exact decodes_feedLoop h hp hok hfeed

end Step

/-- **Gaps.**  In every run whose steps leave no gap unanswered, the first frame fed to
a new decoder, and every frame fed behind a dropped one, is a keyframe or comes after a
keyframe request. -/
theorem gaps_answered (is : List PlayInput) (s : Playback) (tr : List PlayEvent)
    (hok : playback.Along AnswersGaps {} is) (hrun : playback.run {} is = some (s, tr)) :
    Each GapAnswered tr := by
  have hinit : Decodes {} [] :=
    ⟨⟨List.Pairwise.nil, by simp [Playback.waiting]⟩, by simp, by simp, each_nil⟩
  exact (playback.run_invariant (fun _ _ _ _ _ => decodes_step) hinit hok hrun).law

/-- A frame with or without an IDR slice. -/
def frameOf (keyframe : Bool) : VideoFrame := ⟨keyframe, 0, 1920, 1080, []⟩

/-- A received frame goes into the queue. -/
def enqueue (keyframe : Bool) : List PlayInput := [.arrive (frameOf keyframe), .recvGo]

/-- Player 0 takes the frame at the front to its decoder. -/
def feedFront (o : Outcome) : List PlayInput :=
  [.feed 0 .go, .feed 0 .go, .feed 0 o, .feed 0 .go]

/-- The surface comes first, and its decoder starts on a keyframe. -/
def earlySurface : List PlayInput :=
  .linkUp :: .surfaceCreated :: enqueue true ++ feedFront .configured ++ [.feed 0 .queued]

theorem gaps_answered_earlySurface :
    ∃ s, playback.run {} earlySurface = some (s,
        [.requested, .configured 0 ⟨false, 1920, 1080⟩, .fed 0 ⟨1, 0, frameOf true⟩ []]) ∧
      Each GapAnswered
        [.requested, .configured 0 ⟨false, 1920, 1080⟩, .fed 0 ⟨1, 0, frameOf true⟩ []] := by
  refine ⟨_, rfl, gaps_answered earlySurface _ _ ?_ rfl⟩
  simp [Machine.Along, playback, playStep, recvGo, feedLoop, AnswersGaps, earlySurface, enqueue,
    feedFront, frameOf, Client.maxQueuedFrames]

/-- The surface comes late: the queue of a new link has dropped its keyframe. -/
def lateSurface : List PlayInput :=
  .linkUp :: enqueue true ++ enqueue false ++ enqueue false ++ enqueue false ++ enqueue false ++
    [.recvGo, .recvGo, .surfaceCreated] ++ feedFront .configured ++ [.feed 0 .queued]

/-- The decoder is fed another frame first, and nobody has asked for a keyframe. -/
theorem lateSurface_gap :
    ∃ s tr, playback.run {} lateSurface = some (s, tr) ∧ ¬ Each GapAnswered tr := by
  let key : Arrival := ⟨1, 0, frameOf true⟩
  let next : Arrival := ⟨1, 1, frameOf false⟩
  refine ⟨_, [.requested, .dropped key, .configured 0 ⟨false, 1920, 1080⟩, .fed 0 next []], rfl,
    fun h => ?_⟩
  cases h [.requested, .dropped key, .configured 0 ⟨false, 1920, 1080⟩] _ [] rfl with
  | inl hkey => exact absurd hkey (by decide)
  | inr hgaps =>
      refine hgaps.1 ⟨[.requested, .dropped key], _, [], rfl, rfl, ?_⟩
      simp

end TwinScreen.Tablet
