import TwinScreen.Tablet.Player

/-!
# TwinScreen.Tablet.Feed

The rest of a turn of `feedLoop` once it has an input buffer: the NALs are put into the
buffer, whatever its capacity, and the buffer is queued.

* `putNals_eq` — the puts of the loop.
* `feedRight_iff` — for which frames and buffers the turn does what it should.
-/

namespace TwinScreen.Tablet

open Lib

/-- The loop over the NALs, with the buffer and the count `bytes` so far. -/
def putNals (buf : PutBuffer) (bytes : Int) : List (List UInt8) → Except Throwable (PutBuffer × Int)
  | [] => .ok (buf, bytes)
  | nal :: nals => do
      let buf ← buf.putArray startCode
      let bytes := toInt (bytes + startCode.length)
      let buf ← buf.putArray nal
      let bytes := toInt (bytes + nal.length)
      putNals buf bytes nals

/-- From `buf.clear()` on, for a buffer of a capacity: what is queued, as the buffer's
content and the size that `queueInputBuffer` is told. -/
def feedBuffer (capacity : Nat) (nals : List (List UInt8))
    (queueInputBuffer : Except Throwable Unit) : Except Throwable (List UInt8 × Int) := do
  let (buf, bytes) ← putNals ⟨capacity, []⟩ 0 nals
  queueInputBuffer
  return (buf.written, bytes)

/-- No `catch` is around these calls. -/
def feedOutcome {α : Type} : Except Throwable α → Outcome
  | .ok _ => .queued
  | .error _ => .throws

/-! ## the loop -/

theorem toInt_of_lt {v : Int} (h : 0 ≤ v ∧ v < 2 ^ 31) : toInt v = v :=
  Int.bmod_eq_of_le (by simp; omega) (by simp; omega)

/-- The puts of one NAL. -/
theorem putNals_cons {buf : PutBuffer} (hcap : buf.capacity < 2 ^ 31) (nal : List UInt8)
    (nals : List (List UInt8)) :
    putNals buf buf.written.length (nal :: nals) =
      if buf.written.length + (startCode ++ nal).length ≤ buf.capacity then
        putNals ⟨buf.capacity, buf.written ++ (startCode ++ nal)⟩
          (buf.written ++ (startCode ++ nal)).length nals
      else .error .bufferOverflow := by
  rw [putNals, PutBuffer.putArray, List.length_append]
  by_cases hstart : buf.capacity < buf.written.length + startCode.length
  · rw [if_pos hstart, if_neg (by omega)]
    rfl
  · rw [if_neg hstart]
    show (PutBuffer.putArray _ nal >>= _) = _
    rw [PutBuffer.putArray, List.length_append]
    by_cases hnal : buf.capacity < buf.written.length + startCode.length + nal.length
    · rw [if_pos hnal, if_neg (by omega)]
      rfl
    · rw [if_neg hnal, if_pos (by omega), List.append_assoc]
      show putNals _ (toInt (toInt _ + _)) nals = _
      rw [toInt_of_lt (show 0 ≤ (buf.written.length : Int) + startCode.length ∧ _ < _ by omega),
        toInt_of_lt (by omega)]
      congr 1
      rw [List.length_append, List.length_append]
      push_cast
      omega

/-- **The puts of the loop**: they succeed when the capacity holds all the bytes. -/
theorem putNals_eq {buf : PutBuffer} (hcap : buf.capacity < 2 ^ 31) (nals : List (List UInt8))
    (hfit : buf.written.length ≤ buf.capacity) :
    putNals buf buf.written.length nals =
      if buf.written.length + (annexB nals).length ≤ buf.capacity then
        .ok (⟨buf.capacity, buf.written ++ annexB nals⟩, (buf.written ++ annexB nals).length)
      else .error .bufferOverflow := by
  induction nals generalizing buf with
  | nil => simp [putNals, annexB, hfit]
  | cons nal nals ih =>
      have hsplit : annexB (nal :: nals) = startCode ++ nal ++ annexB nals := List.flatMap_cons
      rw [putNals_cons hcap, hsplit, @List.length_append _ (startCode ++ nal)]
      by_cases hone : buf.written.length + (startCode ++ nal).length ≤ buf.capacity
      · have hnext := @ih ⟨buf.capacity, buf.written ++ (startCode ++ nal)⟩ hcap
          (by rw [List.length_append]; exact hone)
        simp only at hnext
        rw [if_pos hone, hnext, List.length_append, List.append_assoc buf.written, Nat.add_assoc]
      · rw [if_neg hone, if_neg (by omega)]

/-! ## the turn -/

/-- A buffer that holds a frame's bytes is queued with all of them. -/
theorem feedBuffer_eq {capacity : Nat} (hcap : capacity < 2 ^ 31) (nals : List (List UInt8))
    (queueInputBuffer : Except Throwable Unit) :
    feedBuffer capacity nals queueInputBuffer =
      if (annexB nals).length ≤ capacity then
        queueInputBuffer.map fun _ => (annexB nals, ((annexB nals).length : Int))
      else .error .bufferOverflow := by
  have hputs := @putNals_eq ⟨capacity, []⟩ hcap nals (Nat.zero_le capacity)
  simp only [List.length_nil, Nat.zero_add, List.nil_append, Nat.cast_zero] at hputs
  rw [feedBuffer, hputs]
  by_cases hfit : (annexB nals).length ≤ capacity
  · rw [if_pos hfit, if_pos hfit]
    cases queueInputBuffer <;> rfl
  · rw [if_neg hfit, if_neg hfit]
    rfl

/-- The turn goes on to the next one, and either it has queued the frame's bytes, all of
them, or it drops the frame and requests a keyframe. -/
def FeedRight (i : Nat) (frames : List Arrival) (p : Player) (f : Arrival) (capacity : Nat)
    (queueInputBuffer : Except Throwable Unit) : Prop :=
  ∃ frames' p' events,
    dequeueInput i frames p f (feedOutcome (feedBuffer capacity f.frame.nals queueInputBuffer)) =
      some (frames', p', events) ∧
    p'.pc = .top ∧
    (feedBuffer capacity f.frame.nals queueInputBuffer =
        .ok (annexB f.frame.nals, (annexB f.frame.nals).length) ∧
      events = [.fed i f (annexB f.frame.nals)] ∨
      .dropped f ∈ events ∧ .requested ∈ events)

/-- **When the turn does what it should**: the buffer holds the frame's bytes with their
start codes, and the decoder takes it. -/
theorem feedRight_iff (i : Nat) (frames : List Arrival) (p : Player) (f : Arrival)
    (capacity : Nat) (hcap : capacity < 2 ^ 31) (queueInputBuffer : Except Throwable Unit) :
    FeedRight i frames p f capacity queueInputBuffer ↔
      (annexB f.frame.nals).length ≤ capacity ∧ queueInputBuffer = .ok () := by
  rw [FeedRight, feedBuffer_eq hcap]
  by_cases hfit : (annexB f.frame.nals).length ≤ capacity
  · rw [if_pos hfit]
    cases queueInputBuffer with
    | error e => simp [Except.map, feedOutcome, dequeueInput, hfit]
    | ok u => simp [Except.map, feedOutcome, dequeueInput, hfit]
  · rw [if_neg hfit]
    simp [feedOutcome, dequeueInput, hfit]

/-- A frame with a NAL of two bytes, in the hand of a player. -/
def shortFrame : Arrival := ⟨1, 0, ⟨true, 0, 64, 64, [[0x65, 0x88]]⟩⟩
def shortFeed : Player := { codec := true, configured := true, pc := .dequeue shortFrame }

theorem feedRight_iff_shortFrame :
    FeedRight 0 [] shortFeed shortFrame 4096 (.ok ()) ↔
      (annexB shortFrame.frame.nals).length ≤ 4096 ∧
        Except.ok () = (.ok () : Except Throwable Unit) :=
  feedRight_iff 0 [] shortFeed shortFrame 4096 (by decide) (.ok ())

/-- A buffer of five bytes overflows, and the feed thread is done. -/
theorem shortFrame_ends_feed :
    feedBuffer 5 shortFrame.frame.nals (.ok ()) = .error .bufferOverflow ∧
      dequeueInput 0 [] shortFeed shortFrame
          (feedOutcome (feedBuffer 5 shortFrame.frame.nals (.ok ()))) =
        some ([], { shortFeed with pc := .done }, [.dropped shortFrame]) ∧
      ¬ FeedRight 0 [] shortFeed shortFrame 5 (.ok ()) := by
  have hover : feedBuffer 5 shortFrame.frame.nals (.ok ()) = .error .bufferOverflow := by rfl
  refine ⟨hover, by rw [hover]; rfl, fun h => ?_⟩
  obtain ⟨frames, p', events, hstep, htop, -⟩ := h
  rw [hover] at hstep
  cases hstep
  contradiction

end TwinScreen.Tablet
