import TwinScreen.Framers
import TwinScreen.Host.Inbound
import TwinScreen.Tablet.InputSender

/-!
# TwinScreen.Touch

A finger on the tablet, up to the injection calls on the host: `onTouch`, the input
batches on the wire, `ReadFrame`, and `InjectBatch`.

* `hostReads_batches` — the host reads the batches that were sent.
* `finger_never_clicks` — the tablet sends no buttons, and without them a finger only
  moves the mouse.
-/

namespace TwinScreen

open Lib Host Tablet

/-! ## the wire -/

/-- A batch is the frame at the front of the stream. -/
theorem next_batchFrame (events : List InputEvent) (h : 4 + 12 * events.length < 2 ^ 31)
    (rest : List UInt8) :
    wireFraming.next (batchFrame events ++ rest) =
      some ((spMsgInputBatch, inputBatchBytes (events.map InputEvent.struct)), rest) := by
  have hlen : (sentHeader spMsgInputBatch (4 + 12 * events.length)).payloadLen.toNat =
      (inputBatchBytes (events.map InputEvent.struct)).length := by
    rw [payloadLen_sentHeader _ h, length_sentBatch]
  have hdec : wireFraming.decode (sentHeader spMsgInputBatch (4 + 12 * events.length)).bytes =
      some (spMsgInputBatch, (inputBatchBytes (events.map InputEvent.struct)).length) := by
    simp only [wireFraming, SpHeader.ofBytes_bytes, hlen]
    rfl
  rw [batchFrame]
  exact wireFraming.next_encode (SpHeader.length_bytes _) hdec rest

/-- Batches whose size an `Int` holds. -/
def Fit (batches : List (List InputEvent)) : Prop :=
  ∀ events ∈ batches, 4 + 12 * events.length < 2 ^ 31

/-- What is sent for batches. -/
theorem sendBatches_eq (c : Client) {batches : List (List InputEvent)} (h : Fit batches) :
    c.sendBatches batches = .ok (if c.connected = false ∨ c.out = none then []
      else (batches.filter (· ≠ [])).flatMap batchFrame) := by
  induction batches with
  | nil => simp [Client.sendBatches]
  | cons events batches ih =>
      rw [Fit, List.forall_mem_cons] at h
      rw [Client.sendBatches, ih h.2, c.sendInputBatch_eq h.1]
      by_cases hnil : events = []
      · rw [if_pos hnil, List.filter_cons_of_neg (by simp [hnil])]
        rfl
      · rw [if_neg hnil, List.filter_cons_of_pos (by simp [hnil]), List.flatMap_cons]
        show Except.ok (_ ++ _) = _
        by_cases hoff : c.connected = false ∨ c.out = none
        · rw [if_pos hoff, if_pos hoff, if_pos (by grind), List.append_nil]
        · rw [if_neg hoff, if_neg hoff, if_neg (by grind)]

/-- The message of a batch. -/
def batchMessage (events : List InputEvent) : Message :=
  (spMsgInputBatch, inputBatchBytes (events.map InputEvent.struct))

/-- **The host reads the batches that were sent.** -/
theorem hostReads_batches (srv : TcpServer) (type : UInt16) (buf : List UInt8)
    {batches : List (List InputEvent)} (h : Fit batches) {s : Socket}
    (hs : flatten s = batches.flatMap batchFrame) :
    hostReads srv type buf s = batches.map batchMessage := by
  obtain ⟨hsplit, hheaders⟩ := wireFraming.split_flatMap fun events hmem =>
    next_batchFrame events (h events hmem)
  rw [hostReads_eq_split, hs, hsplit]
  · rfl
  · rw [hs, hheaders]
    intro header hmem
    obtain ⟨events, hevents, rfl⟩ := List.mem_map.mp hmem
    have hlen := h events hevents
    rwa [← length_sentBatch] at hlen

/-! ## injection -/

/-- What `main` injects for the messages it reads. -/
def injections (inj : InputInjector) (scr : VirtualScreen) (beyond : Memory)
    (messages : List Message) : List Injection :=
  messages.flatMap fun m =>
    if dispatch m.1 m.2 = .injectBatch then (injectBatch inj scr (memoryOf m.2 beyond)).injected
    else []

theorem injections_batches (inj : InputInjector) (scr : VirtualScreen) (beyond : Memory)
    {batches : List (List InputEvent)} (h : Fit batches) :
    injections inj scr beyond (batches.map batchMessage) =
      batches.flatten.filterMap fun event => injectEvent inj scr event.struct := by
  have hdispatch : ∀ events ∈ batches,
      dispatch (batchMessage events).1 (batchMessage events).2 = .injectBatch := by
    intro events _
    rw [dispatch_eq_injectBatch_iff]
    exact ⟨rfl, by rw [batchMessage, length_inputBatchBytes]; omega⟩
  have hlen : ∀ evs ∈ batches.map (List.map InputEvent.struct), evs.length < 2 ^ 32 := by
    intro evs hmem
    obtain ⟨events, hevents, rfl⟩ := List.mem_map.mp hmem
    have hfit := h events hevents
    rw [List.length_map]
    omega
  rw [injections, List.flatMap_map, List.flatMap_congr fun events hmem =>
    if_pos (hdispatch events hmem)]
  have hall := injected_flatten inj scr hlen beyond
  rw [List.flatMap_map, ← List.map_flatten, List.filterMap_map] at hall
  exact hall

/-- Everything these touches send arrives at the host. -/
def Arrives (c : Client) (ts : List Touch) (s : Socket) : Prop :=
  ∃ batches bytes, ({} : InputSender).batches c.display ts = .ok batches ∧
    c.sendBatches batches = .ok bytes ∧ flatten s = bytes

/-- What arrives is injected, or nothing is sent. -/
theorem injections_arrived {c : Client} {ts : List Touch} {s : Socket} (h : Arrives c ts s)
    (hfit : ∀ batches, ({} : InputSender).batches c.display ts = .ok batches → Fit batches)
    (inj : InputInjector) (scr : VirtualScreen) (beyond : Memory) (srv : TcpServer)
    (type : UInt16) (buf : List UInt8) :
    ∃ batches, ({} : InputSender).batches c.display ts = .ok batches ∧
      injections inj scr beyond (hostReads srv type buf s) =
        if c.connected = false ∨ c.out = none then []
        else batches.flatten.filterMap fun event => injectEvent inj scr event.struct := by
  obtain ⟨batches, bytes, hbatches, hbytes, hs⟩ := h
  have hall := hfit batches hbatches
  rw [sendBatches_eq c hall] at hbytes
  cases hbytes
  refine ⟨batches, hbatches, ?_⟩
  by_cases hoff : c.connected = false ∨ c.out = none
  · rw [if_pos hoff] at hs ⊢
    have hnil : Fit [] := nofun
    rw [hostReads_batches srv type buf hnil hs]
    rfl
  · rw [if_neg hoff] at hs ⊢
    have hsome : Fit (batches.filter (· ≠ [])) :=
      fun events hmem => hall events (List.mem_of_mem_filter hmem)
    rw [hostReads_batches srv type buf hsome hs, injections_batches inj scr beyond hsome,
      List.flatten_filter_ne_nil]

/-! ## a finger -/

/-- Where a finger is, on a view of a size. -/
structure Sample where
  view : Int × Int
  x : ℚ
  y : ℚ
  pressure : ℚ
  orientation : ℚ
  tilt : ℚ
  deriving DecidableEq

/-- A touch with one finger. -/
def Sample.touch (p : Sample) (id : Int) (action : Action) : Touch where
  view := p.view
  event := ⟨action, 0, [⟨id, .finger, p.x, p.y, p.pressure, p.orientation, p.tilt⟩]⟩

/-- A gesture with one finger: ACTION_DOWN, ACTION_MOVEs, ACTION_UP. -/
def fingerGesture (id : Int) (down : Sample) (moves : List Sample) (up : Sample) : List Touch :=
  down.touch id .down :: moves.map (·.touch id .move) ++ [up.touch id .up]

/-- Some mouse button is pressed, and released afterwards. -/
def Clicks (calls : List Injection) : Prop :=
  ∃ b, [Signal.press, .release].Sublist (calls.filterMap (Injection.signal (.button b)))

/-- A gesture has one pointer and does not cancel. -/
theorem fingerGesture_spec {id : Int} {down : Sample} {moves : List Sample} {up : Sample} :
    ∀ t ∈ fingerGesture id down moves up,
      t.event.actionMasked ≠ .cancel ∧ t.event.pointers.length = 1 := by
  simp only [fingerGesture, List.mem_append, List.mem_cons, List.mem_map, List.not_mem_nil,
    or_false]
  grind [Sample.touch]

/-- Without buttons an event does nothing to a button. -/
theorem buttons_zero_signal (inj : InputInjector) (scr : VirtualScreen) (b : Button)
    {e : SpInputEvent} (h : e.buttons = 0) : eventSignal inj scr (.button b) e = none := by
  rw [eventSignal_eq]
  simp [Presses, Releases, h]

/-- The batches of a gesture hold no button. -/
theorem gesture_batches {c : Client} {id : Int} {down : Sample} {moves : List Sample}
    {up : Sample} {batches : List (List InputEvent)}
    (h : ({} : InputSender).batches c.display (fingerGesture id down moves up) = .ok batches) :
    Fit batches ∧ ∀ event ∈ batches.flatten, event.buttons = 0 := by
  have hspec := InputSender.batches_spec h fun t ht => (fingerGesture_spec t ht).1
  constructor
  · intro events hmem
    obtain ⟨⟨t, ht, hlen⟩, -⟩ := hspec events hmem
    rw [(fingerGesture_spec t ht).2] at hlen
    omega
  · intro event hmem
    obtain ⟨events, hevents, hevent⟩ := List.mem_flatten.mp hmem
    exact (hspec events hevents).2 event hevent

/-- Every gesture on a display of a real size can arrive. -/
theorem exists_arrives {c : Client} (h : 0 ≤ c.display.1 ∧ 0 ≤ c.display.2) (id : Int)
    (down : Sample) (moves : List Sample) (up : Sample) :
    ∃ s, Arrives c (fingerGesture id down moves up) s := by
  have hindex : ∀ t ∈ fingerGesture id down moves up,
      t.event.actionIndex < t.event.pointers.length := by
    simp only [fingerGesture, List.mem_append, List.mem_cons, List.mem_map, List.not_mem_nil,
      or_false]
    grind [Sample.touch]
  obtain ⟨batches, hbatches⟩ := InputSender.batches_ok h hindex {}
  have hbytes := sendBatches_eq c (gesture_batches hbatches).1
  exact ⟨arrive _, batches, _, hbatches, hbytes, flatten_arrive _⟩

/-- A finger's calls carry no button signal. -/
theorem gesture_silent {c : Client} {id : Int} {down : Sample} {moves : List Sample}
    {up : Sample} {s : Socket} (h : Arrives c (fingerGesture id down moves up) s)
    (inj : InputInjector) (scr : VirtualScreen) (beyond : Memory) (srv : TcpServer)
    (type : UInt16) (buf : List UInt8) (b : Button) :
    (injections inj scr beyond (hostReads srv type buf s)).filterMap
      (Injection.signal (.button b)) = [] := by
  obtain ⟨batches, hbatches, hcalls⟩ := injections_arrived h (fun _ hb => (gesture_batches hb).1)
    inj scr beyond srv type buf
  obtain ⟨-, hbuttons⟩ := gesture_batches hbatches
  rw [hcalls]
  split
  · rfl
  · rw [List.filterMap_filterMap, List.filterMap_eq_nil_iff]
    intro event hmem
    apply buttons_zero_signal inj scr b
    rw [InputEvent.struct, hbuttons event hmem]
    rfl

/-- **A finger never clicks.** -/
theorem finger_never_clicks (c : Client) (id : Int) (down : Sample) (moves : List Sample)
    (up : Sample) (inj : InputInjector) (scr : VirtualScreen) (beyond : Memory) (srv : TcpServer)
    (type : UInt16) (buf : List UInt8) (s : Socket)
    (h : Arrives c (fingerGesture id down moves up) s) :
    ¬ Clicks (injections inj scr beyond (hostReads srv type buf s)) := by
  rw [Clicks]
  simp [gesture_silent h]

/-- A connected client with a mode of 1920x1080, and the middle of a view. -/
def connectedClient : Client :=
  { connected := true, out := some 1, ack := some ⟨1, 0, 1920, 1080, 60, 0, 0, 0, 60⟩ }

def viewCentre : Sample := ⟨(1280, 720), 640, 360, 1, 0, 0⟩

theorem finger_never_clicks_tap :
    ∃ s, Arrives connectedClient (fingerGesture 0 viewCentre [] viewCentre) s ∧
      ¬ Clicks (injections ⟨0, 0, true, true⟩ ⟨0, 0, 1920, 1080⟩ (fun _ => 0)
        (hostReads ⟨none, 0, 0, [], 0⟩ 0 [] s)) := by
  obtain ⟨s, hs⟩ := exists_arrives (c := connectedClient) (by decide) 0 viewCentre [] viewCentre
  exact ⟨s, hs, finger_never_clicks _ _ _ _ _ _ _ _ _ _ _ s hs⟩

/-- A tap gives two calls, which put the mouse at the centre and do nothing else. -/
theorem tap_moves_only :
    ∃ s, Arrives connectedClient (fingerGesture 0 viewCentre [] viewCentre) s ∧
      injections ⟨0, 0, true, true⟩ ⟨0, 0, 1920, 1080⟩ (fun _ => 0)
          (hostReads ⟨none, 0, 0, [], 0⟩ 0 [] s) =
        [.mouse ⟨32769, 32769, mouseeventfMove ||| mouseeventfAbsolute⟩,
          .mouse ⟨32769, 32769, mouseeventfMove ||| mouseeventfAbsolute⟩] ∧
      ¬ Clicks (injections ⟨0, 0, true, true⟩ ⟨0, 0, 1920, 1080⟩ (fun _ => 0)
        (hostReads ⟨none, 0, 0, [], 0⟩ 0 [] s)) := by
  obtain ⟨s, hs⟩ := exists_arrives (c := connectedClient) (by decide) 0 viewCentre [] viewCentre
  obtain ⟨batches, hbatches, hcalls⟩ := injections_arrived hs (fun _ hb => (gesture_batches hb).1)
    ⟨0, 0, true, true⟩ ⟨0, 0, 1920, 1080⟩ (fun _ => 0) ⟨none, 0, 0, [], 0⟩ 0 []
  have htap : ({} : InputSender).batches connectedClient.display
      (fingerGesture 0 viewCentre [] viewCentre) =
        .ok [[⟨960, 540, 1, 0, 0, 255, 0, 0⟩], [⟨960, 540, 2, 0, 0, 255, 0, 0⟩]] := by
    decide +kernel
  rw [htap] at hbatches
  cases hbatches
  refine ⟨s, hs, ?_, ?_⟩
  · rw [hcalls]
    decide +kernel
  · rw [Clicks]
    simp [gesture_silent hs]

end TwinScreen
