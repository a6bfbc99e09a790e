import TwinScreen.Host.Inject

/-!
# TwinScreen.Host.Inbound

What `main` does with a message from the tablet (`host/src/main.cpp`, the drain
at the end of the loop).  The size of a payload is checked against the fixed part
of its struct only, so an input batch may count more events than it carries:
`reads_inside_payload_iff` says when its reads stay inside the payload.
-/

namespace TwinScreen.Host

open Lib

/-- `ClampBitrate`. -/
def clampBitrate (b : UInt32) : UInt32 :=
  let kMin := 250000
  let kMax := 40000000
  if b < kMin then kMin else if kMax < b then kMax else b

/-- What `main` does with a message. -/
inductive Inbound
  | injectBatch
  | requestKeyframe
  | setBitrate (bitrate : UInt32)
  /-- Logged or ignored. -/
  | nothing
  deriving DecidableEq

/-- The dispatch on a message that `ReadFrame` returned. -/
def dispatch (type : UInt16) (payload : List UInt8) : Inbound :=
  if type = spMsgInputBatch ∧ spInputBatchSize ≤ payload.length then
    .injectBatch
  else if type = spMsgKeyframeReq then
    .requestKeyframe
  else if type = spMsgControl then
    if spControlSize ≤ payload.length then
      if u8At payload 0 = spCtlSetBitrate then .setBitrate (clampBitrate (u32At payload 4))
      else .nothing
    else
      .nothing
  else
    .nothing

/-- Only messages of its type, with a count in them, reach `InjectBatch`. -/
theorem dispatch_eq_injectBatch_iff {type : UInt16} {payload : List UInt8} :
    dispatch type payload = .injectBatch ↔
      type = spMsgInputBatch ∧ spInputBatchSize ≤ payload.length := by
  unfold dispatch
  split
  · simp_all
  · split
    · simp_all
    · split
      · split
        · split <;> simp_all
        · simp_all
      · simp_all

/-- **Reads of a batch.**  For a message that reaches `InjectBatch`, every event it
reads lies inside the payload exactly when the payload has room for `count`
events. -/
theorem reads_inside_payload_iff (inj : InputInjector) (scr : VirtualScreen) (type : UInt16)
    (payload : List UInt8) (beyond : Memory) :
    (dispatch type payload = .injectBatch →
        ∀ i ∈ (injectBatch inj scr (memoryOf payload beyond)).reads,
          spInputBatchSize + SpInputEvent.size * (i + 1) ≤ payload.length) ↔
      (dispatch type payload = .injectBatch →
        spInputBatchSize + SpInputEvent.size * (u32At payload 0).toNat ≤ payload.length) := by
  apply imp_congr_right
  intro hinject
  obtain ⟨-, hsize⟩ := dispatch_eq_injectBatch_iff.mp hinject
  simp only [mem_reads_injectBatch, batchCount_memoryOf beyond hsize]
  generalize (u32At payload 0).toNat = count
  constructor
  · intro hreads
    cases count with
    | zero => exact hsize
    | succ n => exact hreads n (Nat.lt_succ_self n)
  · intro hroom i hi
    have hmul : SpInputEvent.size * (i + 1) ≤ SpInputEvent.size * count :=
      Nat.mul_le_mul_left _ hi
    omega

/-- A payload that is a count of 1 and nothing else. -/
theorem reads_past_payload :
    dispatch spMsgInputBatch [1, 0, 0, 0] = .injectBatch ∧
      ¬ ∀ i ∈ (injectBatch ⟨0, 0, true, true⟩ ⟨0, 0, 1920, 1080⟩
          (memoryOf [1, 0, 0, 0] fun _ => 0)).reads,
        spInputBatchSize + SpInputEvent.size * (i + 1) ≤ [1, 0, 0, 0].length := by
  refine ⟨by decide, fun h => ?_⟩
  exact absurd (h 0 (mem_reads_injectBatch.mpr (by decide))) (by decide)

end TwinScreen.Host
