import TwinScreen.Tablet.Client

/-!
# TwinScreen.Tablet.Sender

The tablet's outgoing side: `packHeader` and `packInputBatch` of `Protocol.kt`
and `sendInputBatch` of `Client.kt`.  Kotlin's integers are signed; what a put
does not hold of a value is cut off.

* `packHeader_eq`, `packInputBatch_eq` — what is written is the packed struct of
  the protocol.
* `InputEvent.ofStruct_struct` — an event whose fields fit the struct survives it.
-/

namespace TwinScreen.Tablet

open Lib

/-- `Protocol.InputEvent`. -/
structure InputEvent where
  x : Int
  y : Int
  type : Int
  buttons : Int
  pointerId : Int
  pressure : Int
  tiltX : Int
  tiltY : Int
  deriving DecidableEq, Repr

/-- `Protocol.packHeader`, as it is read after the `flip`. -/
def packHeader (type payloadLen seq tsUs : Int) : Except Throwable (List UInt8) := do
  let b ← PutBuffer.allocate SpHeader.size >>= fun b => b.puts
    [putInt spMagic.toNat, putShort (toShort spVersion.toNat), putShort (toShort type),
      putInt (toInt seq), putLong tsUs, putInt payloadLen]
  return b.flipped

/-- The puts of one event in `packInputBatch`. -/
def InputEvent.puts (e : InputEvent) : List Put :=
  [putShort (toShort e.x), putShort (toShort e.y), putByte (toByte e.type),
    putByte (toByte e.buttons), putByte (toByte e.pointerId), putByte (toByte e.pressure),
    putShort (toShort e.tiltX), putShort (toShort e.tiltY)]

/-- `Protocol.packInputBatch`. -/
def packInputBatch (events : List InputEvent) : Except Throwable (List UInt8) := do
  let b ← PutBuffer.allocate (toInt (4 + events.length * 12)) >>= fun b => b.puts
    (putInt events.length :: events.flatMap InputEvent.puts)
  return b.array

/-- The bytes that `sendRaw` writes: `write(body.get().toInt())` for each byte of
the header, then the payload. -/
def rawBytes (header payload : List UInt8) : List UInt8 :=
  header.flatMap (fun b => lowBytes 1 (leInt [b])) ++ payload

/-- `sendInputBatch`: the bytes written to the output stream. -/
def Client.sendInputBatch (c : Client) (events : List InputEvent) :
    Except Throwable (List UInt8) :=
  if c.connected = false ∨ events = [] then
    .ok []
  else do
    let header ← packHeader spMsgInputBatch.toNat (toInt (4 + events.length * 12)) 0 0
    let payload ← packInputBatch events
    return if c.out = none then [] else rawBytes header payload

/-! ## what the wire holds -/

/-- The struct an event becomes. -/
def InputEvent.struct (e : InputEvent) : SpInputEvent where
  x := .ofInt e.x
  y := .ofInt e.y
  type := .ofInt e.type
  buttons := .ofInt e.buttons
  pointerId := .ofInt e.pointerId
  pressure := .ofInt e.pressure
  tiltX := .ofInt e.tiltX
  tiltY := .ofInt e.tiltY

/-- The numbers in a struct. -/
def InputEvent.ofStruct (e : SpInputEvent) : InputEvent where
  x := e.x.toNat
  y := e.y.toNat
  type := e.type.toNat
  buttons := e.buttons.toNat
  pointerId := e.pointerId.toNat
  pressure := e.pressure.toNat
  tiltX := e.tiltX.toInt
  tiltY := e.tiltY.toInt

/-- Every field fits its place in the struct. -/
structure InputEvent.InRange (e : InputEvent) : Prop where
  x : 0 ≤ e.x ∧ e.x ≤ 65535
  y : 0 ≤ e.y ∧ e.y ≤ 65535
  type : 0 ≤ e.type ∧ e.type ≤ 255
  buttons : 0 ≤ e.buttons ∧ e.buttons ≤ 255
  pointerId : 0 ≤ e.pointerId ∧ e.pointerId ≤ 255
  pressure : 0 ≤ e.pressure ∧ e.pressure ≤ 255
  tiltX : -32768 ≤ e.tiltX ∧ e.tiltX ≤ 32767
  tiltY : -32768 ≤ e.tiltY ∧ e.tiltY ≤ 32767

theorem toNat_uint8_ofInt (v : Int) : (UInt8.ofInt v).toNat = (maskBytes 1 v).toNat := by
  rw [UInt8.ofInt, UInt8.toNat_ofNat', maskBytes]
  omega

theorem toNat_uint16_ofInt (v : Int) : (UInt16.ofInt v).toNat = (maskBytes 2 v).toNat := by
  rw [UInt16.ofInt, UInt16.toNat_ofNat', maskBytes]
  omega

theorem toNat_int16_ofInt (v : Int) :
    (Int16.ofInt v).toUInt16.toNat = (maskBytes 2 v).toNat := by
  show (BitVec.ofInt 16 v).toNat = _
  rw [BitVec.toNat_ofInt, maskBytes]
  rfl

/-- An event whose fields fit survives the struct, signs included. -/
theorem InputEvent.ofStruct_struct {e : InputEvent} (h : e.InRange) : ofStruct e.struct = e := by
  have hbyte : ∀ v : Int, 0 ≤ v ∧ v ≤ 255 → ((UInt8.ofInt v).toNat : Int) = v := by
    intro v hv
    rw [toNat_uint8_ofInt, maskBytes]
    omega
  have hshort : ∀ v : Int, 0 ≤ v ∧ v ≤ 65535 → ((UInt16.ofInt v).toNat : Int) = v := by
    intro v hv
    rw [toNat_uint16_ofInt, maskBytes]
    omega
  have htilt : ∀ v : Int, -32768 ≤ v ∧ v ≤ 32767 → (Int16.ofInt v).toInt = v := by
    intro v hv
    rw [Int16.toInt_ofInt]
    exact Int.bmod_eq_of_le (by simp; omega) (by simp; omega)
  simp [ofStruct, struct, hshort _ h.x, hshort _ h.y, hbyte _ h.type, hbyte _ h.buttons,
    hbyte _ h.pointerId, hbyte _ h.pressure, htilt _ h.tiltX, htilt _ h.tiltY]

/-- The puts of an event write its struct. -/
theorem putBytes_puts (e : InputEvent) : putBytes e.puts = e.struct.bytes := by
  rw [InputEvent.puts, SpInputEvent.bytes, SpInputEvent.fields, InputEvent.struct]
  simp only [putBytes, List.flatMap_cons, List.flatMap_nil, packed, putShort, putByte, toShort,
    toByte, lowBytes_bmod]
  simp only [lowBytes, toNat_uint8_ofInt, toNat_uint16_ofInt, toNat_int16_ofInt]

/-- The header of a message that the tablet sends. -/
def sentHeader (type : UInt16) (payloadLen : Nat) : SpHeader where
  magic := spMagic
  version := spVersion
  type := type
  seq := 0
  tsUs := 0
  payloadLen := UInt32.ofNat payloadLen

/-- `packHeader` writes the protocol's header. -/
theorem packHeader_eq (type : UInt16) {n : Nat} (h : n < 2 ^ 31) :
    packHeader type.toNat (toInt n) 0 0 = .ok (sentHeader type n).bytes := by
  have htype : lowBytes 2 type.toNat = leBytes 2 type.toNat := lowBytes_natCast type.toNat_lt
  have hbytes : putBytes
      [putInt spMagic.toNat, putShort (toShort spVersion.toNat), putShort (toShort type.toNat),
        putInt (toInt 0), putLong 0, putInt (toInt n)] = (sentHeader type n).bytes := by
    have hlen : lowBytes 4 n = leBytes 4 (UInt32.ofNat n).toNat := by
      rw [UInt32.toNat_ofNat', Nat.mod_eq_of_lt (by omega), lowBytes_natCast (by omega)]
    simp only [putBytes, List.flatMap_cons, List.flatMap_nil, putInt, putShort, putLong, toShort,
      toInt, lowBytes_bmod, htype, hlen]
    rfl
  obtain ⟨b, hb, hflipped, -⟩ := filled_eq
    ((congrArg List.length hbytes).trans (SpHeader.length_bytes _))
  rw [packHeader, hb, ← hbytes, ← hflipped]
  rfl

/-- The header announces the payload. -/
theorem payloadLen_sentHeader (type : UInt16) {n : Nat} (h : n < 2 ^ 31) :
    (sentHeader type n).payloadLen.toNat = n := by
  rw [sentHeader, UInt32.toNat_ofNat', Nat.mod_eq_of_lt (by omega)]

/-- The header of a batch. -/
theorem packHeader_inputBatch {events : List InputEvent} (h : 4 + 12 * events.length < 2 ^ 31) :
    packHeader spMsgInputBatch.toNat (toInt (4 + events.length * 12)) 0 0 =
      .ok (sentHeader spMsgInputBatch (4 + 12 * events.length)).bytes := by
  rw [← packHeader_eq _ h, Nat.mul_comm]
  simp

/-- The size of a batch. -/
theorem length_sentBatch (events : List InputEvent) :
    (inputBatchBytes (events.map InputEvent.struct)).length = 4 + 12 * events.length := by
  rw [length_inputBatchBytes, List.length_map]
  rfl

/-- `packInputBatch` writes the protocol's batch. -/
theorem packInputBatch_eq {events : List InputEvent} (h : 4 + 12 * events.length < 2 ^ 31) :
    packInputBatch events = .ok (inputBatchBytes (events.map InputEvent.struct)) := by
  have hevents : putBytes (events.flatMap InputEvent.puts) =
      (events.map InputEvent.struct).flatMap SpInputEvent.bytes := by
    rw [putBytes, List.flatMap_assoc, List.flatMap_map]
    exact congrArg (fun f => events.flatMap f) (funext putBytes_puts)
  have hsize : toInt (4 + events.length * 12) = ((4 + 12 * events.length : Nat) : Int) := by
    have hbmod := (bmod_of_lt (p := 256 ^ 4) (n := 4 + 12 * events.length) (by omega)).trans
      (if_pos (by omega))
    rw [← hbmod, toInt, Nat.mul_comm]
    simp
  have hbytes : putBytes (putInt events.length :: events.flatMap InputEvent.puts) =
      inputBatchBytes (events.map InputEvent.struct) := by
    rw [inputBatchBytes, List.length_map, ← hevents, ← lowBytes_natCast (by omega)]
    rfl
  have hlen : (putBytes (putInt events.length :: events.flatMap InputEvent.puts)).length =
      4 + 12 * events.length := by
    rw [hbytes, length_sentBatch]
  obtain ⟨b, hb, -, harray⟩ := filled_eq hlen
  rw [packInputBatch, hsize, hb, ← hbytes, ← harray]
  rfl

/-- `write(int)` writes the low eight bits, the byte it was given. -/
theorem rawBytes_eq (header payload : List UInt8) :
    rawBytes header payload = header ++ payload := by
  have hbyte : ∀ b : UInt8, lowBytes 1 (leInt [b]) = [b] := by
    intro b
    have hlt := b.toNat_lt
    rw [leInt, leNat_cons, leNat_nil]
    show lowBytes 1 (Int.bmod _ (256 ^ 1)) = _
    rw [lowBytes_bmod, lowBytes_natCast (by omega)]
    simp [leBytes]
  rw [rawBytes]
  simp only [hbyte, List.flatMap_singleton']

/-- The bytes of a batch on the wire. -/
def batchFrame (events : List InputEvent) : List UInt8 :=
  (sentHeader spMsgInputBatch (4 + 12 * events.length)).bytes ++
    inputBatchBytes (events.map InputEvent.struct)

/-- `sendInputBatch` writes nothing, or the batch as one frame. -/
theorem Client.sendInputBatch_eq (c : Client) {events : List InputEvent}
    (h : 4 + 12 * events.length < 2 ^ 31) :
    c.sendInputBatch events = .ok (if c.connected = false ∨ events = [] ∨ c.out = none then []
      else batchFrame events) := by
  rw [sendInputBatch, packHeader_inputBatch h, packInputBatch_eq h]
  by_cases hnone : c.connected = false ∨ events = []
  · rw [if_pos hnone, if_pos (by grind)]
  · rw [if_neg hnone]
    show Except.ok (if c.out = none then [] else rawBytes _ _) = _
    rw [rawBytes_eq]
    by_cases hout : c.out = none
    · rw [if_pos hout, if_pos (by grind)]
    · rw [if_neg hout, if_neg (by grind), batchFrame]

end TwinScreen.Tablet
