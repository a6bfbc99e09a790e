import TwinScreen.Lib.Utf16
import TwinScreen.Tablet.Sender

/-!
# TwinScreen.Tablet.Handshake

`Protocol.packHandshake`, and what `main` does with its payload: it is taken from
42 bytes on, and `hs->name` is read as a C string.

The name is limited to 31 UTF-16 units, its field to 32 bytes.

* `packHandshake_eq`, `packHandshake_overflows` — the payload, and when it does
  not fit.
* `handshake_named_iff` — for which device names the payload is written and its
  name ends inside it.
-/

namespace TwinScreen.Tablet

open Lib

/-- `Protocol.HANDSHAKE_SIZE`. -/
def handshakeSize : Nat := 42

/-- The puts before the name. -/
def handshakePuts (caps screenW screenH : Int) : List Put :=
  [putShort (toShort spVersion.toNat), putInt caps, putShort (toShort screenW),
    putShort (toShort screenH)]

/-- `Protocol.packHandshake`. -/
def packHandshake (caps screenW screenH : Int) (deviceName : List UInt16) :
    Except Throwable (List UInt8) := do
  let payload ← PutBuffer.allocate handshakeSize
  let payload ← payload.puts (handshakePuts caps screenW screenH)
  let name := utf8 (deviceName.take 31)
  let payload ← payload.putArray name
  let payload ← payload.puts (List.replicate (handshakeSize - payload.written.length) (putByte 0))
  return payload.array

/-! ## what the host reads -/

/-- The C string at the front of these bytes, when it ends in them. -/
def cString (bs : List UInt8) : Option (List UInt8) :=
  if 0 ∈ bs then some (bs.takeWhile (· ≠ 0)) else none

/-- The text of `hs->name` in `main`: `none` when the payload is refused, or when
the text does not end inside it. -/
def handshakeName (payload : List UInt8) : Option (List UInt8) :=
  if payload.length < handshakeSize then none else cString (payload.drop 10)

/-! ## the payload -/

/-- The fields before the name. -/
def handshakeFields (caps screenW screenH : Int) : List UInt8 :=
  putBytes (handshakePuts caps screenW screenH)

theorem length_handshakeFields (caps screenW screenH : Int) :
    (handshakeFields caps screenW screenH).length = 10 := by
  simp [handshakeFields, handshakePuts, putBytes, putShort, putInt, length_lowBytes]

theorem putBytes_replicate (n : Nat) :
    putBytes (List.replicate n (putByte 0)) = List.replicate n 0 := by
  induction n with
  | zero => rfl
  | succ n ih =>
      have hcons : putBytes (List.replicate (n + 1) (putByte 0)) =
          lowBytes 1 0 ++ putBytes (List.replicate n (putByte 0)) := rfl
      rw [hcons, ih]
      rfl

/-- The buffer before the name. -/
theorem fields_written (caps screenW screenH : Int) :
    (PutBuffer.allocate handshakeSize >>= fun b => b.puts (handshakePuts caps screenW screenH)) =
      .ok ⟨42, handshakeFields caps screenW screenH⟩ := by
  have hlen := length_handshakeFields caps screenW screenH
  have hput := @PutBuffer.puts_of_le ⟨42, []⟩ (handshakePuts caps screenW screenH)
    (by show 0 + (handshakeFields caps screenW screenH).length ≤ 42; omega)
  rw [List.nil_append] at hput
  exact hput

/-- A name of at most 32 bytes is written, and zeros after it. -/
theorem packHandshake_eq {caps screenW screenH : Int} {deviceName : List UInt16}
    (h : utf8Width (deviceName.take 31) ≤ 32) :
    packHandshake caps screenW screenH deviceName =
      .ok (handshakeFields caps screenW screenH ++ utf8 (deviceName.take 31) ++
        List.replicate (32 - utf8Width (deviceName.take 31)) 0) := by
  have hfields := length_handshakeFields caps screenW screenH
  have hname := length_utf8 (deviceName.take 31)
  have hpad := @PutBuffer.puts_of_le
    ⟨42, handshakeFields caps screenW screenH ++ utf8 (deviceName.take 31)⟩
    (List.replicate (32 - utf8Width (deviceName.take 31)) (putByte 0))
    (by simp only [putBytes_replicate, List.length_append, List.length_replicate]; omega)
  have hrest : handshakeSize - (handshakeFields caps screenW screenH ++
      utf8 (deviceName.take 31)).length = 32 - utf8Width (deviceName.take 31) := by
    rw [List.length_append, handshakeSize]
    omega
  rw [packHandshake, ← bind_assoc, fields_written]
  show (PutBuffer.putArray _ _ >>= _) = _
  rw [PutBuffer.putArray, if_neg (by simp only [hfields, hname]; omega)]
  show (PutBuffer.puts _ _ >>= _) = _
  rw [hrest, hpad, putBytes_replicate]
  -- nothing is left of the backing array
  show Except.ok (PutBuffer.array _) = _
  rw [PutBuffer.array, List.length_append, List.length_append, List.length_replicate, hfields,
    hname]
  have hfull : 42 - (10 + utf8Width (deviceName.take 31) +
      (32 - utf8Width (deviceName.take 31))) = 0 := by omega
  rw [hfull, List.replicate_zero, List.append_nil]

/-- A name of more than 32 bytes makes `packHandshake` throw. -/
theorem packHandshake_overflows {caps screenW screenH : Int} {deviceName : List UInt16}
    (h : 32 < utf8Width (deviceName.take 31)) :
    packHandshake caps screenW screenH deviceName = .error .bufferOverflow := by
  have hfields := length_handshakeFields caps screenW screenH
  have hname := length_utf8 (deviceName.take 31)
  rw [packHandshake, ← bind_assoc, fields_written]
  show (PutBuffer.putArray _ _ >>= _) = _
  rw [PutBuffer.putArray, if_pos (by simp only [hfields, hname]; omega)]
  rfl

/-! ## names that end -/

/-- The payload is written, the host takes it, and its name ends inside it. -/
def Named (packed : Except Throwable (List UInt8)) : Prop :=
  ∃ payload, packed = .ok payload ∧ payload.length = handshakeSize ∧ 0 ∈ payload.drop 10 ∧
    (handshakeName payload).isSome

/-- For a payload of its size, the zero byte is all that is asked. -/
theorem named_ok_iff {payload : List UInt8} (h : payload.length = handshakeSize) :
    Named (.ok payload) ↔ 0 ∈ payload.drop 10 := by
  have hread : (handshakeName payload).isSome ↔ 0 ∈ payload.drop 10 := by
    rw [handshakeName, if_neg (by omega), cString]
    split <;> simp [*]
  simp only [Named, Except.ok.injEq, exists_eq_left', hread, and_self, h, true_and]

/-- **Names**: which names end inside the payload. -/
theorem handshake_named_iff (caps screenW screenH : Int) (deviceName : List UInt16) :
    Named (packHandshake caps screenW screenH deviceName) ↔
      utf8Width (deviceName.take 31) ≤ 31 ∨
        utf8Width (deviceName.take 31) = 32 ∧ 0 ∈ deviceName.take 31 := by
  have hfields := length_handshakeFields caps screenW screenH
  have hname := length_utf8 (deviceName.take 31)
  by_cases hfits : utf8Width (deviceName.take 31) ≤ 32
  · rw [packHandshake_eq hfits, named_ok_iff (by
      simp only [List.length_append, List.length_replicate, hfields, hname, handshakeSize]; omega)]
    rw [List.append_assoc, List.drop_left' hfields, List.mem_append, zero_mem_utf8_iff,
      List.mem_replicate]
    -- a zero of the name, or of the padding
    grind
  · rw [packHandshake_overflows (by omega)]
    simp only [Named, reduceCtorEq, false_and, exists_false, false_iff]
    omega

/-- `é` and 30 letters: 32 bytes, and no zero among them.  Eleven Chinese
characters are already a byte too long. -/
theorem name_unterminated :
    ¬Named (packHandshake 0 1920 1200 (0xE9 :: List.replicate 30 0x61)) ∧
      packHandshake 0 1920 1200 (List.replicate 11 0x4E2D) = .error .bufferOverflow := by
  constructor
  · have hwidth : utf8Width ((0xE9 :: List.replicate 30 0x61).take 31) = 32 := by decide
    rw [packHandshake_eq (by omega), named_ok_iff (by rw [hwidth]; rfl), hwidth]
    decide
  · exact packHandshake_overflows (by decide)

end TwinScreen.Tablet
