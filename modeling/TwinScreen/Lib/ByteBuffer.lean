import TwinScreen.Lib.LittleEndian

/-!
# TwinScreen.Lib.ByteBuffer

Relative reads and writes in little-endian order, in the manner of
`java.nio.ByteBuffer`: every `get` takes its bytes from the front of what
remains, and throws when fewer remain; every `put` appends to what was written,
and throws when the capacity does not hold it.

A reader is a `Get` program.  `Get.Returns` says that it ends normally, and the
`returns_*` lemmas say on which bytes each building block does, so the inputs a
parser accepts are computed by rewriting along its text.

A writer is a list of puts.  `filled_eq` says what it leaves in a buffer that it
fills to the end.
-/

namespace Lib

/-- The exceptions met in the models. -/
inductive Throwable
  | bufferUnderflow
  | bufferOverflow
  | negativeArraySize
  | illegalArgument
  | illegalState
  deriving DecidableEq, Repr

/-- A sequence ends normally when its parts do. -/
theorem bind_eq_ok_iff {ε : Type} {x : Except ε α} {f : α → Except ε β} {b : β} :
    (x >>= f) = .ok b ↔ ∃ a, x = .ok a ∧ f a = .ok b := by
  cases x with
  | error e => simp [bind, Except.bind]
  | ok a => simp [bind, Except.bind]

theorem map_eq_ok_iff {ε : Type} {x : Except ε α} {f : α → β} {b : β} :
    x.map f = .ok b ↔ ∃ a, x = .ok a ∧ f a = b := by
  cases x with
  | error e => simp [Except.map]
  | ok a => simp [Except.map]

/-- A reader of the remaining bytes. -/
structure Get (α : Type) where
  run : List UInt8 → Except Throwable (α × List UInt8)

namespace Get

instance : Monad Get where
  pure a := ⟨fun bs => .ok (a, bs)⟩
  bind x f := ⟨fun bs =>
    match x.run bs with
    | .error e => .error e
    | .ok (a, rest) => (f a).run rest⟩

@[simp] theorem pure_run (a : α) (bs : List UInt8) : (pure a : Get α).run bs = .ok (a, bs) := rfl

theorem bind_run (x : Get α) (f : α → Get β) (bs : List UInt8) :
    (x >>= f).run bs = match x.run bs with
      | .error e => .error e
      | .ok (a, rest) => (f a).run rest := rfl

/-- Fail with an exception. -/
def throw (e : Throwable) : Get α := ⟨fun _ => .error e⟩

@[simp] theorem throw_run (e : Throwable) (bs : List UInt8) : (throw e : Get α).run bs = .error e :=
  rfl

/-- The next `n` bytes. -/
def bytes (n : Nat) : Get (List UInt8) := ⟨fun bs =>
  if bs.length < n then .error .bufferUnderflow else .ok (bs.take n, bs.drop n)⟩

/-- The next `n` bytes as a signed integer. -/
def num (n : Nat) : Get Int := do return leInt (← bytes n)

/-- `get().toInt()`. -/
def byte : Get Int := num 1

/-- `getShort().toInt()`. -/
def short : Get Int := num 2

/-- `getInt()`. -/
def int : Get Int := num 4

/-- All remaining bytes. -/
def remaining : Get (List UInt8) := ⟨fun bs => .ok (bs, [])⟩

/-- `ByteArray(len)` filled from the buffer. -/
def array (len : Int) : Get (List UInt8) :=
  if len < 0 then throw .negativeArraySize else bytes len.toNat

/-! ## reads of enough bytes -/

theorem bytes_run {n : Nat} {bs : List UInt8} (h : n ≤ bs.length) :
    (bytes n).run bs = .ok (bs.take n, bs.drop n) := by
  simp [bytes, Nat.not_lt.mpr h]

theorem num_run {n : Nat} {bs : List UInt8} (h : n ≤ bs.length) :
    (num n).run bs = .ok (leInt (bs.take n), bs.drop n) := by
  simp [num, bind_run, bytes_run h]

/-! ## reading what was written -/

/-- A reader goes on where the one before it stopped. -/
theorem bind_run_of_ok {x : Get α} {a : α} {bs rest : List UInt8} (h : x.run bs = .ok (a, rest))
    (f : α → Get β) : (x >>= f).run bs = (f a).run rest := by
  rw [bind_run, h]

theorem bytes_run_append (xs rest : List UInt8) :
    (bytes xs.length).run (xs ++ rest) = .ok (xs, rest) := by
  rw [bytes_run (by simp), List.take_left, List.drop_left]

/-- An `n`-byte number is read off the front, whatever follows it. -/
theorem num_run_append (n v : Nat) (rest : List UInt8) :
    (num n).run (leBytes n v ++ rest) = .ok (leInt (leBytes n v), rest) := by
  have h := bytes_run_append (leBytes n v) rest
  rw [length_leBytes] at h
  rw [num, bind_run_of_ok h, pure_run]

/-- A number of the lower half is read as itself. -/
theorem num_run_of_lt {n v : Nat} (h : 2 * v < 256 ^ n) (rest : List UInt8) :
    (num n).run (leBytes n v ++ rest) = .ok ((v : Int), rest) := by
  rw [num_run_append, leInt_leBytes_of_lt h]

theorem array_run_append (xs rest : List UInt8) :
    (array xs.length).run (xs ++ rest) = .ok (xs, rest) := by
  rw [array, if_neg (by omega), Int.toNat_natCast, bytes_run_append]

/-! ## which inputs a reader accepts -/

/-- The reader ends normally on these bytes. -/
def Returns (x : Get α) (bs : List UInt8) : Prop := ∃ r, x.run bs = .ok r

@[simp] theorem returns_pure (a : α) (bs : List UInt8) : (pure a : Get α).Returns bs := ⟨_, rfl⟩

@[simp] theorem returns_remaining (bs : List UInt8) : remaining.Returns bs := ⟨_, rfl⟩

/-- A sequence ends normally when its parts do. -/
theorem returns_bind (x : Get α) (f : α → Get β) (bs : List UInt8) :
    (x >>= f).Returns bs ↔ ∃ a rest, x.run bs = .ok (a, rest) ∧ (f a).Returns rest := by
  unfold Returns
  rw [bind_run]
  cases x.run bs with
  | error e => simp
  | ok r =>
      obtain ⟨a, rest⟩ := r
      simp

/-- Reading `n` bytes and going on. -/
theorem returns_bytes_bind (n : Nat) (f : List UInt8 → Get β) (bs : List UInt8) :
    (bytes n >>= f).Returns bs ↔ n ≤ bs.length ∧ (f (bs.take n)).Returns (bs.drop n) := by
  rw [returns_bind]
  by_cases h : n ≤ bs.length
  · simp [bytes_run h, h]
  · simp [bytes, Nat.not_le.mp h, h]

/-- Reading an `n`-byte number and going on. -/
theorem returns_num_bind (n : Nat) (f : Int → Get β) (bs : List UInt8) :
    (num n >>= f).Returns bs ↔ n ≤ bs.length ∧ (f (leInt (bs.take n))).Returns (bs.drop n) := by
  rw [returns_bind]
  by_cases h : n ≤ bs.length
  · simp [num_run h, h]
  · simp [num, bind_run, bytes, Nat.not_le.mp h, h]

/-! ## what a reader gives -/

theorem bind_run_eq_ok_iff {x : Get α} {f : α → Get β} {bs : List UInt8} {r : β × List UInt8} :
    (x >>= f).run bs = .ok r ↔ ∃ a rest, x.run bs = .ok (a, rest) ∧ (f a).run rest = .ok r := by
  rw [bind_run]
  cases x.run bs with
  | error e => simp
  | ok r =>
      obtain ⟨a, rest⟩ := r
      simp

theorem bytes_bind_run_eq_ok_iff {n : Nat} {f : List UInt8 → Get β} {bs : List UInt8}
    {r : β × List UInt8} :
    (bytes n >>= f).run bs = .ok r ↔ n ≤ bs.length ∧ (f (bs.take n)).run (bs.drop n) = .ok r := by
  rw [bind_run_eq_ok_iff]
  by_cases h : n ≤ bs.length
  · simp [bytes_run h, h]
  · simp [bytes, Nat.not_le.mp h, h]

theorem num_bind_run_eq_ok_iff {n : Nat} {f : Int → Get β} {bs : List UInt8}
    {r : β × List UInt8} :
    (num n >>= f).run bs = .ok r ↔
      n ≤ bs.length ∧ (f (leInt (bs.take n))).run (bs.drop n) = .ok r := by
  rw [bind_run_eq_ok_iff]
  by_cases h : n ≤ bs.length
  · simp [num_run h, h]
  · simp [num, bind_run, bytes, Nat.not_le.mp h, h]

/-- A final `pure` does not matter. -/
theorem returns_map (x : Get α) (g : α → β) (bs : List UInt8) :
    (x >>= fun a => pure (g a)).Returns bs ↔ x.Returns bs := by
  rw [returns_bind]
  constructor
  · intro h
    obtain ⟨a, rest, hx, -⟩ := h
    exact ⟨(a, rest), hx⟩
  · intro h
    obtain ⟨⟨a, rest⟩, hx⟩ := h
    exact ⟨a, rest, hx, returns_pure _ _⟩

end Get

/-! ## writes -/

/-- A buffer being written: its capacity, and the bytes put so far. -/
structure PutBuffer where
  capacity : Nat
  written : List UInt8

/-- A relative put: the number of bytes, and the value they are the low bytes of. -/
abbrev Put := Nat × Int

def putByte (v : Int) : Put := (1, v)
def putShort (v : Int) : Put := (2, v)
def putInt (v : Int) : Put := (4, v)
def putLong (v : Int) : Put := (8, v)

/-- `toByte()`. -/
def toByte (v : Int) : Int := v.bmod (256 ^ 1)

/-- `toShort()`. -/
def toShort (v : Int) : Int := v.bmod (256 ^ 2)

/-- `toInt()`, and the result of `Int` arithmetic. -/
def toInt (v : Int) : Int := v.bmod (256 ^ 4)

namespace PutBuffer

/-- `ByteBuffer.allocate`. -/
def allocate (n : Int) : Except Throwable PutBuffer :=
  if n < 0 then .error .illegalArgument else .ok ⟨n.toNat, []⟩

/-- Puts one after the other. -/
def puts (b : PutBuffer) : List Put → Except Throwable PutBuffer
  | [] => .ok b
  | (n, v) :: ps =>
      if b.capacity < b.written.length + n then .error .bufferOverflow
      else puts { b with written := b.written ++ lowBytes n v } ps

/-- `put(bytes)`. -/
def putArray (b : PutBuffer) (bytes : List UInt8) : Except Throwable PutBuffer :=
  if b.capacity < b.written.length + bytes.length then .error .bufferOverflow
  else .ok { b with written := b.written ++ bytes }

/-- What is left to read after `flip`. -/
def flipped (b : PutBuffer) : List UInt8 := b.written

/-- `array()`, the whole backing array. -/
def array (b : PutBuffer) : List UInt8 :=
  b.written ++ List.replicate (b.capacity - b.written.length) 0

end PutBuffer

/-- The bytes of puts one after the other. -/
def putBytes (ps : List Put) : List UInt8 := ps.flatMap fun p => lowBytes p.1 p.2

/-- Puts that the capacity holds append their bytes. -/
theorem PutBuffer.puts_of_le {b : PutBuffer} {ps : List Put}
    (h : b.written.length + (putBytes ps).length ≤ b.capacity) :
    b.puts ps = .ok { b with written := b.written ++ putBytes ps } := by
  induction ps generalizing b with
  | nil => simp [puts, putBytes]
  | cons p ps ih =>
      obtain ⟨n, v⟩ := p
      have hsplit : putBytes ((n, v) :: ps) = lowBytes n v ++ putBytes ps := List.flatMap_cons
      rw [hsplit, List.length_append, length_lowBytes] at h
      have hrest : (b.written ++ lowBytes n v).length + (putBytes ps).length ≤ b.capacity := by
        rw [List.length_append, length_lowBytes]
        omega
      rw [puts, if_neg (by omega), ih hrest, hsplit, List.append_assoc]

/-- A buffer filled to its end holds the bytes put, for a reader and as an array. -/
theorem filled_eq {n : Nat} {ps : List Put} (h : (putBytes ps).length = n) :
    ∃ b, (PutBuffer.allocate n >>= fun b => b.puts ps) = .ok b ∧ b.flipped = putBytes ps ∧
      b.array = putBytes ps := by
  refine ⟨⟨n, putBytes ps⟩, ?_, rfl, ?_⟩
  · rw [PutBuffer.allocate, if_neg (by omega)]
    show PutBuffer.puts _ _ = _
    rw [PutBuffer.puts_of_le (by simp [h]), List.nil_append, Int.toNat_natCast]
  · rw [PutBuffer.array, h, Nat.sub_self, List.replicate_zero, List.append_nil]

end Lib
