/-!
# TwinScreen.Lib.StartCode

Byte streams cut at start codes.  A start code is `00 00 01`; a zero byte before
it belongs to it, not to the unit it ends.

`scan` cuts a stream into its units, reading it once from the front.

* `codeFree_of_mem_scan` — no unit has a start code in it.
* `scan_stream` — with their start codes, the units are the stream.
* `scan_flatMap_longCode` — written with long start codes, units are read back.
* `scan_paddedStream` — with zeros behind the units, what they are read back as.
-/

namespace Lib

def shortCode : List UInt8 := [0, 0, 1]

def longCode : List UInt8 := 0 :: shortCode

/-- No start code anywhere in these bytes. -/
def CodeFree (bs : List UInt8) : Prop := ¬ shortCode <:+: bs

instance (bs : List UInt8) : Decidable (CodeFree bs) := inferInstanceAs (Decidable (¬ _))

/-- The bytes without a last zero. -/
def withoutZero (bs : List UInt8) : List UInt8 :=
  if bs.getLast? = some 0 then bs.dropLast else bs

/-- The units from inside one, which began with `unit`. -/
def cut (unit : List UInt8) : List UInt8 → List (List UInt8)
  | 0 :: 0 :: 1 :: bs => withoutZero unit :: cut [] bs
  | b :: bs => cut (unit ++ [b]) bs
  | [] => [unit]

/-- The units of a stream: what is before the first start code is skipped. -/
def scan : List UInt8 → List (List UInt8)
  | 0 :: 0 :: 1 :: bs => cut [] bs
  | _ :: bs => scan bs
  | [] => []

/-- The stream from its first start code on. -/
def fromCode : List UInt8 → List UInt8
  | 0 :: 0 :: 1 :: bs => shortCode ++ bs
  | _ :: bs => fromCode bs
  | [] => []

/-- Units with a start code before each, long where marked. -/
def stream (units : List (Bool × List UInt8)) : List UInt8 :=
  units.flatMap fun u => (if u.1 then longCode else shortCode) ++ u.2

/-- A unit with the start code before it, long or short, and the zeros after it. -/
structure PaddedUnit where
  long : Bool
  unit : List UInt8
  padding : Nat
  deriving DecidableEq

def unpadded (u : Bool × List UInt8) : PaddedUnit := ⟨u.1, u.2, 0⟩

/-- Units with their start codes and padding. -/
def paddedStream (units : List PaddedUnit) : List UInt8 :=
  units.flatMap fun u =>
    (if u.long then longCode else shortCode) ++ u.unit ++ List.replicate u.padding 0

/-- What padded units are read back as: of the zeros before the next short code one is
left out, of those at the end none. -/
def unitsRead : List PaddedUnit → List (List UInt8)
  | [] => []
  | [u] => [u.unit ++ List.replicate u.padding 0]
  | u :: v :: units =>
      (u.unit ++ List.replicate (u.padding + v.long.toNat - 1) 0) :: unitsRead (v :: units)

/-- At most one zero before each short code but the first, and none at the end. -/
def PaddingAbsorbed : List PaddedUnit → Prop
  | [] => True
  | [u] => u.padding = 0
  | u :: v :: units => u.padding + v.long.toNat ≤ 1 ∧ PaddingAbsorbed (v :: units)

instance decidablePaddingAbsorbed : (units : List PaddedUnit) → Decidable (PaddingAbsorbed units)
  | [] => .isTrue trivial
  | [u] => inferInstanceAs (Decidable (u.padding = 0))
  | _ :: v :: units =>
      have := decidablePaddingAbsorbed (v :: units)
      inferInstanceAs (Decidable (_ ∧ _))

/-! ## start codes in bytes -/

theorem codeFree_of_length_lt {bs : List UInt8} (h : bs.length < 3) : CodeFree bs := by
  intro hcode
  have hlen := hcode.length_le
  simp only [shortCode, List.length_cons, List.length_nil] at hlen
  omega

theorem codeFree_take_two (bs : List UInt8) : CodeFree ([] ++ bs.take 2) :=
  codeFree_of_length_lt (by rw [List.nil_append, List.length_take]; omega)

theorem codeFree_drop {bs : List UInt8} {i : Nat} (h : bs.length < i + 3) :
    CodeFree (bs.drop i) :=
  codeFree_of_length_lt (by rw [List.length_drop]; omega)

/-- A last zero completes no start code. -/
theorem codeFree_concat_zero {bs : List UInt8} (h : CodeFree bs) : CodeFree (bs ++ [0]) := by
  rw [CodeFree, List.infix_concat_iff, not_or]
  refine ⟨?_, h⟩
  intro hsuffix
  have hlast := hsuffix.getLast (by decide)
  simp [shortCode] at hlast

theorem CodeFree.tail {b : UInt8} {bs : List UInt8} (h : CodeFree (b :: bs)) : CodeFree bs := by
  rw [CodeFree, List.infix_cons_iff, not_or] at h
  exact h.2

theorem CodeFree.withoutZero {bs : List UInt8} (h : CodeFree bs) : CodeFree (withoutZero bs) := by
  rw [Lib.withoutZero]
  split
  · exact fun hcode => h (hcode.trans (List.dropLast_prefix bs).isInfix)
  · exact h

@[simp] theorem withoutZero_concat_zero (bs : List UInt8) : withoutZero (bs ++ [0]) = bs := by
  simp [withoutZero]

theorem withoutZero_concat {b : UInt8} (h : b ≠ 0) (bs : List UInt8) :
    withoutZero (bs ++ [b]) = bs ++ [b] := by
  simp [withoutZero, h]

theorem withoutZero_of_getLast? {bs : List UInt8} (h : bs.getLast? ≠ some 0) :
    withoutZero bs = bs := by
  rw [withoutZero, if_neg h]

/-- Of zeros at the end one is left out. -/
theorem withoutZero_append_zeros {bs : List UInt8} (h : bs.getLast? ≠ some 0) (n : Nat) :
    withoutZero (bs ++ List.replicate n 0) = bs ++ List.replicate (n - 1) 0 := by
  cases n with
  | zero => simpa using withoutZero_of_getLast? h
  | succ n =>
      rw [List.replicate_succ', ← List.append_assoc, withoutZero_concat_zero, Nat.add_sub_cancel]

theorem codeFree_append_zeros {bs : List UInt8} (h : CodeFree bs) (n : Nat) :
    CodeFree (bs ++ List.replicate n 0) := by
  induction n with
  | zero => simpa using h
  | succ n ih =>
      rw [List.replicate_succ', ← List.append_assoc]
      exact codeFree_concat_zero ih

/-- A long code is a short one with a zero in front. -/
theorem code_eq_zeros (long : Bool) :
    (if long then longCode else shortCode) = List.replicate long.toNat 0 ++ shortCode := by
  cases long <;> rfl

/-- The byte that was left out goes to the start code. -/
theorem withoutZero_append_code (bs : List UInt8) :
    ∃ long : Bool, bs ++ shortCode = withoutZero bs ++ (if long then longCode else shortCode) := by
  by_cases h : bs.getLast? = some 0
  · obtain ⟨xs, rfl⟩ := List.getLast?_eq_some_iff.mp h
    exact ⟨true, by simp [longCode]⟩
  · exact ⟨false, by simp [withoutZero, h]⟩

/-- A start code that a byte completes is the last three. -/
theorem codeFree_concat {bs : List UInt8} {a b c : UInt8} (h : CodeFree (bs ++ [a, b]))
    (hlast : ¬ (a = 0 ∧ b = 0 ∧ c = 1)) : CodeFree (bs ++ [a, b, c]) := by
  have hsplit : bs ++ [a, b, c] = bs ++ [a, b] ++ [c] := by simp
  rw [hsplit, CodeFree, List.infix_concat_iff, not_or, ← hsplit]
  refine ⟨?_, h⟩
  intro hsuffix
  have heq : shortCode = [a, b, c] :=
    (List.suffix_of_suffix_length_le hsuffix (List.suffix_append bs [a, b, c])
      Nat.le.refl).eq_of_length rfl
  simp only [shortCode, List.cons.injEq] at heq
  grind

/-- No start code begins in bytes that have none and ends behind them. -/
theorem CodeFree.not_prefix_append {b : UInt8} {xs : List UInt8} (h : CodeFree (b :: xs))
    (ys : List UInt8) : ¬ shortCode <+: b :: (xs ++ (shortCode ++ ys)) := by
  intro hprefix
  match xs with
  | [] | [_] => simp [shortCode] at hprefix
  | c :: d :: xs =>
      have hcode : shortCode <+: b :: c :: d :: xs := by simpa [shortCode] using hprefix
      exact h hcode.isInfix

/-! ## reading a stream -/

/-- Read on when no start code is next. -/
theorem cut_cons {b : UInt8} {bs : List UInt8} (h : ¬ shortCode <+: b :: bs) (unit : List UInt8) :
    cut unit (b :: bs) = cut (unit ++ [b]) bs := by
  rw [cut]
  rintro bs rfl rfl
  exact h (List.prefix_append shortCode bs)

theorem scan_cons {b : UInt8} {bs : List UInt8} (h : ¬ shortCode <+: b :: bs) :
    scan (b :: bs) = scan bs := by
  rw [scan]
  rintro bs rfl rfl
  exact h (List.prefix_append shortCode bs)

theorem scan_of_codeFree {xs : List UInt8} (h : CodeFree xs) : scan xs = [] := by
  induction xs with
  | nil => rw [scan]
  | cons b xs ih => rw [scan_cons (fun hprefix => h hprefix.isInfix), ih h.tail]

/-- A unit is read up to the start code after it. -/
theorem cut_append_code {xs : List UInt8} (h : CodeFree xs) (unit ys : List UInt8) :
    cut unit (xs ++ (shortCode ++ ys)) = withoutZero (unit ++ xs) :: cut [] ys := by
  induction xs generalizing unit with
  | nil => simp [shortCode, cut]
  | cons b xs ih =>
      rw [List.cons_append, cut_cons (h.not_prefix_append ys), ih h.tail, List.append_assoc]
      simp only [List.singleton_append]

/-- The last unit is read to the end. -/
theorem cut_of_codeFree {xs : List UInt8} (h : CodeFree xs) (unit : List UInt8) :
    cut unit xs = [unit ++ xs] := by
  induction xs generalizing unit with
  | nil => simp [cut]
  | cons b xs ih =>
      rw [cut_cons (fun hprefix => h hprefix.isInfix), ih h.tail, List.append_assoc]
      simp only [List.singleton_append]

/-! ## what the units are -/

/-- `cut` makes no unit with a start code. -/
theorem codeFree_of_mem_cut {unit bs : List UInt8} (h : CodeFree (unit ++ bs.take 2)) :
    ∀ nal ∈ cut unit bs, CodeFree nal := by
  fun_induction cut unit bs with
  | case1 unit bs ih =>
      have hunit : CodeFree unit := fun hcode => h (hcode.trans List.infix_append_left)
      simpa [hunit.withoutZero] using ih (codeFree_take_two bs)
  | case2 unit b bs hcode ih =>
      apply ih
      -- one more byte is looked at
      match bs with
      | [] | [_] => simpa using h
      | c :: d :: bs =>
          have hnot : ¬ (b = 0 ∧ c = 0 ∧ d = 1) := by
            rintro ⟨rfl, rfl, rfl⟩
            exact hcode bs rfl rfl
          simpa using codeFree_concat (by simpa using h) hnot
  | case3 unit => simpa using h

theorem codeFree_of_mem_scan (bs : List UInt8) : ∀ nal ∈ scan bs, CodeFree nal := by
  fun_induction scan bs with
  | case1 bs => exact codeFree_of_mem_cut (codeFree_take_two bs)
  | case2 b bs hcode ih => exact ih
  | case3 => simp

/-- What `cut` read is what it returns, with the start codes between. -/
theorem cut_stream (unit bs : List UInt8) :
    ∃ first later, cut unit bs = first :: later.map Prod.snd ∧
      unit ++ bs = first ++ stream later := by
  fun_induction cut unit bs with
  | case1 unit bs ih =>
      obtain ⟨first, later, hcut, hstream⟩ := ih
      obtain ⟨long, hlong⟩ := withoutZero_append_code unit
      refine ⟨withoutZero unit, (long, first) :: later, by rw [hcut, List.map_cons], ?_⟩
      rw [List.nil_append] at hstream
      show unit ++ (shortCode ++ bs) = _
      rw [← List.append_assoc, hlong, hstream]
      simp [stream]
  | case2 unit b bs hcode ih => simpa using ih
  | case3 unit => exact ⟨unit, [], rfl, rfl⟩

/-- A stream is its units from the first start code on. -/
theorem scan_stream (bs : List UInt8) :
    (scan bs = [] ∧ fromCode bs = []) ∨
      ∃ first later, scan bs = first :: later.map Prod.snd ∧
        fromCode bs = shortCode ++ first ++ stream later := by
  fun_induction scan bs with
  | case1 bs =>
      obtain ⟨first, later, hcut, hstream⟩ := cut_stream [] bs
      rw [List.nil_append] at hstream
      exact .inr ⟨first, later, hcut, by rw [fromCode, hstream, List.append_assoc]⟩
  | case2 b bs hcode ih => rwa [fromCode.eq_2 b bs hcode]
  | case3 => exact .inl ⟨rfl, rfl⟩

/-! ## writing a stream -/

/-- Units with long start codes are read back. -/
theorem cut_flatMap_longCode {nal : List UInt8} {nals : List (List UInt8)}
    (h : ∀ n ∈ nal :: nals, CodeFree n) :
    cut [] (nal ++ nals.flatMap (longCode ++ ·)) = nal :: nals := by
  induction nals generalizing nal with
  | nil => simpa using cut_of_codeFree (h nal (by simp)) []
  | cons next nals ih =>
      rw [List.forall_mem_cons] at h
      -- the zero of the long code is read with the unit, and left out
      have hzero := cut_append_code (codeFree_concat_zero h.1) []
        (next ++ nals.flatMap (longCode ++ ·))
      rw [List.nil_append, withoutZero_concat_zero, ih h.2] at hzero
      simpa [longCode] using hzero

theorem scan_flatMap_longCode {nals : List (List UInt8)} (h : ∀ n ∈ nals, CodeFree n) :
    scan (nals.flatMap (longCode ++ ·)) = nals := by
  cases nals with
  | nil => rfl
  | cons nal nals => exact cut_flatMap_longCode h

/-! ## writing a stream with padding -/

/-- Units that a reader can tell from the zeros behind them. -/
def Terminated (u : PaddedUnit) : Prop := CodeFree u.unit ∧ u.unit.getLast? ≠ some 0

instance (u : PaddedUnit) : Decidable (Terminated u) := inferInstanceAs (Decidable (_ ∧ _))

theorem paddedStream_cons (u : PaddedUnit) (units : List PaddedUnit) :
    paddedStream (u :: units) = List.replicate u.long.toNat 0 ++
      (shortCode ++ (u.unit ++ List.replicate u.padding 0 ++ paddedStream units)) := by
  simp only [paddedStream, List.flatMap_cons, code_eq_zeros, List.append_assoc]

/-- Behind the first start code. -/
theorem cut_paddedStream {u : PaddedUnit} {units : List PaddedUnit}
    (h : ∀ v ∈ u :: units, Terminated v) :
    cut [] (u.unit ++ List.replicate u.padding 0 ++ paddedStream units) =
      unitsRead (u :: units) := by
  induction units generalizing u with
  | nil =>
      rw [paddedStream, List.flatMap_nil, List.append_nil, unitsRead]
      exact cut_of_codeFree (codeFree_append_zeros (h u (by simp)).1 _) []
  | cons v units ih =>
      rw [List.forall_mem_cons] at h
      have hfree := codeFree_append_zeros h.1.1 (u.padding + v.long.toNat)
      have hread := cut_append_code hfree []
        (v.unit ++ List.replicate v.padding 0 ++ paddedStream units)
      rw [List.nil_append, withoutZero_append_zeros h.1.2, ih h.2] at hread
      -- the padding and the zero of the next code are one run of zeros
      rw [← List.replicate_append_replicate] at hread
      simp only [List.append_assoc] at hread ⊢
      rw [paddedStream_cons, unitsRead, List.append_assoc v.unit, hread]

theorem scan_paddedStream {units : List PaddedUnit} (h : ∀ u ∈ units, Terminated u) :
    scan (paddedStream units) = unitsRead units := by
  cases units with
  | nil => rfl
  | cons u units =>
      rw [paddedStream_cons, ← cut_paddedStream h]
      cases u.long <;> rfl

theorem unitsRead_eq_iff (units : List PaddedUnit) :
    unitsRead units = units.map PaddedUnit.unit ↔ PaddingAbsorbed units := by
  fun_induction unitsRead units with
  | case1 => simp [PaddingAbsorbed]
  | case2 u => simp [PaddingAbsorbed]
  | case3 u v units ih =>
      rw [List.map_cons, List.cons.injEq, ih, PaddingAbsorbed, List.append_right_eq_self,
        List.replicate_eq_nil_iff, Nat.sub_eq_zero_iff_le]

/-- Units without padding. -/
theorem paddedStream_of_stream (units : List (Bool × List UInt8)) :
    paddedStream (units.map unpadded) = stream units := by
  simp only [paddedStream, List.flatMap_map, unpadded, List.replicate_zero, List.append_nil]
  rfl

theorem paddingAbsorbed_of_forall_zero {units : List PaddedUnit}
    (h : ∀ u ∈ units, u.padding = 0) : PaddingAbsorbed units := by
  fun_induction PaddingAbsorbed units with
  | case1 => trivial
  | case2 u => exact h u (by simp)
  | case3 u v units ih =>
      rw [List.forall_mem_cons] at h
      have hbool := v.long.toNat_le
      rw [h.1]
      exact ⟨by omega, ih h.2⟩

/-- Units without padding are read back. -/
theorem scan_stream_units {units : List (Bool × List UInt8)}
    (h : ∀ u ∈ units, CodeFree u.2 ∧ u.2.getLast? ≠ some 0) :
    scan (stream units) = units.map Prod.snd := by
  have hread : scan (paddedStream (units.map unpadded)) = unitsRead (units.map unpadded) :=
    scan_paddedStream (List.forall_mem_map.mpr h)
  have hpadding : PaddingAbsorbed (units.map unpadded) :=
    paddingAbsorbed_of_forall_zero (List.forall_mem_map.mpr fun _ _ => rfl)
  rw [← paddedStream_of_stream, hread, (unitsRead_eq_iff _).mpr hpadding, List.map_map]
  rfl

end Lib
