/-!
# TwinScreen.Lib.Chunks

A byte stream as its reader meets it: a list of non-empty chunks, one per
arrival.  A single `read` returns what is at hand, never more than asked for;
`readExactly` repeats it until the request is filled or the stream is over.

Every sequence of partial reads is some chunk list, so a statement about all
chunk lists is a statement about all ways of cutting the stream.  The theorems
say that the cuts do not matter: `readExactly` sees only the flattened stream.
-/

namespace Lib

/-- One arrival on a stream: at least one element. -/
structure Chunk (α : Type) where
  data : List α
  ne : data ≠ []

/-- The elements of a chunked stream, cuts forgotten. -/
def flatten (s : List (Chunk α)) : List α := s.flatMap Chunk.data

@[simp] theorem flatten_nil : flatten ([] : List (Chunk α)) = [] := rfl

@[simp] theorem flatten_cons (c : Chunk α) (s : List (Chunk α)) :
    flatten (c :: s) = c.data ++ flatten s := by
  simp [flatten]

/-- A whole list as a single arrival; nothing at all when it is empty. -/
def arrive : List α → List (Chunk α)
  | [] => []
  | x :: xs => [⟨x :: xs, by simp⟩]

@[simp] theorem flatten_arrive (xs : List α) : flatten (arrive xs) = xs := by
  cases xs <;> simp [arrive]

/-! ## one read -/

theorem drop_ne_nil {n : Nat} {xs : List α} (h : n < xs.length) : xs.drop n ≠ [] := by
  simp; omega

/-- One read of at most `n` elements: the head chunk, or its front when it is
longer.  Nothing is read from a stream that is over. -/
def read (n : Nat) : List (Chunk α) → List α × List (Chunk α)
  | [] => ([], [])
  | c :: cs =>
      if h : n < c.data.length then
        (c.data.take n, ⟨c.data.drop n, drop_ne_nil h⟩ :: cs)
      else
        (c.data, cs)

/-- A long head chunk is cut at the request. -/
theorem read_cons_of_lt {n : Nat} {c : Chunk α} (h : n < c.data.length) (cs : List (Chunk α)) :
    read n (c :: cs) = (c.data.take n, ⟨c.data.drop n, drop_ne_nil h⟩ :: cs) := by
  simp [read, h]

/-- A short head chunk is returned whole. -/
theorem read_cons_of_le {n : Nat} {c : Chunk α} (h : c.data.length ≤ n) (cs : List (Chunk α)) :
    read n (c :: cs) = (c.data, cs) := by
  simp [read, Nat.not_lt.mpr h]

/-- A read loses nothing. -/
theorem read_append_flatten (n : Nat) (s : List (Chunk α)) :
    (read n s).1 ++ flatten (read n s).2 = flatten s := by
  cases s with
  | nil => rfl
  | cons c cs =>
      by_cases h : n < c.data.length
      · rw [read_cons_of_lt h, flatten_cons, flatten_cons, ← List.append_assoc,
          List.take_append_drop]
      · rw [read_cons_of_le (Nat.not_lt.mp h), flatten_cons]

/-- A read stays within its request. -/
theorem length_read_le (n : Nat) (s : List (Chunk α)) : (read n s).1.length ≤ n := by
  cases s with
  | nil => simp [read]
  | cons c cs =>
      by_cases h : n < c.data.length
      · rw [read_cons_of_lt h, List.length_take]; omega
      · rw [read_cons_of_le (Nat.not_lt.mp h)]; exact Nat.not_lt.mp h

/-- A read of something returns nothing only at the end of the stream. -/
theorem read_eq_nil_iff {n : Nat} (hn : 0 < n) (s : List (Chunk α)) :
    (read n s).1 = [] ↔ flatten s = [] := by
  cases s with
  | nil => simp [read]
  | cons c cs =>
      have hc := c.ne
      by_cases h : n < c.data.length
      · simp [read_cons_of_lt h, hc, Nat.ne_of_gt hn]
      · simp [read_cons_of_le (Nat.not_lt.mp h), hc]

/-! ## repeated reads -/

/-- Reads until `n` elements are in, or the stream is over. -/
def readExactly (n : Nat) (s : List (Chunk α)) : Option (List α × List (Chunk α)) :=
  if n = 0 then
    some ([], s)
  else if (read n s).1 = [] then
    none
  else
    (readExactly (n - (read n s).1.length) (read n s).2).map
      fun (xs, s') => ((read n s).1 ++ xs, s')
termination_by n
decreasing_by
  have := List.length_pos_iff.mpr ‹¬(read n s).1 = []›
  omega

/-- Reading exactly `n` elements fails on shorter streams, and otherwise splits
the flattened stream at `n`. -/
theorem readExactly_spec (n : Nat) (s : List (Chunk α)) :
    (readExactly n s = none ∧ (flatten s).length < n) ∨
      ∃ s', readExactly n s = some ((flatten s).take n, s') ∧ flatten s' = (flatten s).drop n ∧
        n ≤ (flatten s).length := by
  induction n, s using readExactly.induct with
  | case1 s => exact .inr ⟨s, by rw [readExactly]; simp⟩
  | case2 n s hn hr =>
      have he := (read_eq_nil_iff (Nat.pos_of_ne_zero hn) s).mp hr
      exact .inl ⟨by rw [readExactly, if_neg hn, if_pos hr], by simp [he]; omega⟩
  | case3 n s hn hr ih =>
      have hlen := length_read_le n s
      have happ := read_append_flatten n s
      have hflat : (flatten s).length = (read n s).1.length + (flatten (read n s).2).length := by
        rw [← happ, List.length_append]
      rw [readExactly, if_neg hn, if_neg hr]
      rcases ih with ⟨hnone, hshort⟩ | ⟨s', hsome, hs', hle⟩
      · exact .inl ⟨by rw [hnone]; rfl, by omega⟩
      · refine .inr ⟨s', ?_, ?_, by omega⟩
        · rw [hsome, ← happ, List.take_append, List.take_of_length_le hlen]
          rfl
        · rw [hs', ← happ, List.drop_append, List.drop_eq_nil_of_le hlen, List.nil_append]

/-- Too short a stream is the only reason to fail. -/
theorem readExactly_eq_none_iff {n : Nat} {s : List (Chunk α)} :
    readExactly n s = none ↔ (flatten s).length < n := by
  rcases readExactly_spec n s with ⟨hnone, hshort⟩ | ⟨s', hsome, -, hle⟩
  · simp [hnone, hshort]
  · simp [hsome, hle]

/-- What a filled request returned, and where it left the stream. -/
theorem readExactly_eq_some {n : Nat} {s s' : List (Chunk α)} {xs : List α}
    (h : readExactly n s = some (xs, s')) :
    xs = (flatten s).take n ∧ flatten s' = (flatten s).drop n ∧ n ≤ (flatten s).length := by
  rcases readExactly_spec n s with ⟨hnone, -⟩ | ⟨s'', hsome, hs'', hle⟩
  · rw [hnone] at h; contradiction
  · rw [hsome] at h
    injection h with h
    injection h with hxs hs
    subst hs
    exact ⟨hxs.symm, hs'', hle⟩

/-- A long enough stream fills the request. -/
theorem exists_readExactly {n : Nat} {s : List (Chunk α)} (h : n ≤ (flatten s).length) :
    ∃ s', readExactly n s = some ((flatten s).take n, s') ∧ flatten s' = (flatten s).drop n := by
  rcases readExactly_spec n s with ⟨-, hshort⟩ | ⟨s', hsome, hs', -⟩
  · omega
  · exact ⟨s', hsome, hs'⟩

end Lib
