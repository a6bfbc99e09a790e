import Mathlib.Algebra.Ring.Nat

/-!
# TwinScreen.Lib.Framing

Length-delimited framing of a byte stream: every frame is a header of fixed
length, which announces a tag and a payload length, followed by the payload.

`split` is the reference reading of a finite stream: frames are taken from the
front until a header is rejected or the stream ends inside a frame.  `headers`
lists the headers met on the way, the one of an unfinished frame included.

The theorems are the two facts any sender/receiver pair rests on:

* `split_isPrefix` — reading less of a stream gives fewer frames, never others;
* `next_encode` — an encoded frame is read back, whatever follows it, and
  `next_of_truncated` — a frame cut short is not read at all.

`Rejects` says that a stream is stopped by a header and not by its end.  Two
framings of which one accepts less stop alike exactly when they judge every
header on the way alike (`agree_iff`).
-/

namespace Lib

/-- A framing: the header's length and its reader, which gives the frame's tag
and the payload length, or rejects the header. -/
structure Framing (α τ : Type) where
  headerLen : Nat
  headerLen_pos : 0 < headerLen
  decode : List α → Option (τ × Nat)

namespace Framing

variable {α τ : Type} (F : Framing α τ)

/-- The header at the front of a stream, once it is there in full. -/
def header (bs : List α) : Option (τ × Nat) :=
  if bs.length < F.headerLen then none else F.decode (bs.take F.headerLen)

/-- The frame at the front of a stream and what follows it. -/
def next (bs : List α) : Option ((τ × List α) × List α) :=
  match F.header bs with
  | none => none
  | some (t, n) =>
      if bs.length < F.headerLen + n then
        none
      else
        some ((t, (bs.drop F.headerLen).take n), bs.drop (F.headerLen + n))

@[simp] theorem header_nil : F.header [] = none := if_pos F.headerLen_pos

/-- A header is only seen in full. -/
theorem headerLen_le_of_header {bs : List α} {h : τ × Nat} (hh : F.header bs = some h) :
    F.headerLen ≤ bs.length := by
  unfold header at hh
  split at hh
  · contradiction
  · omega

/-- A frame is its header's tag with the announced number of payload bytes. -/
theorem next_eq_some_iff {bs rest : List α} {t : τ} {p : List α} :
    F.next bs = some ((t, p), rest) ↔
      ∃ n, F.header bs = some (t, n) ∧ F.headerLen + n ≤ bs.length ∧
        p = (bs.drop F.headerLen).take n ∧ rest = bs.drop (F.headerLen + n) := by
  unfold next
  cases hh : F.header bs with
  | none => simp
  | some h =>
      obtain ⟨t', n⟩ := h
      by_cases hlen : bs.length < F.headerLen + n
      · simp only [hlen, if_true, reduceCtorEq, Option.some.injEq, Prod.mk.injEq, false_iff,
          not_exists, not_and]
        rintro m ⟨-, rfl⟩ hle
        omega
      · simp only [hlen, if_false, Option.some.injEq, Prod.mk.injEq]
        constructor
        · rintro ⟨⟨rfl, rfl⟩, rfl⟩
          exact ⟨n, ⟨rfl, rfl⟩, by omega, rfl, rfl⟩
        · rintro ⟨m, ⟨rfl, rfl⟩, -, rfl, rfl⟩
          exact ⟨⟨rfl, rfl⟩, rfl⟩

/-- A frame takes its header at least. -/
theorem length_lt_of_next {bs rest : List α} {f : τ × List α} (h : F.next bs = some (f, rest)) :
    rest.length < bs.length := by
  obtain ⟨t, p⟩ := f
  obtain ⟨n, -, hle, -, rfl⟩ := F.next_eq_some_iff.mp h
  have := F.headerLen_pos
  rw [List.length_drop]
  omega

/-! ## reading a whole stream -/

/-- The frames of a stream, in order. -/
def split (bs : List α) : List (τ × List α) :=
  match _h : F.next bs with
  | none => []
  | some (f, rest) => f :: split rest
termination_by bs.length
decreasing_by exact F.length_lt_of_next _h

/-- The headers met while splitting, the last one possibly of a frame that the
stream does not finish. -/
def headers (bs : List α) : List (τ × Nat) :=
  match F.header bs with
  | none => []
  | some h =>
      h :: match _h : F.next bs with
        | none => []
        | some (_, rest) => headers rest
termination_by bs.length
decreasing_by exact F.length_lt_of_next _h

/-- The stream after its first `k` frames, or where no further frame follows. -/
def after : Nat → List α → List α
  | 0, bs => bs
  | k + 1, bs =>
      match F.next bs with
      | none => bs
      | some (_, rest) => after k rest

theorem split_of_next {bs rest : List α} {f : τ × List α} (h : F.next bs = some (f, rest)) :
    F.split bs = f :: F.split rest := by
  rw [split]
  split
  · next hn => rw [h] at hn; contradiction
  · next hs => rw [h] at hs; cases hs; rfl

theorem split_of_next_none {bs : List α} (h : F.next bs = none) : F.split bs = [] := by
  rw [split]
  split
  · rfl
  · next hs => rw [h] at hs; contradiction

theorem headers_of_header_none {bs : List α} (h : F.header bs = none) : F.headers bs = [] := by
  rw [headers, h]

@[simp] theorem headers_nil : F.headers [] = [] := F.headers_of_header_none F.header_nil

theorem headers_of_next {bs rest : List α} {f : τ × List α} {h : τ × Nat}
    (hh : F.header bs = some h) (hn : F.next bs = some (f, rest)) :
    F.headers bs = h :: F.headers rest := by
  rw [headers, hh]
  simp only [List.cons.injEq, true_and]
  split
  · next hn' => rw [hn] at hn'; contradiction
  · next hs => rw [hn] at hs; cases hs; rfl

theorem headers_of_next_none {bs : List α} {h : τ × Nat} (hh : F.header bs = some h)
    (hn : F.next bs = none) : F.headers bs = [h] := by
  rw [headers, hh]
  simp only [List.cons.injEq, true_and]
  split
  · rfl
  · next hs => rw [hn] at hs; contradiction

/-- The header at the front is the first one met. -/
theorem headers_getElem?_zero {bs : List α} {h : τ × Nat} (hh : F.header bs = some h) :
    (F.headers bs)[0]? = some h := by
  rw [headers, hh]
  rfl

theorem mem_headers_of_header {bs : List α} {h : τ × Nat} (hh : F.header bs = some h) :
    h ∈ F.headers bs :=
  List.mem_of_getElem? (F.headers_getElem?_zero hh)

/-- The headers after the first frame are met too. -/
theorem mem_headers_of_next {bs rest : List α} {f : τ × List α} (hn : F.next bs = some (f, rest))
    {h : τ × Nat} (hmem : h ∈ F.headers rest) : h ∈ F.headers bs := by
  obtain ⟨t, p⟩ := f
  obtain ⟨n, hh, -⟩ := F.next_eq_some_iff.mp hn
  rw [F.headers_of_next hh hn]
  exact List.mem_cons_of_mem _ hmem

theorem after_of_next {bs rest : List α} {f : τ × List α} (h : F.next bs = some (f, rest))
    (k : Nat) : F.after (k + 1) bs = F.after k rest := by
  rw [after, h]

theorem next_of_header_none {bs : List α} (h : F.header bs = none) : F.next bs = none := by
  rw [next, h]

@[simp] theorem split_nil : F.split [] = [] :=
  F.split_of_next_none (F.next_of_header_none F.header_nil)

/-! ## more of the stream -/

/-- A header does not change when more of the stream arrives. -/
theorem header_append {bs : List α} {h : τ × Nat} (hh : F.header bs = some h) (xs : List α) :
    F.header (bs ++ xs) = some h := by
  have hle := F.headerLen_le_of_header hh
  unfold header at hh ⊢
  rw [if_neg (by omega)] at hh
  rw [if_neg (by rw [List.length_append]; omega), List.take_append_of_le_length hle, hh]

/-- A frame does not change when more of the stream arrives. -/
theorem next_append {bs rest : List α} {f : τ × List α} (h : F.next bs = some (f, rest))
    (xs : List α) : F.next (bs ++ xs) = some (f, rest ++ xs) := by
  obtain ⟨t, p⟩ := f
  obtain ⟨n, hh, hle, rfl, rfl⟩ := F.next_eq_some_iff.mp h
  refine F.next_eq_some_iff.mpr
    ⟨n, F.header_append hh xs, by rw [List.length_append]; omega, ?_, ?_⟩
  · rw [List.drop_append_of_le_length (by omega),
      List.take_append_of_le_length (by rw [List.length_drop]; omega)]
  · rw [List.drop_append_of_le_length hle]

/-- Reading on keeps the frames already read. -/
theorem split_append_isPrefix (bs xs : List α) : F.split bs <+: F.split (bs ++ xs) := by
  induction bs using split.induct F with
  | case1 bs h => rw [F.split_of_next_none h]; exact List.nil_prefix
  | case2 bs f rest h ih =>
      rw [F.split_of_next h, F.split_of_next (F.next_append h xs)]
      exact List.cons_prefix_cons.mpr ⟨rfl, ih⟩

/-- **Prefix law**: a prefix of the stream yields a prefix of its frames. -/
theorem split_isPrefix {bs cs : List α} (h : bs <+: cs) : F.split bs <+: F.split cs := by
  obtain ⟨xs, rfl⟩ := h
  exact F.split_append_isPrefix bs xs

/-! ## encoded streams -/

/-- An accepted header is read whatever follows it. -/
theorem header_encode {hdr : List α} {t : τ} {n : Nat} (hlen : hdr.length = F.headerLen)
    (hdec : F.decode hdr = some (t, n)) (rest : List α) : F.header (hdr ++ rest) = some (t, n) := by
  unfold header
  rw [if_neg (by rw [List.length_append]; omega), ← hlen, List.take_left, hdec]

/-- A header in front of its payload is read back as that frame. -/
theorem next_encode {hdr : List α} {t : τ} {p : List α} (hlen : hdr.length = F.headerLen)
    (hdec : F.decode hdr = some (t, p.length)) (rest : List α) :
    F.next (hdr ++ p ++ rest) = some ((t, p), rest) := by
  have hdrop : (hdr ++ p ++ rest).drop F.headerLen = p ++ rest := by
    rw [← hlen, List.append_assoc, List.drop_left]
  refine F.next_eq_some_iff.mpr ⟨p.length, ?_, ?_, ?_, ?_⟩
  · rw [List.append_assoc]
    exact F.header_encode hlen hdec (p ++ rest)
  · simp only [List.length_append]
    omega
  · rw [hdrop, List.take_left]
  · rw [← List.drop_drop, hdrop, List.drop_left]

/-- The header of the frame at the front. -/
theorem header_of_next {bs rest : List α} {t : τ} {p : List α}
    (h : F.next bs = some ((t, p), rest)) : F.header bs = some (t, p.length) := by
  obtain ⟨n, hh, hle, rfl, -⟩ := F.next_eq_some_iff.mp h
  rw [hh, List.length_take, List.length_drop, Nat.min_eq_left (by omega)]

/-- A stream of frames one after the other, and its headers. -/
theorem split_flatMap {β : Type} {encode : β → List α} {frame : β → τ × List α} {xs : List β}
    (h : ∀ x ∈ xs, ∀ rest, F.next (encode x ++ rest) = some (frame x, rest)) :
    F.split (xs.flatMap encode) = xs.map frame ∧
      F.headers (xs.flatMap encode) = xs.map fun x => ((frame x).1, (frame x).2.length) := by
  induction xs with
  | nil => simp
  | cons x xs ih =>
      rw [List.forall_mem_cons] at h
      have hnext := h.1 (xs.flatMap encode)
      obtain ⟨hsplit, hheaders⟩ := ih h.2
      rw [List.flatMap_cons, F.split_of_next hnext, hsplit,
        F.headers_of_next (F.header_of_next hnext) hnext, hheaders, List.map_cons, List.map_cons]
      exact ⟨rfl, rfl⟩

/-- **Truncation**: a proper prefix of one frame contains no frame, and no header
but the frame's. -/
theorem next_of_truncated {hdr : List α} {t : τ} {p bs : List α}
    (hlen : hdr.length = F.headerLen) (hdec : F.decode hdr = some (t, p.length))
    (hpre : bs <+: hdr ++ p) (hlt : bs.length < (hdr ++ p).length) :
    F.next bs = none ∧ ∀ h ∈ F.headers bs, h = (t, p.length) := by
  obtain ⟨xs, hxs⟩ := hpre
  have hnext : F.next bs = none := by
    cases hn : F.next bs with
    | none => rfl
    | some r =>
        obtain ⟨f, rest⟩ := r
        have hfull : F.next (hdr ++ p) = some ((t, p), []) := by
          simpa using F.next_encode hlen hdec []
        have hext := F.next_append hn xs
        rw [hxs, hfull] at hext
        have hnil : rest ++ xs = [] := (congrArg Prod.snd (Option.some.inj hext)).symm
        rw [(List.append_eq_nil_iff.mp hnil).2, List.append_nil] at hxs
        rw [hxs] at hlt
        omega
  refine ⟨hnext, fun h hmem => ?_⟩
  cases hh : F.header bs with
  | none => rw [F.headers_of_header_none hh] at hmem; contradiction
  | some h' =>
      rw [F.headers_of_next_none hh hnext, List.mem_singleton] at hmem
      have hext := F.header_append hh xs
      rw [hxs, F.header_encode hlen hdec p] at hext
      rw [hmem, Option.some.inj hext]

/-! ## where a stream stops -/

/-- What follows the last frame of a stream. -/
def rest (bs : List α) : List α := F.after (F.split bs).length bs

theorem after_of_next_none {bs : List α} (h : F.next bs = none) (k : Nat) : F.after k bs = bs := by
  cases k with
  | zero => rfl
  | succ k => rw [after, h]

theorem rest_of_next {bs bs' : List α} {f : τ × List α} (h : F.next bs = some (f, bs')) :
    F.rest bs = F.rest bs' := by
  rw [rest, F.split_of_next h, List.length_cons, F.after_of_next h, rest]

theorem rest_of_next_none {bs : List α} (h : F.next bs = none) : F.rest bs = bs := by
  rw [rest, F.split_of_next_none h, List.length_nil, after]

/-- Nothing is left of a stream of whole frames. -/
theorem rest_flatMap {β : Type} {encode : β → List α} {frame : β → τ × List α} {xs : List β}
    (h : ∀ x ∈ xs, ∀ rest, F.next (encode x ++ rest) = some (frame x, rest)) :
    F.rest (xs.flatMap encode) = [] := by
  induction xs with
  | nil => exact F.rest_of_next_none (F.next_of_header_none F.header_nil)
  | cons x xs ih =>
      rw [List.forall_mem_cons] at h
      rw [List.flatMap_cons, F.rest_of_next (h.1 (xs.flatMap encode)), ih h.2]

/-- The frames and the rest make up the stream. -/
theorem length_eq (bs : List α) :
    bs.length = ((F.split bs).map fun f => F.headerLen + f.2.length).sum + (F.rest bs).length := by
  induction bs using split.induct F with
  | case1 bs h => rw [F.split_of_next_none h, F.rest_of_next_none h, List.map_nil, List.sum_nil,
      Nat.zero_add]
  | case2 bs f bs' h ih =>
      rw [F.split_of_next h, F.rest_of_next h, List.map_cons, List.sum_cons]
      obtain ⟨t, p⟩ := f
      obtain ⟨n, -, hle, rfl, rfl⟩ := F.next_eq_some_iff.mp h
      rw [List.length_drop] at ih
      rw [List.length_take, List.length_drop, Nat.min_eq_left (by omega)]
      omega

/-- A frame takes an element at least. -/
theorem length_split_le (bs : List α) : (F.split bs).length ≤ bs.length := by
  induction bs using split.induct F with
  | case1 bs h => simp [F.split_of_next_none h]
  | case2 bs f bs' h ih =>
      have := F.length_lt_of_next h
      rw [F.split_of_next h, List.length_cons]
      omega

/-- A stream that goes on is split up to its rest, and then the rest with it. -/
theorem split_append (bs xs : List α) :
    F.split (bs ++ xs) = F.split bs ++ F.split (F.rest bs ++ xs) := by
  induction bs using split.induct F with
  | case1 bs h => rw [F.split_of_next_none h, F.rest_of_next_none h, List.nil_append]
  | case2 bs f bs' h ih =>
      rw [F.split_of_next h, F.rest_of_next h, F.split_of_next (F.next_append h xs), ih,
        List.cons_append]

/-- The headers met in a stream that goes on are its own, and those of the rest. -/
theorem mem_headers_append {bs xs : List α} {h : τ × Nat} (hmem : h ∈ F.headers (bs ++ xs)) :
    h ∈ F.headers bs ∨ h ∈ F.headers (F.rest bs ++ xs) := by
  induction bs using split.induct F with
  | case1 bs hn =>
      rw [F.rest_of_next_none hn]
      exact .inr hmem
  | case2 bs f bs' hn ih =>
      obtain ⟨t, p⟩ := f
      obtain ⟨n, hh, -⟩ := F.next_eq_some_iff.mp hn
      rw [F.headers_of_next (F.header_append hh xs) (F.next_append hn xs)] at hmem
      rw [F.rest_of_next hn, F.headers_of_next hh hn]
      cases hmem with
      | head => exact .inl List.mem_cons_self
      | tail _ hmem => exact (ih hmem).imp (List.mem_cons_of_mem _) id

/-- The headers met stay met when more of the stream arrives. -/
theorem headers_subset_append (bs xs : List α) : F.headers bs ⊆ F.headers (bs ++ xs) := by
  intro h hmem
  induction bs using split.induct F with
  | case1 bs hn =>
      cases hh : F.header bs with
      | none =>
          rw [F.headers_of_header_none hh] at hmem
          contradiction
      | some h' =>
          rw [F.headers_of_next_none hh hn, List.mem_singleton] at hmem
          subst hmem
          exact F.mem_headers_of_header (F.header_append hh xs)
  | case2 bs f bs' hn ih =>
      obtain ⟨t, p⟩ := f
      obtain ⟨n, hh, -⟩ := F.next_eq_some_iff.mp hn
      rw [F.headers_of_next hh hn] at hmem
      rw [F.headers_of_next (F.header_append hh xs) (F.next_append hn xs)]
      cases hmem with
      | head => exact List.mem_cons_self
      | tail _ hmem => exact List.mem_cons_of_mem _ (ih hmem)

/-- What is left of a stream with more behind it. -/
theorem rest_append (bs xs : List α) : F.rest (bs ++ xs) = F.rest (F.rest bs ++ xs) := by
  induction bs using split.induct F with
  | case1 bs h => rw [F.rest_of_next_none h]
  | case2 bs f bs' h ih => rw [F.rest_of_next h, F.rest_of_next (F.next_append h xs), ih]

theorem next_rest (bs : List α) : F.next (F.rest bs) = none := by
  induction bs using split.induct F with
  | case1 bs h => rw [F.rest_of_next_none h, h]
  | case2 bs f bs' h ih => rw [F.rest_of_next h, ih]

theorem mem_headers_of_header_rest {bs : List α} {h : τ × Nat}
    (hh : F.header (F.rest bs) = some h) :
    h ∈ F.headers bs := by
  induction bs using split.induct F with
  | case1 bs hn =>
      rw [F.rest_of_next_none hn] at hh
      exact F.mem_headers_of_header hh
  | case2 bs f bs' hn ih =>
      rw [F.rest_of_next hn] at hh
      exact F.mem_headers_of_next hn (ih hh)

/-- The stream is stopped by a header that is not accepted. -/
def Rejects (bs : List α) : Prop := F.headerLen ≤ (F.rest bs).length ∧ F.header (F.rest bs) = none

/-- A header that is not accepted stays so. -/
theorem header_append_of_none {bs : List α} (hlen : F.headerLen ≤ bs.length)
    (hh : F.header bs = none) (xs : List α) : F.header (bs ++ xs) = none := by
  unfold header at hh ⊢
  rw [if_neg (by omega)] at hh
  rw [if_neg (by rw [List.length_append]; omega), List.take_append_of_le_length hlen, hh]

/-- Behind a rejected header nothing is read. -/
theorem split_append_of_rejects {bs : List α} (h : F.Rejects bs) (xs : List α) :
    F.split (bs ++ xs) = F.split bs ∧ ∀ hd ∈ F.headers (bs ++ xs), hd ∈ F.headers bs := by
  have hnone := F.header_append_of_none h.1 h.2 xs
  constructor
  · rw [F.split_append, F.split_of_next_none (F.next_of_header_none hnone), List.append_nil]
  · intro hd hmem
    have hcases := F.mem_headers_append hmem
    rw [F.headers_of_header_none hnone] at hcases
    exact hcases.resolve_right List.not_mem_nil

/-- A header that is accepted gets its frame when enough follows. -/
theorem exists_split_append [Inhabited α] {bs : List α} {t : τ} {n : Nat}
    (hh : F.header (F.rest bs) = some (t, n)) :
    ∃ xs p, F.split (bs ++ xs) = F.split bs ++ [(t, p)] ∧
      ∀ hd ∈ F.headers (bs ++ xs), hd ∈ F.headers bs := by
  have hshort : (F.rest bs).length < F.headerLen + n := by
    apply Nat.lt_of_not_le
    intro hle
    have hnext := F.next_eq_some_iff.mpr ⟨n, hh, hle, rfl, rfl⟩
    rw [F.next_rest] at hnext
    contradiction
  let xs := List.replicate (F.headerLen + n - (F.rest bs).length) (default : α)
  have hlen : (F.rest bs ++ xs).length = F.headerLen + n := by
    rw [List.length_append, List.length_replicate]
    omega
  have hnext := F.next_eq_some_iff.mpr ⟨n, F.header_append hh xs, Nat.le_of_eq hlen.symm, rfl, rfl⟩
  rw [← hlen, List.drop_length] at hnext
  generalize List.take n _ = p at hnext
  refine ⟨xs, p, ?_, fun hd hmem => ?_⟩
  · rw [F.split_append, F.split_of_next hnext, F.split_nil]
  · have hcases := F.mem_headers_append hmem
    rw [F.headers_of_next (F.header_append hh xs) hnext, F.headers_nil,
      List.mem_singleton] at hcases
    cases hcases with
    | inl hmem => exact hmem
    | inr heq => exact heq ▸ F.mem_headers_of_header_rest hh

/-! ## two framings -/

section Agree

variable {F} {G : Framing α τ}

/-- Framings with headers of one length read the same frame after the same header. -/
theorem next_congr (hlen : F.headerLen = G.headerLen) {bs : List α}
    (hh : F.header bs = G.header bs) : F.next bs = G.next bs := by
  rw [next, next, hh, hlen]

/-- The stricter framing meets no header that the other one does not. -/
theorem headers_subset (hlen : F.headerLen = G.headerLen)
    (hsub : ∀ bs r, F.header bs = some r → G.header bs = some r) (bs : List α) :
    ∀ h ∈ F.headers bs, h ∈ G.headers bs := by
  induction bs using split.induct F with
  | case1 bs hn =>
      intro h hmem
      cases hh : F.header bs with
      | none =>
          rw [F.headers_of_header_none hh] at hmem
          contradiction
      | some h' =>
          rw [F.headers_of_next_none hh hn, List.mem_singleton] at hmem
          rw [hmem]
          exact G.mem_headers_of_header (hsub bs h' hh)
  | case2 bs f bs' hn ih =>
      obtain ⟨t, p⟩ := f
      obtain ⟨n, hh, -⟩ := F.next_eq_some_iff.mp hn
      have hh' := hsub bs _ hh
      have hn' := (next_congr hlen (hh.trans hh'.symm)).symm.trans hn
      rw [F.headers_of_next hh hn, G.headers_of_next hh' hn']
      intro h hmem
      cases hmem with
      | head => exact List.mem_cons_self
      | tail _ hmem => exact List.mem_cons_of_mem _ (ih h hmem)

/-- The stricter framing reads a prefix of the frames. -/
theorem split_isPrefix_of_header (hlen : F.headerLen = G.headerLen)
    (hsub : ∀ bs r, F.header bs = some r → G.header bs = some r) (bs : List α) :
    F.split bs <+: G.split bs := by
  induction bs using split.induct F with
  | case1 bs hn => rw [F.split_of_next_none hn]; exact List.nil_prefix
  | case2 bs f bs' hn ih =>
      obtain ⟨t, p⟩ := f
      obtain ⟨n, hh, -⟩ := F.next_eq_some_iff.mp hn
      have hn' := (next_congr hlen (hh.trans (hsub bs _ hh).symm)).symm.trans hn
      rw [F.split_of_next hn, G.split_of_next hn']
      exact List.cons_prefix_cons.mpr ⟨rfl, ih⟩

/-- **Agreement.**  A stricter framing reads the same frames, and is stopped by a
header at the same frame, exactly when it accepts every header that the other one
accepts on the way. -/
theorem agree_iff (hlen : F.headerLen = G.headerLen)
    (hsub : ∀ bs r, F.header bs = some r → G.header bs = some r) (bs : List α) :
    (F.split bs = G.split bs ∧ (F.Rejects bs ↔ G.Rejects bs)) ↔
      ∀ k, F.header (G.after k bs) = G.header (G.after k bs) := by
  induction bs using split.induct G with
  | case1 bs hn =>
      have hnF : F.next bs = none := by
        cases hh : F.header bs with
        | none => exact F.next_of_header_none hh
        | some r => rw [next_congr hlen (hh.trans (hsub bs r hh).symm), hn]
      simp only [F.split_of_next_none hnF, G.split_of_next_none hn, Rejects,
        F.rest_of_next_none hnF, G.rest_of_next_none hn, G.after_of_next_none hn, true_and,
        forall_const, hlen]
      cases hF : F.header bs with
      | some r => simp [hsub bs r hF]
      | none =>
          cases hG : G.header bs with
          | none => simp
          | some r => simp [G.headerLen_le_of_header hG]
  | case2 bs f bs' hn ih =>
      obtain ⟨t, p⟩ := f
      obtain ⟨n, hG, -⟩ := G.next_eq_some_iff.mp hn
      cases hF : F.header bs with
      | none =>
          rw [F.split_of_next_none (F.next_of_header_none hF), G.split_of_next hn]
          refine iff_of_false (fun h => ?_) fun h => ?_
          · exact absurd h.1 (List.cons_ne_nil _ _).symm
          · have hzero := h 0
            rw [after, hF, hG] at hzero
            contradiction
      | some r =>
          have hr := hsub bs r hF
          have hnF := (next_congr hlen (hF.trans hr.symm)).trans hn
          rw [F.split_of_next hnF, G.split_of_next hn, List.cons.injEq, Rejects, Rejects,
            F.rest_of_next hnF, G.rest_of_next hn]
          constructor
          · intro h k
            cases k with
            | zero => rw [after, hF, hr]
            | succ k =>
                rw [G.after_of_next hn]
                exact ih.mp ⟨h.1.2, h.2⟩ k
          · intro h
            have hrest := ih.mpr fun k => by
              have hk := h (k + 1)
              rwa [G.after_of_next hn] at hk
            exact ⟨⟨rfl, hrest.1⟩, hrest.2⟩

end Agree

end Framing

end Lib
