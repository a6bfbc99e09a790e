import Mathlib.Algebra.Order.Field.Basic
import Mathlib.Tactic.Linarith
import Mathlib.Tactic.Ring

/-!
# TwinScreen.Lib.Hysteresis

A controller that moves a level up and down by streaks of a smoothed signal: a streak
of samples that leave the average above `high` moves it up, one of samples that leave
it below `low` moves it down, and anything else ends both streaks.

What it does with samples that stay on one side is counted: the average needs a number
of samples for its past to fade (`le_avg_foldl`, `avg_foldl_le`), and then each streak
moves the level once.

* `foldl_reaches` — the ranking rule for a fold: every sample brings the goal nearer.
* `level_eq_top`, `level_eq_zero` — where samples on one side take the level.
* `level_foldl_of_between` — samples between the thresholds do not move it.
-/

namespace Lib

/-- **Ranking rule**: when each step under the invariant lowers the rank or reaches the
goal, and none leaves it, the goal is reached within as many steps as the rank says. -/
theorem foldl_reaches {σ α : Type} {f : σ → α → σ} {Inv Goal : σ → Prop} {P : α → Prop}
    {rank : σ → Nat} (hinv : ∀ s x, Inv s → P x → Inv (f s x))
    (hstay : ∀ s x, Inv s → P x → Goal s → Goal (f s x))
    (hrank : ∀ s x, Inv s → P x → ¬ Goal s → Goal (f s x) ∨ rank (f s x) < rank s)
    (hpos : ∀ s, Inv s → ¬ Goal s → 0 < rank s) {xs : List α} (hxs : ∀ x ∈ xs, P x) {s : σ}
    (hs : Inv s) (hlen : Goal s ∨ rank s ≤ xs.length) : Goal (xs.foldl f s) := by
  induction xs generalizing s with
  | nil =>
      rcases hlen with hgoal | hlen
      · exact hgoal
      · by_contra hgoal
        exact absurd (hpos s hs hgoal) (Nat.not_lt.mpr hlen)
  | cons x xs ih =>
      rw [List.forall_mem_cons] at hxs
      refine ih hxs.2 (hinv s x hs hxs.1) ?_
      by_cases hgoal : Goal s
      · exact .inl (hstay s x hs hxs.1 hgoal)
      · have hle := hlen.resolve_left hgoal
        rw [List.length_cons] at hle
        exact (hrank s x hs hxs.1 hgoal).imp_right fun hless => by omega

/-- The parameters of a controller. -/
structure Hysteresis (K : Type) [Field K] [LinearOrder K] where
  /-- The weight of the past in the average. -/
  weight : K
  high : K
  low : K
  highCount : Nat
  lowCount : Nat
  /-- The last level. -/
  top : Nat
  weight_nonneg : 0 ≤ weight
  weight_le_one : weight ≤ 1
  low_le_high : low ≤ high
  highCount_pos : 0 < highCount
  lowCount_pos : 0 < lowCount

namespace Hysteresis

/-- The state of a controller. -/
structure State (K : Type) where
  level : Nat
  avg : K
  highStreak : Nat
  lowStreak : Nat

variable {K : Type} [Field K] [LinearOrder K]

/-- The average after a sample; an average of 0 has no past. -/
def smooth (w avg x : K) : K := if avg = 0 then x else avg * w + x * (1 - w)

variable (p : Hysteresis K) (s : State K)

/-- The streaks that an average leaves. -/
def streaks (avg : K) : Nat × Nat :=
  if p.high < avg then (s.highStreak + 1, 0)
  else if avg < p.low then (0, s.lowStreak + 1)
  else (0, 0)

/-- What the controller does with a sample. -/
def step (x : K) : State K :=
  let avg := smooth p.weight s.avg x
  let (high, low) := p.streaks s avg
  if p.highCount ≤ high ∧ s.level < p.top then ⟨s.level + 1, avg, 0, low⟩
  else if p.lowCount ≤ low ∧ 0 < s.level then ⟨s.level - 1, avg, high, 0⟩
  else ⟨s.level, avg, high, low⟩

/-! ## the average -/

@[simp] theorem avg_step (x : K) : (p.step s x).avg = smooth p.weight s.avg x := by
  unfold step
  dsimp only
  split
  · rfl
  · split <;> rfl

section Average

variable [IsStrictOrderedRing K] {w avg x m e : K}

/-- Samples from `m` on: the distance by which the average is below `m` shrinks. -/
theorem le_smooth (h0 : 0 ≤ w) (h1 : w ≤ 1) (he : 0 ≤ e) (hx : m ≤ x) (h : m - e ≤ avg) :
    m - w * e ≤ smooth w avg x := by
  unfold smooth
  split
  · have hfade := mul_nonneg h0 he
    linarith
  · have hpast := mul_le_mul_of_nonneg_right h h0
    have hsample := mul_le_mul_of_nonneg_right hx (sub_nonneg.mpr h1)
    calc m - w * e = (m - e) * w + m * (1 - w) := by ring
      _ ≤ avg * w + x * (1 - w) := add_le_add hpast hsample

/-- Samples up to `m`: the distance by which the average is above `m` shrinks. -/
theorem smooth_le (h0 : 0 ≤ w) (h1 : w ≤ 1) (he : 0 ≤ e) (hx : x ≤ m) (h : avg ≤ m + e) :
    smooth w avg x ≤ m + w * e := by
  unfold smooth
  split
  · have hfade := mul_nonneg h0 he
    linarith
  · have hpast := mul_le_mul_of_nonneg_right h h0
    have hsample := mul_le_mul_of_nonneg_right hx (sub_nonneg.mpr h1)
    calc avg * w + x * (1 - w) ≤ (m + e) * w + m * (1 - w) := add_le_add hpast hsample
      _ = m + w * e := by ring

variable {p s}

/-- After `n` samples from `m` on, the past weighs `weight ^ n`. -/
theorem le_avg_foldl {xs : List K} (hxs : ∀ x ∈ xs, m ≤ x) (he : 0 ≤ e) (h : m - e ≤ s.avg) :
    m - p.weight ^ xs.length * e ≤ (xs.foldl p.step s).avg := by
  induction xs generalizing s e with
  | nil => simpa using h
  | cons x xs ih =>
      rw [List.forall_mem_cons] at hxs
      have hone := le_smooth p.weight_nonneg p.weight_le_one he hxs.1 h
      rw [← avg_step] at hone
      have hrest := ih hxs.2 (mul_nonneg p.weight_nonneg he) hone
      rwa [← mul_assoc, ← pow_succ] at hrest

/-- After `n` samples up to `m`, the past weighs `weight ^ n`. -/
theorem avg_foldl_le {xs : List K} (hxs : ∀ x ∈ xs, x ≤ m) (he : 0 ≤ e) (h : s.avg ≤ m + e) :
    (xs.foldl p.step s).avg ≤ m + p.weight ^ xs.length * e := by
  induction xs generalizing s e with
  | nil => simpa using h
  | cons x xs ih =>
      rw [List.forall_mem_cons] at hxs
      have hone := smooth_le p.weight_nonneg p.weight_le_one he hxs.1 h
      rw [← avg_step] at hone
      have hrest := ih hxs.2 (mul_nonneg p.weight_nonneg he) hone
      rwa [← mul_assoc, ← pow_succ] at hrest

end Average

/-! ## the level -/

/-- A sample that leaves the average above `high` counts as one, or moves the level up. -/
theorem step_of_high {x : K} (h : p.high < smooth p.weight s.avg x) :
    p.step s x =
      if p.highCount ≤ s.highStreak + 1 ∧ s.level < p.top then
        ⟨s.level + 1, smooth p.weight s.avg x, 0, 0⟩
      else
        ⟨s.level, smooth p.weight s.avg x, s.highStreak + 1, 0⟩ := by
  have hlow : ¬ p.lowCount ≤ 0 := Nat.not_le.mpr p.lowCount_pos
  simp [step, streaks, h, hlow]

/-- A sample that leaves the average below `low` counts as one, or moves the level down. -/
theorem step_of_low {x : K} (h : smooth p.weight s.avg x < p.low) :
    p.step s x =
      if p.lowCount ≤ s.lowStreak + 1 ∧ 0 < s.level then
        ⟨s.level - 1, smooth p.weight s.avg x, 0, 0⟩
      else
        ⟨s.level, smooth p.weight s.avg x, 0, s.lowStreak + 1⟩ := by
  have hhigh : ¬ p.high < smooth p.weight s.avg x :=
    not_lt.mpr (h.le.trans p.low_le_high)
  have hcount : ¬ p.highCount ≤ 0 := Nat.not_le.mpr p.highCount_pos
  simp [step, streaks, h, hhigh, hcount]

/-- A sample that leaves the average between the thresholds ends the streaks. -/
theorem step_of_between {x : K} (hlow : p.low ≤ smooth p.weight s.avg x)
    (hhigh : smooth p.weight s.avg x ≤ p.high) :
    p.step s x = ⟨s.level, smooth p.weight s.avg x, 0, 0⟩ := by
  have hcount : ¬ p.highCount ≤ 0 := Nat.not_le.mpr p.highCount_pos
  have hcount' : ¬ p.lowCount ≤ 0 := Nat.not_le.mpr p.lowCount_pos
  simp [step, streaks, not_lt.mpr hlow, not_lt.mpr hhigh, hcount, hcount']

variable {p s}

/-- No sample takes the level past the last one. -/
theorem level_step_le (h : s.level ≤ p.top) (x : K) : (p.step s x).level ≤ p.top := by
  unfold step
  dsimp only
  split
  · next hup => exact hup.2
  · split
    · show s.level - 1 ≤ p.top
      omega
    · exact h

/-- No list of samples takes the level above the top. -/
theorem level_foldl_le (h : s.level ≤ p.top) (xs : List K) :
    (xs.foldl p.step s).level ≤ p.top := by
  induction xs generalizing s with
  | nil => exact h
  | cons x xs ih => exact ih (level_step_le h x)

/-- The samples still missing for `left` moves of `count` samples each, were each of
them to count on from the streak. -/
def missing (left count streak : Nat) : Nat := left * count - min streak (count - 1)

theorem missing_pos {left count streak : Nat} (hleft : 0 < left) (hcount : 0 < count) :
    0 < missing left count streak := by
  have hle := Nat.le_mul_of_pos_left count hleft
  unfold missing
  omega

/-- A sample that counts. -/
theorem missing_succ {left count streak : Nat} (hleft : 0 < left) (h : streak + 1 < count) :
    missing left count (streak + 1) < missing left count streak := by
  have hle := Nat.le_mul_of_pos_left count hleft
  unfold missing
  omega

/-- A sample that moves the level. -/
theorem missing_move {left count streak : Nat} (hcount : 0 < count) (h : count ≤ streak + 1) :
    missing left count 0 < missing (left + 1) count streak := by
  unfold missing
  rw [Nat.succ_mul]
  omega

variable [IsStrictOrderedRing K] {m : K}

/-- Once the average is above `high`, samples that keep it there take the level to the
last one. -/
theorem level_eq_top_of_high (hm : p.high < m) (havg : m ≤ s.avg) (hlevel : s.level ≤ p.top)
    {xs : List K} (hxs : ∀ x ∈ xs, m ≤ x) (hlen : p.top * p.highCount ≤ xs.length) :
    (xs.foldl p.step s).level = p.top := by
  have hkeep : ∀ (s : State K) (x : K), m ≤ s.avg → m ≤ x → m ≤ smooth p.weight s.avg x := by
    intro s x hs hx
    have h := le_smooth p.weight_nonneg p.weight_le_one le_rfl hx ((sub_zero m).trans_le hs)
    rwa [mul_zero, sub_zero] at h
  refine @foldl_reaches _ _ p.step (fun s => m ≤ s.avg ∧ s.level ≤ p.top)
    (fun s => s.level = p.top) (fun x => m ≤ x)
    (fun s => missing (p.top - s.level) p.highCount s.highStreak) ?_ ?_ ?_ ?_ xs hxs s
    ⟨havg, hlevel⟩ (.inr ?_)
  · intro s x hs hx
    exact ⟨by rw [avg_step]; exact hkeep s x hs.1 hx, level_step_le hs.2 x⟩
  · intro s x hs hx hgoal
    rw [step_of_high p s (hm.trans_le (hkeep s x hs.1 hx)), if_neg (by omega)]
    exact hgoal
  · intro s x hs hx hgoal
    have hlt : s.level < p.top := Nat.lt_of_le_of_ne hs.2 hgoal
    obtain ⟨left, hleft⟩ : ∃ left, p.top - s.level = left + 1 := ⟨p.top - s.level - 1, by omega⟩
    rw [step_of_high p s (hm.trans_le (hkeep s x hs.1 hx))]
    right
    split
    · next hmove =>
        rw [hleft, show p.top - (s.level + 1) = left by omega]
        exact missing_move p.highCount_pos hmove.1
    · next hcount => exact missing_succ (Nat.sub_pos_of_lt hlt) (by omega)
  · intro s hs hgoal
    exact missing_pos (Nat.sub_pos_of_lt (Nat.lt_of_le_of_ne hs.2 hgoal)) p.highCount_pos
  · calc missing (p.top - s.level) p.highCount s.highStreak
        ≤ (p.top - s.level) * p.highCount := Nat.sub_le _ _
      _ ≤ p.top * p.highCount := Nat.mul_le_mul_right _ (Nat.sub_le _ _)
      _ ≤ xs.length := hlen

/-- Once the average is below `low`, samples that keep it there take the level to 0. -/
theorem level_eq_zero_of_low (hm : m < p.low) (havg : s.avg ≤ m) (hlevel : s.level ≤ p.top)
    {xs : List K} (hxs : ∀ x ∈ xs, x ≤ m) (hlen : p.top * p.lowCount ≤ xs.length) :
    (xs.foldl p.step s).level = 0 := by
  have hkeep : ∀ (s : State K) (x : K), s.avg ≤ m → x ≤ m → smooth p.weight s.avg x ≤ m := by
    intro s x hs hx
    have h := smooth_le p.weight_nonneg p.weight_le_one le_rfl hx (hs.trans_eq (add_zero m).symm)
    rwa [mul_zero, add_zero] at h
  refine @foldl_reaches _ _ p.step (fun s => s.avg ≤ m) (fun s => s.level = 0) (fun x => x ≤ m)
    (fun s => missing s.level p.lowCount s.lowStreak) ?_ ?_ ?_ ?_ xs hxs s havg (.inr ?_)
  · intro s x hs hx
    rw [avg_step]
    exact hkeep s x hs hx
  · intro s x hs hx hgoal
    rw [step_of_low p s ((hkeep s x hs hx).trans_lt hm), if_neg (by omega)]
    exact hgoal
  · intro s x hs hx hgoal
    obtain ⟨left, hleft⟩ : ∃ left, s.level = left + 1 := ⟨s.level - 1, by omega⟩
    rw [step_of_low p s ((hkeep s x hs hx).trans_lt hm)]
    right
    split
    · next hmove =>
        rw [hleft]
        exact missing_move p.lowCount_pos hmove.1
    · next hcount => exact missing_succ (Nat.pos_of_ne_zero hgoal) (by omega)
  · intro s hs hgoal
    exact missing_pos (Nat.pos_of_ne_zero hgoal) p.lowCount_pos
  · calc missing s.level p.lowCount s.lowStreak
        ≤ s.level * p.lowCount := Nat.sub_le _ _
      _ ≤ p.top * p.lowCount := Nat.mul_le_mul_right _ hlevel
      _ ≤ xs.length := hlen

/-- **High samples**: `n` samples from `m` on for the past to fade, and then `highCount`
for each level, take the level to the last one. -/
theorem level_eq_top {n : Nat} (hm : p.high < m - p.weight ^ n * max 0 (m - s.avg))
    (hlevel : s.level ≤ p.top) {xs : List K} (hxs : ∀ x ∈ xs, m ≤ x)
    (hlen : n + p.top * p.highCount ≤ xs.length) : (xs.foldl p.step s).level = p.top := by
  have hpast : m - max 0 (m - s.avg) ≤ s.avg := sub_le_comm.mp (le_max_right 0 (m - s.avg))
  have havg := le_avg_foldl (p := p) (fun x hx => hxs x (List.mem_of_mem_take (i := n) hx))
    (le_max_left 0 _) hpast
  rw [List.length_take, min_eq_left (by omega)] at havg
  rw [← List.take_append_drop n xs, List.foldl_append]
  refine level_eq_top_of_high hm havg (level_foldl_le hlevel _) (fun x hx => ?_)
    (by rw [List.length_drop]; omega)
  have hfade := mul_nonneg (pow_nonneg p.weight_nonneg n) (le_max_left 0 (m - s.avg))
  exact (sub_le_self m hfade).trans (hxs x (List.mem_of_mem_drop hx))

/-- **Low samples**: `n` samples up to `m` for the past to fade, and then `lowCount` for
each level, take the level to 0. -/
theorem level_eq_zero {n : Nat} (hm : m + p.weight ^ n * max 0 (s.avg - m) < p.low)
    (hlevel : s.level ≤ p.top) {xs : List K} (hxs : ∀ x ∈ xs, x ≤ m)
    (hlen : n + p.top * p.lowCount ≤ xs.length) : (xs.foldl p.step s).level = 0 := by
  have hpast : s.avg ≤ m + max 0 (s.avg - m) := sub_le_iff_le_add'.mp (le_max_right 0 (s.avg - m))
  have havg := avg_foldl_le (p := p) (fun x hx => hxs x (List.mem_of_mem_take (i := n) hx))
    (le_max_left 0 _) hpast
  rw [List.length_take, min_eq_left (by omega)] at havg
  rw [← List.take_append_drop n xs, List.foldl_append]
  refine level_eq_zero_of_low hm havg (level_foldl_le hlevel _) (fun x hx => ?_)
    (by rw [List.length_drop]; omega)
  have hfade := mul_nonneg (pow_nonneg p.weight_nonneg n) (le_max_left 0 (s.avg - m))
  exact (hxs x (List.mem_of_mem_drop hx)).trans (le_add_of_nonneg_right hfade)

/-- While the average is between the thresholds, samples that keep it there leave the
level alone. -/
theorem level_foldl_of_between {l h : K} (hlow : p.low ≤ l) (hhigh : h ≤ p.high)
    (havg : l ≤ s.avg ∧ s.avg ≤ h) {xs : List K} (hxs : ∀ x ∈ xs, l ≤ x ∧ x ≤ h) :
    (xs.foldl p.step s).level = s.level := by
  induction xs generalizing s with
  | nil => rfl
  | cons x xs ih =>
      rw [List.forall_mem_cons] at hxs
      have hl := le_smooth p.weight_nonneg p.weight_le_one le_rfl hxs.1.1
        ((sub_zero l).trans_le havg.1)
      have hh := smooth_le p.weight_nonneg p.weight_le_one le_rfl hxs.1.2
        (havg.2.trans_eq (add_zero h).symm)
      rw [mul_zero, sub_zero] at hl
      rw [mul_zero, add_zero] at hh
      rw [List.foldl_cons, step_of_between p s (hlow.trans hl) (hh.trans hhigh)]
      exact ih ⟨hl, hh⟩ hxs.2

/-- **Samples in between**: when `n` of them have made the past fade, the level rests. -/
theorem level_foldl_append {l h : K} {xs ys : List K}
    (hlow : p.low ≤ l - p.weight ^ xs.length * max 0 (l - s.avg))
    (hhigh : h + p.weight ^ xs.length * max 0 (s.avg - h) ≤ p.high)
    (hxs : ∀ x ∈ xs ++ ys, l ≤ x ∧ x ≤ h) :
    ((xs ++ ys).foldl p.step s).level = (xs.foldl p.step s).level := by
  rw [List.forall_mem_append] at hxs
  have hl := le_avg_foldl (p := p) (fun x hx => (hxs.1 x hx).1) (le_max_left 0 _)
    (sub_le_comm.mp (le_max_right 0 (l - s.avg)))
  have hh := avg_foldl_le (p := p) (fun x hx => (hxs.1 x hx).2) (le_max_left 0 _)
    (sub_le_iff_le_add'.mp (le_max_right 0 (s.avg - h)))
  have hfade := pow_nonneg p.weight_nonneg xs.length
  rw [List.foldl_append]
  refine level_foldl_of_between hlow hhigh ⟨hl, hh⟩ fun x hx => ⟨?_, ?_⟩
  · exact (sub_le_self l (mul_nonneg hfade (le_max_left 0 _))).trans (hxs.2 x hx).1
  · exact (hxs.2 x hx).2.trans (le_add_of_nonneg_right (mul_nonneg hfade (le_max_left 0 _)))

end Hysteresis

end Lib
