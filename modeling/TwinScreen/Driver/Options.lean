import TwinScreen.Driver.Modes
import TwinScreen.Driver.Monitors

/-!
# TwinScreen.Driver.Options

`option.txt` of the driver (`driver/src/Driver.cpp`): `LoadOptions` and
`LoadConfiguration`.  A file is the text that its stream gives.

The EDID, which is the same for every file, is left out.

* `loadConfiguration_eq` — the configuration that a file gives, always.
* `configured_iff` — for which files every mode is one.
-/

namespace TwinScreen.Driver

open Lib

/-! ## `option.txt` -/

/-- `split`. -/
def split (input : List Char) (delimiter : Char) : List (List Char) := getlines delimiter input

/-- The characters of `find_first_not_of` in `LoadOptions`. -/
def leading : List Char := [' ', '\t', '\r', '\n']

/-- The three fields of a line, unless it is skipped. -/
def modeFields (line : List Char) : Option (List Char × List Char × List Char) :=
  match line.dropWhile (· ∈ leading) with
  | [] => none
  | '#' :: _ => none
  | line =>
      match split line ',' with
      | [width, height, rate] => some (width, height, rate)
      | _ => none

/-- `(float)std::atof(..)`. -/
def atofFloat (s : List Char) : Option ℚ := (atof s).bind toFloat

/-- The loop of `LoadOptions`. -/
def loadModes (u : FloatUnit) : List (List Char) → Option (List ModeTuple)
  | [] => some []
  | line :: lines =>
      match modeFields line with
      | none => loadModes u lines
      | some (width, height, rate) => do
          let (num, den) ← floatToVsync u (atofFloat rate)
          let modes ← loadModes u lines
          return ⟨atoi width, atoi height, num, den⟩ :: modes

/-- `LoadOptions`: `outModes` and `outDisplayCount` where it returns true. -/
def loadOptions (u : FloatUnit) (file : Option (List Char)) :
    Option (Option (List ModeTuple × UInt32)) :=
  match file.map (getlines '\n') with
  | none => some none
  | some [] => some none
  | some (first :: lines) => do
      let modes ← loadModes u lines
      return if modes = [] then none else some (modes, UInt32.ofInt (max 1 (atoi first)))

/-- `specs` of `GetFallbackModes`. -/
def fallbackSpecs : List (Nat × Nat × ℚ) :=
  [(1920, 1080, 60), (2560, 1440, 60), (3840, 2160, 60), (1920, 1200, 60), (2560, 1600, 60),
    (2732, 2048, 60), (1600, 2560, 60), (1280, 800, 60), (1920, 1080, 120), (2560, 1440, 120),
    (3840, 2160, 30)]

/-- `GetFallbackModes`. -/
def getFallbackModes (u : FloatUnit) : List (Nat × Nat × ℚ) → Option (List ModeTuple)
  | [] => some []
  | (width, height, refreshHz) :: specs => do
      let (num, den) ← floatToVsync u (some refreshHz)
      let modes ← getFallbackModes u specs
      return ⟨width, height, num, den⟩ :: modes

/-- The loop of `LoadConfiguration`. -/
def targetModes : List ModeTuple → Option (List VideoSignalInfo)
  | [] => some []
  | m :: ms => do
      let info ← m.info
      let infos ← targetModes ms
      return info :: infos

/-- `m_DisplayCount` and `s_KnownMonitorModes`. -/
structure Configuration where
  displayCount : UInt32
  knownMonitorModes : List VideoSignalInfo
  deriving DecidableEq, Repr

/-- The end of `LoadConfiguration`. -/
def configure (modes : List ModeTuple) (displayCount : UInt32) : Option Configuration := do
  let infos ← targetModes modes
  return ⟨displayCount, infos⟩

/-- `LoadConfiguration`; `none` is a division by zero. -/
def loadConfiguration (u : FloatUnit) (file : Option (List Char)) : Option Configuration := do
  match ← loadOptions u file with
  | some (modes, displayCount) => configure modes displayCount
  | none =>
      let modes ← getFallbackModes u fallbackSpecs
      configure modes (UInt32.ofNat kDefaultDisplayCount)

/-! ## the modes of a file -/

/-- The lines of a file behind the first, as fields. -/
def modeLines (file : Option (List Char)) : List (List Char × List Char × List Char) :=
  ((file.map (getlines '\n')).getD []).tail.filterMap modeFields

/-- The tuple of a line. -/
def lineTuple (u : FloatUnit) (fields : List Char × List Char × List Char) : ModeTuple :=
  modeTuple u (atoi fields.1) (atoi fields.2.1) (atofFloat fields.2.2)

theorem loadModes_eq (u : FloatUnit) (lines : List (List Char)) :
    loadModes u lines = some ((lines.filterMap modeFields).map (lineTuple u)) := by
  induction lines with
  | nil => rfl
  | cons line lines ih =>
      rw [loadModes, List.filterMap_cons]
      cases modeFields line with
      | none => exact ih
      | some fields =>
          obtain ⟨width, height, rate⟩ := fields
          simp only [floatToVsync_eq, ih]
          rfl

theorem getFallbackModes_eq (u : FloatUnit) (specs : List (Nat × Nat × ℚ)) :
    getFallbackModes u specs =
      some (specs.map fun s => modeTuple u s.1 s.2.1 (some s.2.2)) := by
  induction specs with
  | nil => rfl
  | cons s specs ih =>
      obtain ⟨width, height, refreshHz⟩ := s
      simp only [getFallbackModes, floatToVsync_eq, ih]
      rfl

/-- The tuples that `LoadConfiguration` turns into modes. -/
def configuredTuples (u : FloatUnit) (file : Option (List Char)) : List ModeTuple :=
  if modeLines file = [] then fallbackSpecs.map fun s => modeTuple u s.1 s.2.1 (some s.2.2)
  else (modeLines file).map (lineTuple u)

/-- The number in the first line of a file that has modes. -/
def countLine (file : Option (List Char)) : Option Int :=
  if modeLines file = [] then none
  else ((file.map (getlines '\n')).getD []).head?.map atoi

theorem uint32_ofInt_of_nonneg {v : Int} (h : 0 ≤ v) : UInt32.ofInt v = UInt32.ofNat v.toNat := by
  apply UInt32.toNat_inj.mp
  rw [UInt32.ofInt, UInt32.toNat_ofNat', UInt32.toNat_ofNat']
  omega

/-- **The configuration of a file** is its modes, or the built-in ones, with a display count
of 1 or more. -/
theorem loadConfiguration_eq (u : FloatUnit) (file : Option (List Char)) :
    loadConfiguration u file =
      configure (configuredTuples u file) (UInt32.ofNat (loadedCount (countLine file))) := by
  rw [loadConfiguration, loadOptions, configuredTuples, countLine, modeLines]
  cases file with
  | none => simp [getFallbackModes_eq, loadedCount]
  | some content =>
      rw [Option.map_some]
      cases hlines : getlines '\n' content with
      | nil => simp [getFallbackModes_eq, loadedCount]
      | cons first lines =>
          simp only [loadModes_eq, Option.getD_some, List.tail_cons]
          by_cases hnil : lines.filterMap modeFields = []
          · simp [hnil, getFallbackModes_eq, loadedCount]
          · have hcount := uint32_ofInt_of_nonneg (show 0 ≤ max 1 (atoi first) by omega)
            simp [hnil, loadedCount, hcount]

/-! ## which files give modes -/

/-- What the OS needs of a mode. -/
structure VideoSignalInfo.Positive (m : VideoSignalInfo) : Prop where
  width : 1 ≤ m.activeSize.1.toNat ∧ m.activeSize.1.toNat ≤ 2 ^ 31 - 1
  height : 1 ≤ m.activeSize.2.toNat ∧ m.activeSize.2.toNat ≤ 2 ^ 31 - 1
  numerator : m.vSyncFreq.numerator ≠ 0
  denominator : m.vSyncFreq.denominator ≠ 0

/-- `LoadConfiguration` ends, with a display or more and with modes that are all positive. -/
def Configured (u : FloatUnit) (file : Option (List Char)) : Prop :=
  ∃ c, loadConfiguration u file = some c ∧ 1 ≤ c.displayCount.toNat ∧
    c.knownMonitorModes ≠ [] ∧ ∀ m ∈ c.knownMonitorModes, m.Positive

/-- An `int` that is unsigned on the way is positive again when it was. -/
theorem positive_ofInt_iff {v : Int} (h : -2 ^ 31 ≤ v ∧ v < 2 ^ 31) :
    (1 ≤ (UInt32.ofInt v).toNat ∧ (UInt32.ofInt v).toNat ≤ 2 ^ 31 - 1) ↔ 1 ≤ v := by
  rw [UInt32.ofInt, UInt32.toNat_ofNat']
  omega

/-- The mode of a tuple with the numbers of `int`. -/
theorem info_spec (u : FloatUnit) {width height : Int} (hw : -2 ^ 31 ≤ width ∧ width < 2 ^ 31)
    (hh : -2 ^ 31 ≤ height ∧ height < 2 ^ 31) (refreshRate : Option ℚ) :
    ∃ m, (modeTuple u width height refreshRate).info = some m ∧
      (m.Positive ↔ 1 ≤ width ∧ 1 ≤ height ∧ ticks u refreshRate ≠ 0) := by
  have hdenBounds := vsyncRate_den_bounds u refreshRate
  have hnumLe := natAbs_vsyncRate_num_le u refreshRate
  have hnonzero {v : Int} (h : v.natAbs < 2 ^ 32) : UInt32.ofInt v ≠ 0 ↔ v ≠ 0 := by
    rw [not_iff_not, ← UInt32.toNat_inj, UInt32.ofInt, UInt32.toNat_ofNat']
    show _ = 0 ↔ _
    omega
  have hden : UInt32.ofInt ((vsyncRate u refreshRate).den : Int) ≠ 0 :=
    (hnonzero (by omega)).mpr (by omega)
  have hnum : UInt32.ofInt (vsyncRate u refreshRate).num ≠ 0 ↔ ticks u refreshRate ≠ 0 := by
    rw [hnonzero (by omega), not_iff_not, vsyncRate_num_eq_zero_iff]
  rw [modeTuple, ModeTuple.info, createTargetMode, if_neg hden]
  refine ⟨_, rfl, ?_⟩
  rw [← positive_ofInt_iff hw, ← positive_ofInt_iff hh, ← hnum]
  constructor
  · intro hm
    exact ⟨hm.width, hm.height, hm.numerator⟩
  · intro hm
    exact ⟨hm.1, hm.2.1, hm.2.2, hden⟩

theorem targetModes_spec {α : Type} {l : List α} {tuple : α → ModeTuple} {ok : α → Prop}
    (h : ∀ a ∈ l, ∃ m, (tuple a).info = some m ∧ (m.Positive ↔ ok a)) :
    ∃ ms, targetModes (l.map tuple) = some ms ∧ (ms = [] ↔ l = []) ∧
      ((∀ m ∈ ms, m.Positive) ↔ ∀ a ∈ l, ok a) := by
  induction l with
  | nil => exact ⟨[], rfl, by simp⟩
  | cons a l ih =>
      rw [List.forall_mem_cons] at h
      obtain ⟨m, hm, hok⟩ := h.1
      obtain ⟨ms, hms, -, hoks⟩ := ih h.2
      refine ⟨m :: ms, by simp [targetModes, hm, hms], by simp, ?_⟩
      rw [List.forall_mem_cons, List.forall_mem_cons, hok, hoks]

/-- A line that gives a mode: its sizes are positive, and its rate is not rounded to 0. -/
def GivesMode (u : FloatUnit) (fields : List Char × List Char × List Char) : Prop :=
  1 ≤ atoi fields.1 ∧ 1 ≤ atoi fields.2.1 ∧ ticks u (atofFloat fields.2.2) ≠ 0

/-- The rates of the built-in modes are exact in single precision. -/
theorem fallbackSpecs_exact : ∀ s ∈ fallbackSpecs, (1 ≤ s.1 ∧ s.1 < 2 ^ 31) ∧
    (1 ≤ s.2.1 ∧ s.2.1 < 2 ^ 31) ∧ toFloat (s.2.2 * 10000) = some (s.2.2 * 10000) ∧
      0 < roundAway (s.2.2 * 10000) ∧ roundAway (s.2.2 * 10000) < 2 ^ 31 := by
  decide +kernel

theorem fallback_ticks (beyond : Option ℚ → Int32) {s : Nat × Nat × ℚ} (hs : s ∈ fallbackSpecs) :
    ticks (binary32 beyond) (some s.2.2) ≠ 0 := by
  obtain ⟨-, -, hfloat, hpos, hlt⟩ := fallbackSpecs_exact s hs
  have hticks : ticks (binary32 beyond) (some s.2.2) = roundAway (s.2.2 * 10000) := by
    simp only [ticks, binary32, Option.bind_some, hfloat]
    exact if_pos ⟨by omega, hlt⟩
  omega

/-- The built-in modes are positive. -/
theorem fallback_positive (beyond : Option ℚ → Int32) {s : Nat × Nat × ℚ}
    (hs : s ∈ fallbackSpecs) :
    ∃ m, (modeTuple (binary32 beyond) s.1 s.2.1 (some s.2.2)).info = some m ∧ m.Positive := by
  obtain ⟨hw, hh, -⟩ := fallbackSpecs_exact s hs
  obtain ⟨m, hm, hok⟩ := @info_spec (binary32 beyond) s.1 s.2.1 (by omega) (by omega)
    (some s.2.2)
  exact ⟨m, hm, hok.mpr ⟨by omega, by omega, fallback_ticks beyond hs⟩⟩

theorem lineTuple_spec (u : FloatUnit) (fields : List Char × List Char × List Char) :
    ∃ m, (lineTuple u fields).info = some m ∧ (m.Positive ↔ GivesMode u fields) :=
  info_spec u (atoi_bounds fields.1) (atoi_bounds fields.2.1) (atofFloat fields.2.2)

/-- The modes of a file are those of its lines, or the built-in ones. -/
theorem configuredTuples_spec (beyond : Option ℚ → Int32) (file : Option (List Char)) :
    ∃ ms, targetModes (configuredTuples (binary32 beyond) file) = some ms ∧ ms ≠ [] ∧
      ((∀ m ∈ ms, m.Positive) ↔
        ∀ fields ∈ modeLines file, GivesMode (binary32 beyond) fields) := by
  rw [configuredTuples]
  split
  · next hnil =>
      have hinfo : ∀ s ∈ fallbackSpecs, ∃ m,
          (modeTuple (binary32 beyond) s.1 s.2.1 (some s.2.2)).info = some m ∧
            (m.Positive ↔ True) := by
        intro s hs
        obtain ⟨m, hm, hpos⟩ := fallback_positive beyond hs
        exact ⟨m, hm, iff_true_intro hpos⟩
      obtain ⟨ms, hms, hempty, hok⟩ := targetModes_spec hinfo
      refine ⟨ms, hms, by simp [hempty, fallbackSpecs], ?_⟩
      simp [hok, hnil]
  · next hcons =>
      obtain ⟨ms, hms, hempty, hok⟩ := targetModes_spec
        (fun fields _ => lineTuple_spec (binary32 beyond) fields)
      exact ⟨ms, hms, by simp [hempty, hcons], hok⟩

/-- There is a display or more, whatever the first line says. -/
theorem displayCount_pos (file : Option (List Char)) :
    1 ≤ (UInt32.ofNat (loadedCount (countLine file))).toNat := by
  have hcount : 1 ≤ loadedCount (countLine file) ∧ loadedCount (countLine file) < 2 ^ 31 := by
    rw [countLine]
    split
    · decide
    · cases ((file.map (getlines '\n')).getD []).head? with
      | none => decide
      | some first =>
          have hbounds := atoi_bounds first
          rw [Option.map_some, loadedCount]
          omega
  rw [UInt32.toNat_ofNat']
  omega

/-- **For which files every mode is one**: those in which every line with three fields is. -/
theorem configured_iff (beyond : Option ℚ → Int32) (file : Option (List Char)) :
    Configured (binary32 beyond) file ↔
      ∀ fields ∈ modeLines file, GivesMode (binary32 beyond) fields := by
  obtain ⟨ms, hms, hne, hok⟩ := configuredTuples_spec beyond file
  rw [← hok, Configured, loadConfiguration_eq, configure, hms]
  constructor
  · rintro ⟨c, hc, -, -, hpos⟩
    cases hc
    exact hpos
  · intro hpos
    exact ⟨_, rfl, displayCount_pos file, hne, hpos⟩

/-- A width of 0 in a line is the width of a mode. -/
theorem zero_width_configured :
    (loadConfiguration (binary32 fun _ => 0) (some "1\n0,1080,60".toList)).map
        (fun c => c.knownMonitorModes.map VideoSignalInfo.activeSize) = some [(0, 1080)] ∧
      ¬ Configured (binary32 fun _ => 0) (some "1\n0,1080,60".toList) := by
  have hmodes : (loadConfiguration (binary32 fun _ => 0) (some "1\n0,1080,60".toList)).map
      (fun c => c.knownMonitorModes.map VideoSignalInfo.activeSize) = some [(0, 1080)] := by
    decide +kernel
  refine ⟨hmodes, ?_⟩
  rintro ⟨c, hc, -, -, hpos⟩
  rw [hc, Option.map_some, Option.some_inj, List.map_eq_singleton_iff] at hmodes
  obtain ⟨m, hm, hsize⟩ := hmodes
  have hwidth := (hpos m (by simp [hm])).width.1
  rw [hsize] at hwidth
  exact absurd hwidth (by decide)

end TwinScreen.Driver
