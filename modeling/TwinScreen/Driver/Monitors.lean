import Mathlib.Data.List.Nodup
import TwinScreen.Lib.Machine

/-!
# TwinScreen.Driver.Monitors

The adapter and the monitors of the virtual display driver (`driver/src/Driver.cpp`):
`DeviceD0Entry` reads the configuration and starts the adapter, and
`AdapterInitFinished` creates the monitors.  What IddCx answers is an input.

Neither callback looks at what an earlier power-up left behind, and no monitor ever
departs: `monitors_lawful_iff` says for which sequences of callbacks the monitors stay
within the display count all the same.
-/

namespace TwinScreen.Driver

open Lib

def kDefaultDisplayCount : Nat := 1

/-- `m_DisplayCount` as `LoadConfiguration` leaves it, from the number in the first line
of `option.txt` where `LoadOptions` succeeds. -/
def loadedCount : Option Int → Nat
  | none => kDefaultDisplayCount
  | some n => (max 1 n).toNat

/-- An `IDDCX_MONITOR`: the object, and the connector it was created with. -/
structure Monitor where
  handle : Nat
  connectorIndex : Nat
  deriving DecidableEq, Repr

/-- `IndirectDeviceContext`, with what IddCx keeps about it. -/
structure Device where
  displayCount : Nat := kDefaultDisplayCount
  /-- `m_Monitors`. -/
  monitors : List Monitor := []
  /-- The monitors whose arrival was reported. -/
  arrived : List Monitor := []
  /-- An adapter was started and has not reported yet. -/
  initPending : Bool := false
  /-- The number of monitor objects made so far. -/
  handles : Nat := 0
  deriving DecidableEq, Repr

/-- What IddCx answers to `CreateMonitor`. -/
inductive MonitorOutcome
  /-- `IddCxMonitorCreate` fails. -/
  | createFails
  /-- `IddCxMonitorArrival` fails. -/
  | arrivalFails
  | arrives
  deriving DecidableEq, Repr

namespace Device

/-- `CreateMonitor`. -/
def createMonitor (d : Device) (index : Nat) : MonitorOutcome → Device
  | .createFails => d
  | .arrivalFails =>
      let monitor : Monitor := ⟨d.handles, index⟩
      { d with monitors := d.monitors ++ [monitor], handles := d.handles + 1 }
  | .arrives =>
      let monitor : Monitor := ⟨d.handles, index⟩
      { d with
        monitors := d.monitors ++ [monitor], arrived := d.arrived ++ [monitor],
        handles := d.handles + 1 }

/-- `CreateMonitor` for each of these indices. -/
def createMonitors (d : Device) (outcomes : Nat → MonitorOutcome) (indices : List Nat) : Device :=
  indices.foldl (fun d i => d.createMonitor i (outcomes i)) d

/-- `FinishInit`. -/
def finishInit (d : Device) (outcomes : Nat → MonitorOutcome) : Device :=
  d.createMonitors outcomes (List.range d.displayCount)

/-- `InitAdapter`; `ok` is the result of `IddCxAdapterInitAsync`. -/
def initAdapter (d : Device) (options : Option Int) (ok : Bool) : Device :=
  { d with displayCount := loadedCount options, initPending := d.initPending || ok }

end Device

/-- A callback from the OS. -/
inductive PowerEvent
  | d0Entry (options : Option Int) (ok : Bool)
  | adapterInitFinished (status : Bool) (outcomes : Nat → MonitorOutcome)

/-- A callback; one `AdapterInitFinished` at most answers an adapter's start.  The device
it leaves is also the output. -/
def power : Machine Device PowerEvent Device where
  step d e :=
    match e with
    | .d0Entry options ok => some (d.initAdapter options ok, [d.initAdapter options ok])
    | .adapterInitFinished status outcomes =>
        if d.initPending then
          let d' := { d with initPending := false }
          let d' := if status then d'.finishInit outcomes else d'
          some (d', [d'])
        else none

/-! ## monitors in order -/

/-- At most `m_DisplayCount` monitors have arrived, on connectors of their own, and
`m_Monitors` holds each of them once. -/
structure Lawful (d : Device) : Prop where
  few : d.arrived.length ≤ d.displayCount
  distinct : (d.arrived.map Monitor.connectorIndex).Nodup
  held : ∀ m ∈ d.arrived, d.monitors.count m = 1

/-- Monitor objects are new when they are made. -/
structure Fresh (d : Device) : Prop where
  nodup : d.monitors.Nodup
  made : ∀ m ∈ d.monitors, m.handle < d.handles
  kept : ∀ m ∈ d.arrived, m ∈ d.monitors

/-- The connector indices that arrive. -/
def arriving (d : Device) (outcomes : Nat → MonitorOutcome) : List Nat :=
  (List.range d.displayCount).filter (outcomes · = .arrives)

/-- The display count read is not below the number of monitors that are there; a
successful start brings no connector that is there, and not too many. -/
def Admissible (d : Device) : PowerEvent → Prop
  | .d0Entry options _ => d.arrived.length ≤ loadedCount options
  | .adapterInitFinished status outcomes =>
      status = true →
        d.arrived.length + (arriving d outcomes).length ≤ d.displayCount ∧
          ∀ m ∈ d.arrived, m.connectorIndex ∉ arriving d outcomes

theorem fresh_start : Fresh {} where
  nodup := List.nodup_nil
  made _ h := nomatch h
  kept _ h := nomatch h

/-- A new object is none of those that are there. -/
theorem Fresh.push {d : Device} (h : Fresh d) (index : Nat) :
    (d.monitors ++ [Monitor.mk d.handles index]).Nodup ∧
      ∀ m ∈ d.monitors ++ [Monitor.mk d.handles index], m.handle < d.handles + 1 := by
  have hnodup := h.nodup
  have hmade := h.made
  have hnew : (⟨d.handles, index⟩ : Monitor) ∉ d.monitors :=
    fun hmem => absurd (h.made _ hmem) (Nat.lt_irrefl _)
  constructor
  · grind
  · grind

theorem Fresh.createMonitor {d : Device} (h : Fresh d) (index : Nat) (o : MonitorOutcome) :
    Fresh (d.createMonitor index o) := by
  obtain ⟨hnodup, hmade⟩ := h.push index
  cases o with
  | createFails => exact h
  | arrivalFails => exact ⟨hnodup, hmade, fun m hm => List.mem_append_left _ (h.kept m hm)⟩
  | arrives =>
      constructor
      · exact hnodup
      · exact hmade
      · intro m hm
        rcases List.mem_append.mp hm with hm | hm
        · exact List.mem_append_left _ (h.kept m hm)
        · exact List.mem_append_right _ hm

theorem Fresh.createMonitors {d : Device} (h : Fresh d) (outcomes : Nat → MonitorOutcome)
    (indices : List Nat) : Fresh (d.createMonitors outcomes indices) := by
  induction indices generalizing d with
  | nil => exact h
  | cons i indices ih => exact ih (h.createMonitor i (outcomes i))

/-- Objects that are new are held once. -/
theorem Fresh.held {d : Device} (h : Fresh d) : ∀ m ∈ d.arrived, d.monitors.count m = 1 :=
  fun m hm => List.count_eq_one_of_mem h.nodup (h.kept m hm)

theorem Fresh.initAdapter {d : Device} (h : Fresh d) (options : Option Int) (ok : Bool) :
    Fresh (d.initAdapter options ok) := ⟨h.nodup, h.made, h.kept⟩

/-! ## which monitors arrive -/

/-- The connectors that arrive are added to those that are there. -/
theorem createMonitors_spec (d : Device) (outcomes : Nat → MonitorOutcome) (indices : List Nat) :
    (d.createMonitors outcomes indices).displayCount = d.displayCount ∧
      (d.createMonitors outcomes indices).arrived.map Monitor.connectorIndex =
        d.arrived.map Monitor.connectorIndex ++ indices.filter (outcomes · = .arrives) := by
  induction indices generalizing d with
  | nil => simp [Device.createMonitors]
  | cons i indices ih =>
      obtain ⟨hcount, harrived⟩ := ih (d.createMonitor i (outcomes i))
      rw [Device.createMonitors, List.foldl_cons, ← Device.createMonitors, hcount, harrived]
      cases ho : outcomes i <;> simp [Device.createMonitor, ho]

theorem finishInit_lawful_iff {d : Device} (h : Fresh d) (hd : Lawful d)
    (outcomes : Nat → MonitorOutcome) :
    Lawful (d.finishInit outcomes) ↔
      d.arrived.length + (arriving d outcomes).length ≤ d.displayCount ∧
        ∀ m ∈ d.arrived, m.connectorIndex ∉ arriving d outcomes := by
  obtain ⟨hcount, harrived⟩ := createMonitors_spec d outcomes (List.range d.displayCount)
  have hlength := congrArg List.length harrived
  rw [List.length_map, List.length_append, List.length_map] at hlength
  have hnew : (arriving d outcomes).Nodup := List.nodup_range.filter _
  constructor
  · intro hlaw
    have hfew := hlaw.few
    have hdistinct := hlaw.distinct
    rw [Device.finishInit, hcount, hlength] at hfew
    rw [Device.finishInit, harrived, List.nodup_append] at hdistinct
    exact ⟨hfew, fun m hm harrives =>
      hdistinct.2.2 _ (List.mem_map_of_mem hm) _ harrives rfl⟩
  · intro hroom
    constructor
    · rw [Device.finishInit, hcount, hlength]
      exact hroom.1
    · rw [Device.finishInit, harrived, List.nodup_append]
      refine ⟨hd.distinct, hnew, ?_⟩
      intro i hi j hj hij
      obtain ⟨m, hm, rfl⟩ := List.mem_map.mp hi
      exact hroom.2 m hm (hij ▸ hj)
    · exact (h.createMonitors outcomes _).held

/-! ## over a run -/

/-- A step keeps the objects new, and from lawful monitors it leads to lawful ones
exactly when it is admissible. -/
theorem power_step {d d' : Device} {e : PowerEvent} {os : List Device} (h : Fresh d)
    (hd : Lawful d) (hstep : power.step d e = some (d', os)) :
    Fresh d' ∧ os = [d'] ∧ (Lawful d' ↔ Admissible d e) := by
  cases e with
  | d0Entry options ok =>
      cases hstep
      refine ⟨h.initAdapter options ok, rfl, ?_⟩
      constructor
      · intro hlaw
        exact hlaw.few
      · intro hfew
        exact ⟨hfew, hd.distinct, hd.held⟩
  | adapterInitFinished status outcomes =>
      simp only [power, Option.ite_none_right_eq_some] at hstep
      cases hstep.2
      have hidle : Fresh { d with initPending := false } := ⟨h.nodup, h.made, h.kept⟩
      have hidleLaw : Lawful { d with initPending := false } := ⟨hd.few, hd.distinct, hd.held⟩
      cases status with
      | false => exact ⟨hidle, rfl, by simp [Admissible, hidleLaw]⟩
      | true =>
          refine ⟨hidle.createMonitors outcomes _, rfl, ?_⟩
          simp only [if_true, finishInit_lawful_iff hidle hidleLaw outcomes, Admissible, true_imp_iff]
          rfl

theorem lawful_start : Lawful {} where
  few := Nat.zero_le _
  distinct := List.nodup_nil
  held _ h := nomatch h

/-- **Monitors**: they stay lawful exactly in the runs whose callbacks are admissible. -/
theorem monitors_lawful_iff {events : List PowerEvent} {d : Device} {devices : List Device}
    (hrun : power.run {} events = some (d, devices)) :
    (∀ d' ∈ devices, Lawful d') ↔ power.Along Admissible {} events := by
  have hlaw (s : Device) (i : PowerEvent) (s' : Device) (o : List Device)
      (hs : Fresh s ∧ Lawful s) (hstep : power.step s i = some (s', o)) :
      (∀ x ∈ o, Lawful x) ↔ Admissible s i := by
    obtain ⟨-, rfl, hiff⟩ := power_step hs.1 hs.2 hstep
    simpa using hiff
  have hinv (s : Device) (i : PowerEvent) (s' : Device) (o : List Device)
      (hs : Fresh s ∧ Lawful s) (hok : Admissible s i) (hstep : power.step s i = some (s', o)) :
      Fresh s' ∧ Lawful s' := by
    obtain ⟨hfresh, -, hiff⟩ := power_step hs.1 hs.2 hstep
    exact ⟨hfresh, hiff.mpr hok⟩
  exact power.forall_outputs_iff_along hlaw hinv ⟨fresh_start, lawful_start⟩ hrun

/-- A power-up with this display count, in which every monitor arrives. -/
def powerUp (displays : Int) : List PowerEvent :=
  [.d0Entry (some displays) true, .adapterInitFinished true fun _ => .arrives]

theorem monitors_lawful_iff_powerUp :
    ∃ d devices, power.run {} (powerUp 2) = some (d, devices) ∧ ∀ d' ∈ devices, Lawful d' := by
  have halong : power.Along Admissible {} (powerUp 2) := by
    refine ⟨Nat.zero_le _, fun d o hstep => ?_⟩
    cases hstep
    exact ⟨fun _ => by decide, fun _ _ _ => trivial⟩
  exact ⟨_, _, rfl, (monitors_lawful_iff rfl).mpr halong⟩

/-- The second power-up creates the monitor again, on the same connector. -/
theorem second_powerUp :
    ∃ d devices, power.run {} (powerUp 1 ++ powerUp 1) = some (d, devices) ∧
      d.arrived = [⟨0, 0⟩, ⟨1, 0⟩] ∧ d.displayCount = 1 ∧ ¬ ∀ d' ∈ devices, Lawful d' := by
  refine ⟨_, _, rfl, rfl, rfl, fun h => ?_⟩
  exact absurd (h _ (List.mem_of_getLast? rfl)).few (by decide)

end TwinScreen.Driver
