import TwinScreen.Host.Keyframe
import TwinScreen.Host.Resize
import TwinScreen.Lib.Trace

/-!
# TwinScreen.Host.AmfOutput

The access units that the AMF component gives out between a `Start` and a `Stop`, and
the frames that `Encode` hands on.

* `units_delivered_iff` — in which runs every unit becomes a frame.
-/

namespace TwinScreen.Host.Amf

open Lib Lib.Attempt

/-! ## calls between a Start and a Stop -/

/-- The calls on a started encoder that do not end its session. -/
inductive SessionCall
  | encode (frame : Frame) (env : EncodeEnv)
  | setBitrate (bitrate : UInt32) (target peak : Bool)
  | requestKeyframe

/-- A call, which gives up when it has no frame to hand out. -/
def SessionCall.exec : SessionCall → Attempt AmfEncoder AmfCall EncodedFrame
  | .encode frame env => Amf.encode frame env
  | .setBitrate bitrate target peak => do
      ignore (Amf.setBitrate bitrate target peak)
      outcome none
  | .requestKeyframe => do
      update fun s => { s with keyframeRequested := true }
      outcome none

/-- The bytes of a buffer that has any. -/
def unitOf : QueryResult → Option (List UInt8)
  | .buffer bytes => if bytes = [] then none else some bytes
  | _ => none

/-- The unit that a call brings in. -/
def unitOfCall : AmfCall → Option (List UInt8)
  | .queryOutput _ result => unitOf result
  | _ => none

/-- What comes of a call: the frame it hands out, and the units it was given. -/
structure SessionReturn where
  delivered : Option EncodedFrame
  units : List (List UInt8)
  deriving DecidableEq

def SessionCall.returns (s : AmfEncoder) (c : SessionCall) : SessionReturn :=
  ⟨(c.exec s).1, (c.exec s).2.2.filterMap unitOfCall⟩

/-- A started encoder. -/
def session : Machine AmfEncoder SessionCall SessionReturn :=
  .reporting (fun s c => (c.exec s).2.1) SessionCall.returns

/-- The frames handed out are those of the units given out, in their order. -/
def UnitsDelivered (tr : List SessionReturn) : Prop :=
  tr.flatMap (·.delivered.toList) = (tr.flatMap (·.units)).map frameOf

/-! ## when a unit is lost -/

/-- From try `n` on, no unit is given out while the input queue is full. -/
def EncodeEnv.QuietFrom (env : EncodeEnv) (n : Nat) : Prop :=
  ∀ k, n ≤ k → k < kTries → (∀ m, n ≤ m → m ≤ k → env.submit m = .inputFull) →
    unitOf (env.whileFull k) = none

/-- An `Encode` that comes to its submission meets no unit before the picture is taken,
and the unit it is given then has a NAL. -/
def UnitsTaken (s : AmfEncoder) : SessionCall → Prop
  | .encode _ env => Submits s env → env.QuietFrom 0 ∧
      (env.AcceptsFrom 0 → ∀ bytes, unitOf env.output = some bytes → (frameOf bytes).nals ≠ [])
  | _ => True

theorem EncodeEnv.quietFrom_iff (env : EncodeEnv) {n : Nat} (hn : n < kTries) :
    env.QuietFrom n ↔
      (env.submit n = .inputFull → unitOf (env.whileFull n) = none ∧ env.QuietFrom (n + 1)) := by
  constructor
  · intro hquiet hfull
    constructor
    · exact hquiet n (Nat.le_refl n) hn (by grind)
    · intro k hnk hk hbefore
      exact hquiet k (by omega) hk (by grind)
  · intro hstep k hnk hk hbefore
    obtain ⟨hfirst, hrest⟩ := hstep (hbefore n (Nat.le_refl n) hnk)
    rcases Nat.eq_or_lt_of_le hnk with rfl | hlt
    · exact hfirst
    · exact hrest k hlt hk (by grind)

/-! ## what a call takes in -/

/-- An observer of the units. -/
def collect (units : List (List UInt8)) (k : AmfCall) : List (List UInt8) :=
  units ++ (unitOfCall k).toList

theorem foldl_collect (ks : List AmfCall) (units : List (List UInt8)) :
    ks.foldl collect units = units ++ ks.filterMap unitOfCall := by
  induction ks generalizing units with
  | nil => simp
  | cons k ks ih =>
      rw [List.foldl_cons, ih, collect, List.append_assoc, List.filterMap_cons]
      cases unitOfCall k <;> rfl

/-- The frame that `ReadOutput` makes of a result. -/
def delivers (result : QueryResult) : Option EncodedFrame :=
  (unitOf result).bind fun bytes =>
    if (frameOf bytes).nals = [] then none else some (frameOf bytes)

section

variable {s : AmfEncoder}

theorem seen_readOutput (result : QueryResult) (g : List (List UInt8)) :
    Seen collect (readOutput result)
      (fun out _ g' => g' = g ++ (unitOf result).toList ∧ delivers result = some out)
      (fun _ g' => g' = g ++ (unitOf result).toList ∧ delivers result = none) s g := by
  cases result with
  | buffer bytes =>
      by_cases hempty : bytes = []
      · simp [readOutput, collect, unitOfCall, unitOf, delivers, hempty]
      · by_cases hnals : (frameOf bytes).nals = []
        · simp [readOutput, collect, unitOfCall, unitOf, delivers, hempty, hnals]
        · simp [readOutput, collect, unitOfCall, unitOf, delivers, hempty, hnals]
  | _ => simp [readOutput, collect, unitOfCall, unitOf, delivers]

/-- The submission loop with `tries` left: the units it drops. -/
theorem collects_submitFrom (surface : Option Handle) (env : EncodeEnv) {tries : Nat}
    (htries : tries ≤ kTries) (g : List (List UInt8)) :
    Seen collect (submitFrom surface env tries)
      (fun result _ g' => (result = .ok ↔ env.AcceptsFrom (kTries - tries)) ∧
        ∃ lost, g' = g ++ lost ∧ (lost = [] ↔ env.QuietFrom (kTries - tries)))
      (fun _ _ => False) s g := by
  induction tries generalizing g s with
  | zero =>
      have hnot : ¬ env.AcceptsFrom kTries := fun ⟨k, hle, hlt, _⟩ => by omega
      have hquiet : env.QuietFrom kTries := fun k hle hlt => by omega
      simp [submitFrom, hnot, hquiet]
  | succ tries ih =>
      have hlt : kTries - (tries + 1) < kTries := by omega
      have haccepts := env.acceptsFrom_iff hlt
      have hquiet := env.quietFrom_iff hlt
      rw [show kTries - (tries + 1) + 1 = kTries - tries by omega] at haccepts hquiet
      rw [submitFrom, seen_bind, seen_issue, haccepts, hquiet]
      generalize kTries - (tries + 1) = n at *
      split
      case isTrue hfull =>
        simp only [hfull, reduceCtorEq, false_or, true_and, forall_const, seen_bind, seen_ignore]
        have hagain (s₁ : AmfEncoder) : Seen collect (submitFrom surface env tries)
            (fun result _ g' => (result = .ok ↔ env.AcceptsFrom (kTries - tries)) ∧
              ∃ lost, g' = g ++ lost ∧ (lost = [] ↔
                unitOf (env.whileFull n) = none ∧ env.QuietFrom (kTries - tries)))
            (fun _ _ => False) s₁ (g ++ (unitOf (env.whileFull n)).toList) := by
          apply (ih (by omega) _).mono
          · rintro result s' g' ⟨hresult, lost, rfl, hlost⟩
            refine ⟨hresult, (unitOf (env.whileFull n)).toList ++ lost, by simp, ?_⟩
            rw [List.append_eq_nil_iff, hlost, Option.toList_eq_nil_iff]
          · exact fun _ _ h => h
        have hfirst : collect g (.submitInput surface .inputFull) = g := by
          simp [collect, unitOfCall]
        rw [hfirst]
        apply (seen_readOutput (env.whileFull n) g).mono
        · rintro _ s₁ _ ⟨rfl, -⟩
          exact hagain s₁
        · rintro s₁ _ ⟨rfl, -⟩
          exact hagain s₁
      case isFalse hnot =>
        cases hresult : env.submit n <;> simp_all [collect, unitOfCall]

/-- What an `Encode` hands out and takes in. -/
def Accounted (s : AmfEncoder) (env : EncodeEnv) (delivered : Option EncodedFrame)
    (units : List (List UInt8)) : Prop :=
  (¬ Submits s env ∧ delivered = none ∧ units = []) ∨
    Submits s env ∧ ∃ lost, (lost = [] ↔ env.QuietFrom 0) ∧
      ((¬ env.AcceptsFrom 0 ∧ delivered = none ∧ units = lost) ∨
        env.AcceptsFrom 0 ∧ delivered = delivers env.output ∧
          units = lost ++ (unitOf env.output).toList)

theorem uncollected_copyCalls : copyCalls.Meet fun c => ∀ g, collect g c = g := by
  constructor <;> simp [copyCalls, collect, unitOfCall]

theorem collects_encode (frame : Frame) (env : EncodeEnv) :
    Seen collect (Amf.encode frame env) (fun out _ => Accounted s env (some out))
      (fun _ => Accounted s env none) s [] := by
  simp only [Amf.encode, seen_bind, seen_state, seen_check]
  split
  case isTrue hencoder =>
    rw [copyFrameToNv12, seen_bind]
    have hkeep : copyCalls.Keep AmfEncoder.encoder := keep_copyCalls fun _ _ _ _ => rfl
    apply (CopyCalls.seen_copyFrameToNv12 uncollected_copyCalls hkeep s frame env.copy []).mono
    · rintro _ s₁ _ ⟨⟨⟨hstaging, hmap⟩, -⟩, rfl⟩
      have hsubmits : Submits s env := ⟨hencoder, hstaging, hmap⟩
      rw [seen_bind, seen_state, seen_issue]
      have hrequest : Seen collect (whenever s.keyframeRequested do
          setProperty .forceIdr env.forceIdr
          update fun s => { s with keyframeRequested := false })
          (fun _ _ g' => g' = []) (fun _ _ => False) s₁ [] := by
        simp [setProperty, collect, unitOfCall]
      apply seen_bind_of_total hrequest
      rintro _ s₂ _ rfl
      rw [seen_bind, seen_update]
      apply seen_bind_of_total (collects_submitFrom _ env (Nat.le_refl kTries) _)
      rintro result s₃ lost ⟨hresult, _, rfl, hlost⟩
      rw [Nat.sub_self] at hresult hlost
      rw [seen_bind, seen_check]
      split
      case isTrue hok =>
        have haccepts := hresult.mp (by simpa using hok)
        apply (seen_readOutput env.output _).mono
        · rintro out _ _ ⟨rfl, hout⟩
          exact .inr ⟨hsubmits, lost, hlost, .inr ⟨haccepts, hout.symm, rfl⟩⟩
        · rintro _ _ ⟨rfl, hout⟩
          exact .inr ⟨hsubmits, lost, hlost, .inr ⟨haccepts, hout.symm, rfl⟩⟩
      case isFalse hok =>
        have hrefused : ¬ env.AcceptsFrom 0 := fun h => hok (by simp [hresult.mpr h])
        exact .inr ⟨hsubmits, lost, hlost, .inl ⟨hrefused, rfl, rfl⟩⟩
    · rintro s₁ _ ⟨⟨hfails, -⟩, rfl⟩
      exact .inl ⟨fun h => hfails ⟨h.staging, h.map⟩, rfl, rfl⟩
  case isFalse hencoder => exact .inl ⟨fun h => hencoder h.encoder, rfl, rfl⟩

/-! ## one call -/

/-- Frames are handed out in the order of their units. -/
theorem delivers_sublist (result : QueryResult) :
    (delivers result).toList.Sublist ((unitOf result).toList.map frameOf) := by
  unfold delivers
  cases unitOf result with
  | none => simp
  | some bytes =>
      by_cases hnals : (frameOf bytes).nals = [] <;> simp [hnals]

theorem delivers_eq_iff (result : QueryResult) :
    (delivers result).toList = (unitOf result).toList.map frameOf ↔
      ∀ bytes, unitOf result = some bytes → (frameOf bytes).nals ≠ [] := by
  unfold delivers
  cases unitOf result with
  | none => simp
  | some bytes =>
      by_cases hnals : (frameOf bytes).nals = [] <;> simp [hnals]

theorem sublist_of_accounted {env : EncodeEnv} {delivered : Option EncodedFrame}
    {units : List (List UInt8)} (h : Accounted s env delivered units) :
    delivered.toList.Sublist (units.map frameOf) := by
  rcases h with ⟨-, rfl, rfl⟩ | ⟨-, lost, -, ⟨-, rfl, rfl⟩ | ⟨-, rfl, rfl⟩⟩
  · simp
  · simp
  · rw [List.map_append]
    exact (delivers_sublist env.output).trans (List.sublist_append_right _ _)

theorem eq_iff_of_accounted {env : EncodeEnv} {delivered : Option EncodedFrame}
    {units : List (List UInt8)} (h : Accounted s env delivered units) :
    delivered.toList = units.map frameOf ↔
      (Submits s env → env.QuietFrom 0 ∧ (env.AcceptsFrom 0 →
        ∀ bytes, unitOf env.output = some bytes → (frameOf bytes).nals ≠ [])) := by
  rcases h with ⟨hnot, rfl, rfl⟩ | ⟨hsubmits, lost, hquiet, h⟩
  · simp [hnot]
  rw [← hquiet]
  rcases h with ⟨hrefused, rfl, rfl⟩ | ⟨haccepts, rfl, rfl⟩
  · simp [hsubmits, hrefused]
  · rw [List.map_append, ← delivers_eq_iff]
    constructor
    · intro heq _
      have hle := (delivers_sublist env.output).length_le
      have hlength := congrArg List.length heq
      rw [List.length_append] at hlength
      have hlost : lost = [] := by
        rw [← List.length_eq_zero_iff, ← List.length_map (f := frameOf)]
        omega
      rw [hlost] at heq
      exact ⟨hlost, fun _ => heq⟩
    · intro htaken
      obtain ⟨rfl, hframes⟩ := htaken hsubmits
      exact hframes haccepts

/-- What a call returns. -/
theorem accounted_encode (s : AmfEncoder) (frame : Frame) (env : EncodeEnv) :
    Accounted s env ((SessionCall.encode frame env).returns s).delivered
      ((SessionCall.encode frame env).returns s).units := by
  have hseen := @collects_encode s frame env
  simp only [Seen, foldl_collect, List.nil_append] at hseen
  simp only [SessionCall.returns, SessionCall.exec]
  split at hseen
  · next hnone => rwa [hnone]
  · next out hsome => rwa [hsome]

end

/-- A call that is no `Encode` is given no unit. -/
theorem returns_of_not_encode (s : AmfEncoder) {c : SessionCall}
    (hc : ∀ frame env, c ≠ .encode frame env) : c.returns s = ⟨none, []⟩ := by
  cases c with
  | encode frame env => exact absurd rfl (hc frame env)
  | requestKeyframe => rfl
  | setBitrate bitrate target peak =>
      have hseen : Seen collect (SessionCall.exec (.setBitrate bitrate target peak))
          (fun _ _ _ => False) (fun _ g => g = []) s [] := by
        simp [SessionCall.exec, Amf.setBitrate, setProperty, collect, unitOfCall]
      simp only [Seen, foldl_collect, List.nil_append] at hseen
      simp only [SessionCall.returns]
      split at hseen
      · next hnone => rw [hnone, hseen]
      · exact hseen.elim

/-! ## whole sessions -/

theorem returns_sublist (s : AmfEncoder) (c : SessionCall) :
    (c.returns s).delivered.toList.Sublist ((c.returns s).units.map frameOf) := by
  cases c with
  | encode frame env => exact sublist_of_accounted (accounted_encode s frame env)
  | _ => rw [returns_of_not_encode s (by simp)]; simp

theorem returns_eq_iff (s : AmfEncoder) (c : SessionCall) :
    (c.returns s).delivered.toList = (c.returns s).units.map frameOf ↔ UnitsTaken s c := by
  cases c with
  | encode frame env => exact eq_iff_of_accounted (accounted_encode s frame env)
  | _ =>
      rw [returns_of_not_encode s (by simp)]
      exact iff_of_true rfl trivial

/-- **Units and frames**: over a session, the frames handed out are those of the access
units given out exactly when every `Encode` takes the units it meets. -/
theorem units_delivered_iff {s s' : AmfEncoder} {cs : List SessionCall} {tr : List SessionReturn}
    (hrun : session.run s cs = some (s', tr)) :
    UnitsDelivered tr ↔ session.Along UnitsTaken s cs := by
  have hreports : (∀ r ∈ tr, r.delivered.toList = r.units.map frameOf) ↔
      session.Along UnitsTaken s cs :=
    Machine.reports_iff_along (fun s c _ => returns_eq_iff s c) (session.along_true s cs) hrun
  have hsublist : ∀ r ∈ tr, r.delivered.toList.Sublist (r.units.map frameOf) := by
    have hlaw : ∀ s c s' o, True → session.step s c = some (s', o) →
        ((∀ r ∈ o, r.delivered.toList.Sublist (r.units.map frameOf)) ↔ True) := by
      intro s c s' o _ hstep
      cases hstep
      simpa using returns_sublist s c
    have hinv : ∀ s c s' o, True → True → session.step s c = some (s', o) → True :=
      fun _ _ _ _ _ _ _ => trivial
    exact (Machine.forall_outputs_iff_along session hlaw hinv trivial hrun).mpr
      (session.along_true s cs)
  rw [UnitsDelivered, List.map_flatMap, flatMap_eq_iff hsublist, hreports]

/-- An encoder right after its `Start`. -/
def started : AmfEncoder := (start (640, 480) 30 1000000 workingStart { device := some 7 }).2.1

/-- The queue is full at the first try, and gives out a slice then if `early` says so. -/
def fullOnce (early : QueryResult) : EncodeEnv :=
  ⟨⟨true, some 2560⟩, true, fun n => if n = 0 then .inputFull else .ok, fun _ => early,
    .buffer [0, 0, 1, 0x41]⟩

theorem units_delivered_iff_quiet :
    ∃ s' tr, session.run started
        [.encode ⟨⟨0, (640, 480)⟩, 7⟩ (fullOnce .again), .requestKeyframe] = some (s', tr) ∧
      (UnitsDelivered tr ↔ session.Along UnitsTaken started
        [.encode ⟨⟨0, (640, 480)⟩, 7⟩ (fullOnce .again), .requestKeyframe]) :=
  ⟨_, _, rfl, units_delivered_iff rfl⟩

/-- An IDR slice that is given out while the queue is full is dropped. -/
theorem unit_lost_while_full :
    ¬ ∀ (s : AmfEncoder) (size : Size) (fps bitrate : UInt32) (env : StartEnv),
      (start size fps bitrate env s).1 = some () →
        ∀ cs s' tr, session.run (start size fps bitrate env s).2.1 cs = some (s', tr) →
          UnitsDelivered tr := by
  intro hclaim
  have hall := hclaim { device := some 7 } (640, 480) 30 1000000 workingStart (by decide)
    [.encode ⟨⟨0, (640, 480)⟩, 7⟩ (fullOnce (.buffer [0, 0, 1, 0x65]))] _ _ rfl
  exact absurd hall (by unfold UnitsDelivered; decide)

end TwinScreen.Host.Amf
