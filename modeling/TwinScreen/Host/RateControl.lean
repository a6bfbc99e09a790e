import TwinScreen.Lib.Attempt
import TwinScreen.Lib.Machine

/-!
# TwinScreen.Host.RateControl

What a caller of an `Encoder` relies on when it asks for a bitrate: a request that is
refused changes nothing, and the encoder runs at the bitrate that was granted last.

* `law_iff` — the law over whole runs, from what one call does.
-/

namespace TwinScreen.Host

open Lib Lib.Attempt

/-- The calls of `Encoder`, as far as the bitrate goes. -/
inductive EncoderCall
  | start (bitrate : UInt32)
  | setBitrate (bitrate : UInt32)
  | resize
  | stop
  | other
  deriving DecidableEq

/-- The bitrate a call asks for. -/
def EncoderCall.bitrate : EncoderCall → Option UInt32
  | .start bitrate | .setBitrate bitrate => some bitrate
  | _ => none

/-- An encoder with the driver behind it.  `observe` is what the driver works with, told
by the calls it gets; `rates` is all that the encoder keeps or has applied for its
bitrate; an idle encoder has nothing left of an earlier session. -/
structure RateControl (σ ι κ γ ρ : Type) where
  exec : ι → Attempt σ κ Unit
  call : ι → EncoderCall
  observe : γ → κ → γ
  rates : σ → γ → ρ
  Idle : σ → Prop
  RunsAt : σ → γ → UInt32 → Prop

/-- An encoder, its driver, and the bitrate that was granted last: by a `Start` or a
`SetBitrate` that returned true. -/
structure Rated (σ γ : Type) where
  encoder : σ
  driver : γ
  granted : UInt32

namespace RateControl

variable {σ ι κ γ ρ : Type} (R : RateControl σ ι κ γ ρ)

/-! ## runs -/

/-- Whether a call returns true. -/
def returns (p : Rated σ γ) (i : ι) : Bool := (R.exec i p.encoder).1.isSome

def next (p : Rated σ γ) (i : ι) : Rated σ γ where
  encoder := (R.exec i p.encoder).2.1
  driver := (R.exec i p.encoder).2.2.foldl R.observe p.driver
  granted := if R.returns p i then (R.call i).bitrate.getD p.granted else p.granted

def machine : Machine (Rated σ γ) ι Bool := .reporting R.next R.returns

/-- A `SetBitrate` that returns false leaves every rate as it is. -/
def KeepsRefused (p : Rated σ γ) (i : ι) : Prop :=
  ∀ bitrate, R.call i = .setBitrate bitrate → R.returns p i = false →
    R.rates (R.next p i).encoder (R.next p i).driver = R.rates p.encoder p.driver

def RunsAtGranted (p : Rated σ γ) : Prop := R.RunsAt p.encoder p.driver p.granted

/-- The call starts an idle encoder. -/
structure Starts (p : Rated σ γ) (i : ι) : Prop where
  call : ∃ bitrate, R.call i = .start bitrate
  idle : R.Idle p.encoder
  returns : R.returns p i = true

/-- The call goes on with a session: it does not end it or begin another, and a
`Resize` works. -/
def GoesOn (p : Rated σ γ) (i : ι) : Prop :=
  match R.call i with
  | .start _ | .stop => False
  | .resize => R.returns p i = true
  | _ => True

/-- The calls are a session, from its `Start` on. -/
def Session (p : Rated σ γ) : List ι → Prop
  | [] => False
  | i :: is => R.Starts p i ∧ R.machine.Along R.GoesOn (R.next p i) is

/-- Over a run, a refused bitrate changes nothing, and in a session the encoder runs at
the bitrate granted last after every call. -/
def Law (p : Rated σ γ) (is : List ι) : Prop :=
  R.machine.Along R.KeepsRefused p is ∧
    (R.Session p is → R.machine.Along (fun p i => R.RunsAtGranted (R.next p i)) p is)

/-! ## one call -/

variable {R} {p : Rated σ γ} {i : ι}

theorem keepsRefused_of_call (h : ∀ bitrate, R.call i ≠ .setBitrate bitrate) :
    R.KeepsRefused p i :=
  fun bitrate hcall => absurd hcall (h bitrate)

theorem keepsRefused_iff {bitrate : UInt32} (h : R.call i = .setBitrate bitrate) :
    R.KeepsRefused p i ↔
      Seen R.observe (R.exec i) (fun _ _ _ => True)
        (fun s g => R.rates s g = R.rates p.encoder p.driver) p.encoder p.driver := by
  rw [seen_gaveUp]
  simp [KeepsRefused, h, returns, next]

theorem runsAtGranted_next_iff :
    R.RunsAtGranted (R.next p i) ↔
      Seen R.observe (R.exec i)
        (fun _ s g => R.RunsAt s g ((R.call i).bitrate.getD p.granted))
        (fun s g => R.RunsAt s g p.granted) p.encoder p.driver := by
  cases hreturns : R.returns p i with
  | false =>
      have hnone : (R.exec i p.encoder).1 = none := by simpa [returns] using hreturns
      simp [RunsAtGranted, next, Seen, hreturns, hnone]
  | true =>
      obtain ⟨u, hu⟩ := Option.isSome_iff_exists.mp hreturns
      simp [RunsAtGranted, next, Seen, hreturns, hu]

/-- A call that returns true runs at the bitrate granted when its end says so. -/
theorem runsAtGranted_iff_of_returns {C : Prop} (hreturns : R.returns p i = true)
    (h : Seen R.observe (R.exec i)
      (fun _ s g => R.RunsAt s g ((R.call i).bitrate.getD p.granted) ↔ C) (fun _ _ => True)
      p.encoder p.driver) : R.RunsAtGranted (R.next p i) ↔ C := by
  obtain ⟨u, hu⟩ := Option.isSome_iff_exists.mp hreturns
  simp only [Seen, hu] at h
  simpa only [RunsAtGranted, next, hreturns, if_true] using h

theorem runsAtGranted_of_returns (hreturns : R.returns p i = true)
    (h : Seen R.observe (R.exec i)
      (fun _ s g => R.RunsAt s g ((R.call i).bitrate.getD p.granted)) (fun _ _ => True)
      p.encoder p.driver) : R.RunsAtGranted (R.next p i) := by
  have htrue := h.mono (fun _ _ _ hruns => iff_true_intro hruns) fun _ _ h' => h'
  exact (runsAtGranted_iff_of_returns hreturns htrue).mpr trivial

/-! ## whole runs -/

/-- **Rates over runs**: let a refused bitrate change nothing exactly when the call is
harmless, and let a call that begins or goes on with a session lead to the bitrate
granted exactly when it is harmless and the rate is taken.  Then so does a run. -/
theorem law_iff {Harmless Taken : Rated σ γ → ι → Prop}
    (hrefused : ∀ p i, R.KeepsRefused p i ↔ Harmless p i)
    (hstarts : ∀ p i, R.Starts p i → (R.RunsAtGranted (R.next p i) ↔ Taken p i))
    (hgoes : ∀ p i, R.RunsAtGranted p → R.GoesOn p i →
      (R.RunsAtGranted (R.next p i) ↔ Harmless p i ∧ Taken p i))
    (p : Rated σ γ) (is : List ι) :
    R.Law p is ↔
      R.machine.Along Harmless p is ∧ (R.Session p is → R.machine.Along Taken p is) := by
  have hsame : R.KeepsRefused = Harmless := by
    funext p i
    exact propext (hrefused p i)
  rw [Law, hsame]
  apply and_congr_right
  intro hharmless
  apply imp_congr_right
  intro hsession
  cases is with
  | nil => exact hsession.elim
  | cons i is =>
      have hfirst := hstarts p i hsession.1
      simp only [machine, Machine.along_reporting_cons] at hharmless ⊢
      rw [hfirst]
      apply and_congr_right
      intro htaken
      have hkept (p p' : Rated σ γ) (i : ι) (o : List Bool) :
          R.RunsAtGranted p → R.GoesOn p i → R.RunsAtGranted (R.next p i) →
            R.machine.step p i = some (p', o) → R.RunsAtGranted p' := by
        intro _ _ hruns hstep
        cases hstep
        exact hruns
      have hrest := R.machine.along_iff_along hgoes (fun p i p' o => hkept p p' i o)
        (hfirst.mpr htaken) hsession.2
      rw [Machine.along_and] at hrest
      exact hrest.trans (and_iff_right hharmless.2)

/-- The law of an encoder that always takes the rate, by a condition on its steps. -/
theorem law_iff_along {Harmless : Rated σ γ → ι → Prop}
    (hrefused : ∀ p i, R.KeepsRefused p i ↔ Harmless p i)
    (hstarts : ∀ p i, R.Starts p i → R.RunsAtGranted (R.next p i))
    (hgoes : ∀ p i, R.RunsAtGranted p → R.GoesOn p i →
      (R.RunsAtGranted (R.next p i) ↔ Harmless p i)) (p : Rated σ γ) (is : List ι) :
    R.Law p is ↔ R.machine.Along Harmless p is := by
  have hfirst (p : Rated σ γ) (i : ι) (h : R.Starts p i) : R.RunsAtGranted (R.next p i) ↔ True :=
    iff_of_true (hstarts p i h) trivial
  have hrest (p : Rated σ γ) (i : ι) (hruns : R.RunsAtGranted p) (h : R.GoesOn p i) :
      R.RunsAtGranted (R.next p i) ↔ Harmless p i ∧ True :=
    (hgoes p i hruns h).trans (and_iff_left trivial).symm
  rw [law_iff hrefused hfirst hrest]
  exact and_iff_left fun _ => R.machine.along_true p is

end RateControl

end TwinScreen.Host
