import TwinScreen.Host.Adts
import TwinScreen.Host.Encoder
import TwinScreen.Host.Server
import TwinScreen.Lib.Custody
import TwinScreen.Lib.Least

/-!
# TwinScreen.Host.AacEncoder

`AacEncoder` of `host/src/audio/aac.cpp` over its whole life: `Init`, `Encode` and `Shutdown`,
with the calls that they make to Media Foundation.

* `chooseOutputType_eq` — the output type is the first of those closest to the target.
* `aac_released` — nothing that the encoder gets is kept by an `Init` that fails, or after
  `Shutdown`.
* `samples_gapless` — the inputs since an `Init` follow one another without a gap.
-/

namespace TwinScreen.Host.AacEnc

open Lib Lib.Attempt

/-! ## `ChooseOutputType` -/

/-- An output type as the loop reads it: its subtype, none when `GetGUID` fails, and the three
numbers. -/
structure OutputType where
  subtype : Option Bool
  rate : UInt32
  channels : UInt32
  bytes : UInt32
  deriving DecidableEq

/-- An AAC type of this rate and number of channels. -/
def Candidate (rate : UInt32) (channels : UInt16) (t : OutputType) : Bool :=
  t.subtype == some true && t.rate == rate && t.channels == channels.toUInt32

/-- `diff`, made positive; there is no overflow while the numbers are below `2^31`. -/
def distance (target : UInt32) (t : OutputType) : Int :=
  let diff := staticCastInt t.bytes - staticCastInt target
  if diff < 0 then -diff else diff

/-- `std::numeric_limits<int>::max()`. -/
def intMax : Int := 2147483647

/-- One turn of the loop, on `best_diff` and `best`. -/
def consider (rate : UInt32) (channels : UInt16) (target : UInt32) (acc : Int × Option OutputType)
    (t : OutputType) : Int × Option OutputType :=
  if Candidate rate channels t = false then acc
  else if distance target t < acc.1 then (distance target t, some t)
  else acc

/-- `ChooseOutputType`, on the types that `GetOutputAvailableType` gives before it fails. -/
def chooseOutputType (rate : UInt32) (channels : UInt16) (bitrate : UInt32)
    (offered : List OutputType) : Option OutputType :=
  (offered.foldl (consider rate channels (bitrate / 8)) (intMax, none)).2

/-- **The first of the closest.** -/
theorem chooseOutputType_eq (rate : UInt32) (channels : UInt16) (bitrate : UInt32)
    (offered : List OutputType) :
    chooseOutputType rate channels bitrate offered =
      least (Candidate rate channels) (distance (bitrate / 8)) intMax offered :=
  congrArg Prod.snd (foldl_keepBest (Candidate rate channels) (distance (bitrate / 8)) intMax
    offered)

/-! ## the encoder -/

/-- `AacEncoder::Impl`, with its transform. -/
structure Impl where
  mft : Option Handle := none
  rate : UInt32 := 48000
  channels : UInt16 := 2
  blockAlign : UInt32 := 4
  /-- A LONGLONG in units of 100 ns; a natural number is the same below `2^63`. -/
  sampleTime : Nat := 0
  deriving DecidableEq

/-- What `Init` makes. -/
def Impl.ofFormat (rate : UInt32) (channels : UInt16) : Impl :=
  { rate := rate, channels := channels, blockAlign := channels.toUInt32 * 2 }

/-- The fields that the model of the output reads. -/
def Impl.view (m : Impl) : AacImpl := ⟨m.mft.isSome, m.rate, m.channels, m.blockAlign, m.sampleTime⟩

/-- `AacEncoder`. -/
structure AacEncoder where
  impl : Option Impl := none
  deriving DecidableEq

/-- What the encoder calls. -/
inductive AacCall
  | mfStartup (ok : Bool)
  /-- The array that it returns. -/
  | mftEnumEx (acts : Option Handle)
  /-- An activation object in the array. -/
  | enumerated (act : Handle)
  | activateObject (act : Handle) (mft : Option Handle)
  | releaseActivate (act : Handle)
  | coTaskMemFree (acts : Handle)
  | setInputType (ok : Bool)
  | setOutputType (t : OutputType) (ok : Bool)
  | beginStreaming
  | startOfStream
  | endOfStream
  | releaseMft (mft : Handle)
  | mfShutdown
  /-- An input of so many samples. -/
  | processInput (samples time duration : Nat) (ok : Bool)
  deriving DecidableEq

/-- What `MFTEnumEx` finds; an array may be there without an element. -/
inductive Enumeration
  | failed
  | empty (acts : Option Handle)
  | found (acts : Handle) (first : Handle) (others : List Handle)
  deriving DecidableEq

/-- What the calls of an `Init` return. -/
structure InitEnv where
  startup : Bool
  enumeration : Enumeration
  mft : Option Handle
  pcmType : Bool
  setInputType : Bool
  offered : List OutputType
  setOutputType : Bool
  deriving DecidableEq

def AacEncoder.setMft (s : AacEncoder) (mft : Option Handle) : AacEncoder :=
  { s with impl := s.impl.map fun m => { m with mft := mft } }

/-- `Shutdown`. -/
def shutdown : Attempt AacEncoder AacCall Unit := do
  let s ← state
  forSome s.impl fun m => do
    forSome m.mft fun mft => issueAll [.endOfStream, .releaseMft mft]
    update fun s => { s with impl := none }
    issue .mfShutdown

/-- The transform is found and activated. -/
def findTransform (env : InitEnv) : Attempt AacEncoder AacCall Unit :=
  match env.enumeration with
  | .failed => do
      issue (.mftEnumEx none)
      check false
  | .empty acts => do
      issue (.mftEnumEx acts)
      forSome acts fun acts => issue (.coTaskMemFree acts)
      check false
  | .found acts first others => do
      issue (.mftEnumEx (some acts))
      issueAll ((first :: others).map .enumerated)
      issue (.activateObject first env.mft)
      update fun s => s.setMft env.mft
      issueAll ((first :: others).map .releaseActivate)
      issue (.coTaskMemFree acts)
      check env.mft.isSome

/-- The types are set, and the stream is started. -/
def configureTypes (rate : UInt32) (channels : UInt16) (bitrate : UInt32) (env : InitEnv) :
    Attempt AacEncoder AacCall Unit := do
  check env.pcmType
  issue (.setInputType env.setInputType)
  check env.setInputType
  let t ← outcome (chooseOutputType rate channels bitrate env.offered)
  issue (.setOutputType t env.setOutputType)
  check env.setOutputType
  issueAll [.beginStreaming, .startOfStream]

/-- `Init`. -/
def init (rate : UInt32) (channels : UInt16) (bitrate : UInt32) (env : InitEnv) :
    Attempt AacEncoder AacCall Unit := do
  shutdown
  check (rate == 44100 || rate == 48000)
  issue (.mfStartup env.startup)
  check env.startup
  update fun s => { s with impl := some (.ofFormat rate channels) }
  orCleanUp (do
    findTransform env
    configureTypes rate channels bitrate env) shutdown

/-- `Encode`, by its outcomes in `TwinScreen.Host.Adts`. -/
def encode (pcm : Bool) (samples : Nat) (calls : AacCalls) : Attempt AacEncoder AacCall Unit := do
  let s ← state
  let m ← outcome s.impl
  let r := encodeAac (some m.view) pcm samples calls []
  whenever (m.mft.isSome && pcm && calls.createSample && calls.createMemoryBuffer && calls.lock) do
    issue (.processInput samples m.sampleTime (samples * 10000000 / m.rate.toNat)
      calls.processInput)
  let sampleTime := r.impl.elim m.sampleTime AacImpl.sampleTime
  update fun s => { s with impl := some { m with sampleTime := sampleTime } }
  check r.ok

/-- A call on the encoder. -/
inductive AacInput
  | init (rate : UInt32) (channels : UInt16) (bitrate : UInt32) (env : InitEnv)
  | encode (pcm : Bool) (samples : Nat) (calls : AacCalls)
  | shutdown
  deriving DecidableEq

def exec : AacInput → Attempt AacEncoder AacCall Unit
  | .init rate channels bitrate env => init rate channels bitrate env
  | .encode pcm samples calls => encode pcm samples calls
  | .shutdown => shutdown

/-! ## handles -/

/-- What the encoder gets, and has to give back; a `ComPtr` does that by itself. -/
inductive AacHandle
  | platform
  | activates (acts : Handle)
  | activate (act : Handle)
  | transform (mft : Handle)
  deriving DecidableEq

def AacCall.receipt : AacCall → Receipt AacHandle
  | .mfStartup true => .acquires .platform
  | .mfShutdown => .releases .platform
  | .mftEnumEx (some acts) => .acquires (.activates acts)
  | .coTaskMemFree acts => .releases (.activates acts)
  | .enumerated act => .acquires (.activate act)
  | .releaseActivate act => .releases (.activate act)
  | .activateObject _ (some mft) => .acquires (.transform mft)
  | .releaseMft mft => .releases (.transform mft)
  | _ => .neither

theorem receipt_mfStartup : (AacCall.mfStartup true).receipt = .acquires .platform := rfl

theorem receipt_mftEnumEx (acts : Handle) :
    (AacCall.mftEnumEx (some acts)).receipt = .acquires (.activates acts) := rfl

theorem receipt_coTaskMemFree (acts : Handle) :
    (AacCall.coTaskMemFree acts).receipt = .releases (.activates acts) := rfl

theorem receipt_enumerated (act : Handle) :
    (AacCall.enumerated act).receipt = .acquires (.activate act) := rfl

theorem receipt_releaseActivate (act : Handle) :
    (AacCall.releaseActivate act).receipt = .releases (.activate act) := rfl

def AacEncoder.held (s : AacEncoder) : Multiset AacHandle :=
  match s.impl with
  | none => 0
  | some m => .platform ::ₘ carried .transform m.mft

def custody : Custodian AacEncoder AacInput AacCall AacHandle where
  exec := exec
  receipt := AacCall.receipt
  held := AacEncoder.held
  Tries _
    | .init _ _ _ _ => True
    | _ => False

variable {s : AacEncoder}

theorem lossless_shutdown :
    Lossless AacCall.receipt AacEncoder.held shutdown (fun _ s' => s'.impl = none)
      (fun _ => False) s := by
  intro lost
  obtain ⟨_ | ⟨_ | mft, rate, channels, blockAlign, sampleTime⟩⟩ := s <;>
    simp [shutdown, outstanding, AacCall.receipt, AacEncoder.held]

/-- The array and its objects are given back, whatever comes of them. -/
theorem lossless_findTransform {m : Impl} (hs : s.impl = some m) (hm : m.mft = none)
    (env : InitEnv) :
    Lossless AacCall.receipt AacEncoder.held (findTransform env) (fun _ _ => True)
      (fun _ => True) s := by
  intro lost
  unfold findTransform
  split
  · simp [outstanding, AacCall.receipt]
  · next acts _ => cases acts <;> simp [outstanding, AacCall.receipt]
  · next acts first others _ =>
      simp only [seen_bind, seen_issue, outstanding_acquires (receipt_mftEnumEx acts)]
      rw [seen_issueAll_acquire _ _ receipt_enumerated]
      cases env.mft with
      | none =>
          simp only [seen_bind, seen_issue, seen_update, outstanding, AacCall.receipt]
          rw [seen_issueAll_release _ _ receipt_releaseActivate, seen_bind, seen_issue,
            outstanding_releases (receipt_coTaskMemFree acts)]
          simp [AacEncoder.held, AacEncoder.setMft, hs, hm]
      | some mft =>
          simp only [seen_bind, seen_issue, seen_update, outstanding, AacCall.receipt]
          rw [← Multiset.add_cons, Multiset.cons_swap,
            seen_issueAll_release _ _ receipt_releaseActivate, seen_bind, seen_issue,
            outstanding_releases (receipt_coTaskMemFree acts)]
          simp [AacEncoder.held, AacEncoder.setMft, hs, hm, Multiset.cons_swap]

theorem keeps_configureTypes (rate : UInt32) (channels : UInt16) (bitrate : UInt32)
    (env : InitEnv) :
    Keeps (fun k => k.receipt = .neither) id (configureTypes rate channels bitrate env) := by
  simp [Keeps, configureTypes, AacCall.receipt]
  grind

theorem lossless_init (rate : UInt32) (channels : UInt16) (bitrate : UInt32) (env : InitEnv) :
    Lossless AacCall.receipt AacEncoder.held (init rate channels bitrate env) (fun _ _ => True)
      (fun s' => s'.impl = none) s := by
  apply lossless_bind (lossless_shutdown.mono (fun _ _ h => h) fun _ h => h.elim)
  intro _ s₁ h₁
  refine lossless_check_bind (fun _ => ?_) (fun _ => ?_)
  case refine_2 => exact h₁
  intro lost
  have hheld : s₁.held = 0 := by rw [AacEncoder.held, h₁]
  cases hstartup : env.startup with
  | false => simp [outstanding, AacCall.receipt, h₁]
  | true =>
      have hsetUp : Lossless AacCall.receipt AacEncoder.held (do
          findTransform env
          configureTypes rate channels bitrate env) (fun _ _ => True) (fun _ => True)
          { s₁ with impl := some (.ofFormat rate channels) } := by
        apply lossless_bind (lossless_findTransform rfl rfl env)
        intro _ s₂ _
        exact ((keeps_configureTypes rate channels bitrate env).lossless
          (fun s s' h => congrArg AacEncoder.held h) s₂).mono (fun _ _ _ => trivial)
          fun _ _ => trivial
      have hup := lossless_orCleanUp hsetUp fun s' _ =>
        (lossless_shutdown (s := s')).mono (fun _ _ h => h) fun _ h => h.elim
      have hall := hup lost
      simp only [seen_bind, seen_issue, seen_check, seen_update, if_true]
      rw [outstanding_acquires receipt_mfStartup, hheld, ← Multiset.cons_add]
      exact hall

theorem keeps_held_encode (pcm : Bool) (samples : Nat) (calls : AacCalls) :
    Wp (fun k => k.receipt = .neither) (encode pcm samples calls)
      (fun _ s' => s'.held = s.held) (fun s' => s'.held = s.held) s := by
  simp only [encode, wp_bind, wp_state, wp_outcome]
  cases h : s.impl with
  | none => trivial
  | some m => simp [AacEncoder.held, h, AacCall.receipt]

/-- Every call accounts for what it gets, and an `Init` that fails has given all of it back. -/
theorem lossless_exec (s : AacEncoder) (i : AacInput) :
    Lossless AacCall.receipt AacEncoder.held (exec i) (fun _ _ => True)
      (fun s' => custody.Tries s i → s'.impl = none) s := by
  cases i with
  | init rate channels bitrate env =>
      exact (lossless_init rate channels bitrate env).mono (fun _ _ _ => trivial) fun _ h _ => h
  | encode pcm samples calls =>
      apply Wp.lossless
      exact (keeps_held_encode pcm samples calls).mono (fun _ _ h => ⟨trivial, h⟩)
        fun _ h => ⟨fun htries => htries.elim, h⟩
  | shutdown => exact lossless_shutdown.mono (fun _ _ _ => trivial) fun _ h => h.elim

theorem held_of_impl {s : AacEncoder} (h : s.impl = none) : s.held = 0 := by
  rw [AacEncoder.held, h]

theorem rules : custody.Rules .shutdown (fun _ => True) (fun _ => True) (fun _ _ => True) where
  accounts i s _ := (lossless_exec s i).accounts.forget
  inv _ _ := trivial
  keeps i s _ _ := (lossless_exec s i).mono (fun _ _ _ => trivial)
    fun _ h => ⟨trivial, fun htries => held_of_impl (h htries)⟩
  loses _ _ _ hnot := absurd trivial hnot
  empties _ _ := lossless_shutdown.mono (fun _ _ h => held_of_impl h) fun _ h => h

/-- A second `Shutdown` does nothing. -/
theorem shutdown_shutdown (s : AacEncoder) :
    shutdown (shutdown s).2.1 = (some (), (shutdown s).2.1, []) := by
  obtain ⟨_ | ⟨_ | mft, rate, channels, blockAlign, sampleTime⟩⟩ := s <;> rfl

/-- **Custody of the AAC encoder.**  Whatever calls are made and whatever they meet, an `Init`
that fails keeps nothing, and after the destructor's `Shutdown` the platform has been shut down
as often as it was started, and each transform, array and activation object has been given back
exactly once. -/
theorem aac_released (inputs : List AacInput) :
    custody.Released .shutdown (fun s => s.impl = none) {} inputs := by
  have hfails : ∀ s i, custody.FailsInto (fun s => s.impl = none) s i ↔ True := by
    intro s i
    refine iff_true_intro fun htries hnone => ?_
    have hend := (lossless_exec s i).balance.2
    rw [show (exec i s).1 = none from hnone] at hend
    exact hend htries
  refine (rules.released_iff_along hfails shutdown_shutdown trivial).mpr ?_
  exact custody.machine.along_mono (fun _ _ _ => ⟨trivial, trivial⟩)
    (custody.machine.along_true {} inputs)

/-! ## sample times -/

/-- An input that the transform has taken.  A number of samples is a `size_t`, and the times are
LONGLONG; natural numbers stand for them as long as the total stays below `2^63`. -/
structure Sample where
  samples : Nat
  time : Nat
  duration : Nat
  deriving DecidableEq

/-- The samples taken since the platform was last started. -/
def taken (acc : List Sample) : AacCall → List Sample
  | .mfStartup true => []
  | .processInput samples time duration true => acc ++ [⟨samples, time, duration⟩]
  | _ => acc

/-- The durations of the samples. -/
def total (l : List Sample) : Nat := (l.map Sample.duration).sum

/-- Each sample starts where the one before it ends. -/
def Gapless (l : List Sample) : Prop := ∀ k x, l[k]? = some x → x.time = total (l.take k)

/-- The durations are those of a rate. -/
def AtRate (rate : UInt32) (l : List Sample) : Prop :=
  ∀ x ∈ l, x.duration = x.samples * 10000000 / rate.toNat

/-- The clock of the encoder is the end of the samples. -/
structure Clock (s : AacEncoder) (l : List Sample) : Prop where
  gapless : Gapless l
  atRate : ∃ rate, (rate = 44100 ∨ rate = 48000) ∧ AtRate rate l ∧
    ∀ m ∈ s.impl, m.rate = rate ∧ m.sampleTime = total l

theorem total_concat (l : List Sample) (x : Sample) : total (l ++ [x]) = total l + x.duration := by
  simp [total]

theorem Gapless.concat {l : List Sample} (h : Gapless l) {x : Sample} (hx : x.time = total l) :
    Gapless (l ++ [x]) := by
  intro k y hy
  rcases Nat.lt_trichotomy k l.length with hk | rfl | hk
  · rw [List.getElem?_append_left hk] at hy
    rw [List.take_append_of_le_length hk.le]
    exact h k y hy
  · rw [List.getElem?_concat_length] at hy
    cases hy
    rw [List.take_left]
    exact hx
  · rw [List.getElem?_eq_none (by rw [List.length_append, List.length_singleton]; omega)] at hy
    contradiction

/-- What the clock depends on. -/
def AacEncoder.clock (s : AacEncoder) : Option (UInt32 × Nat) :=
  s.impl.map fun m => (m.rate, m.sampleTime)

theorem Clock.of_clock {s s' : AacEncoder} {l : List Sample} (h : Clock s l)
    (hclock : s'.clock = s.clock) : Clock s' l := by
  obtain ⟨rate, hrate, hat, hm⟩ := h.atRate
  refine ⟨h.gapless, rate, hrate, hat, fun m' hm' => ?_⟩
  have hsome : s.clock = some (m'.rate, m'.sampleTime) := by
    rw [← hclock, AacEncoder.clock, Option.mem_def.mp hm']
    rfl
  obtain ⟨m, hmem, heq⟩ := Option.map_eq_some_iff.mp hsome
  rw [Prod.mk.injEq] at heq
  rw [← heq.1, ← heq.2]
  exact hm m hmem

/-- A call that is no input and no start of the platform. -/
def Neutral (k : AacCall) : Prop := ∀ acc, taken acc k = acc

theorem keeps_findTransform (env : InitEnv) :
    Keeps Neutral AacEncoder.clock (findTransform env) := by
  have hset : ∀ s : AacEncoder, (s.setMft env.mft).clock = s.clock := by
    rintro ⟨_ | m⟩ <;> rfl
  intro s
  unfold findTransform
  split
  · simp [Neutral, taken]
  · simp [Neutral, taken]
  · simp [Neutral, taken, hset]

theorem seen_shutdown {l : List Sample} (h : Clock s l) :
    Seen taken shutdown (fun _ s' g => s'.impl = none ∧ g = l) (fun _ _ => False) s l := by
  obtain ⟨_ | ⟨_ | mft, rate, channels, blockAlign, sampleTime⟩⟩ := s <;> simp [shutdown, taken]

theorem Clock.none_of {l : List Sample} (h : Clock s l) {s' : AacEncoder} (hs : s'.impl = none) :
    Clock s' l := by
  obtain ⟨rate, hrate, hat, -⟩ := h.atRate
  exact ⟨h.gapless, rate, hrate, hat, by simp [hs]⟩

/-- Behind a start of the platform there are no samples. -/
theorem clock_start (rate : UInt32) (channels : UInt16) (h : rate = 44100 ∨ rate = 48000) :
    Clock ⟨some (.ofFormat rate channels)⟩ [] := by
  refine ⟨nofun, rate, h, nofun, ?_⟩
  rintro _ ⟨⟩
  exact ⟨rfl, rfl⟩

theorem keeps_clock_configureTypes (rate : UInt32) (channels : UInt16) (bitrate : UInt32)
    (env : InitEnv) :
    Keeps Neutral AacEncoder.clock (configureTypes rate channels bitrate env) := by
  simp [Keeps, configureTypes, Neutral, taken]
  grind

theorem encodeAac_impl (v : AacImpl) (pcm : Bool) (samples : Nat) (calls : AacCalls)
    (out : List UInt8) :
    (encodeAac (some v) pcm samples calls out).impl =
      some (if v.mft && pcm && calls.accepted then
        { v with sampleTime := v.sampleTime + samples * 10000000 / v.rate.toNat } else v) := by
  simp only [encodeAac]
  cases v.mft with
  | false => rfl
  | true =>
      cases pcm with
      | false => rfl
      | true =>
          cases calls.accepted with
          | false => rfl
          | true => cases calls.ends <;> rfl

/-- The clock moves exactly when the input is taken. -/
theorem encodeAac_sampleTime (m : Impl) (pcm : Bool) (samples : Nat) (calls : AacCalls)
    (out : List UInt8) :
    (encodeAac (some m.view) pcm samples calls out).impl.elim m.sampleTime AacImpl.sampleTime =
      if m.mft.isSome && pcm && calls.accepted then
        m.sampleTime + samples * 10000000 / m.rate.toNat
      else m.sampleTime := by
  rw [encodeAac_impl, Option.elim_some, apply_ite AacImpl.sampleTime]
  rfl

theorem Clock.concat {l : List Sample} (h : Clock s l) {m : Impl} (hm : s.impl = some m)
    (samples : Nat) {duration : Nat} (hduration : duration = samples * 10000000 / m.rate.toNat) :
    Clock ⟨some { m with sampleTime := m.sampleTime + duration }⟩
      (l ++ [⟨samples, m.sampleTime, duration⟩]) := by
  obtain ⟨rate, hknown, hat, hclock⟩ := h.atRate
  obtain ⟨rfl, htotal⟩ := hclock m hm
  refine ⟨h.gapless.concat htotal, m.rate, hknown, ?_, ?_⟩
  · intro x hx
    rcases List.mem_append.mp hx with hx | hx
    · exact hat x hx
    · rw [List.mem_singleton.mp hx]
      exact hduration
  · rintro _ ⟨⟩
    rw [total_concat, ← htotal]
    exact ⟨rfl, rfl⟩

/-- A call of `Encode` takes the input at the clock, and moves the clock to its end. -/
theorem seen_encode {l : List Sample} (h : Clock s l) (pcm : Bool) (samples : Nat)
    (calls : AacCalls) : Seen taken (encode pcm samples calls) (fun _ => Clock) Clock s l := by
  simp only [encode, seen_bind, seen_state, seen_outcome]
  cases hm : s.impl with
  | none => exact h
  | some m =>
      have hsame : Clock ⟨some m⟩ l := by
        rw [← hm]
        exact h
      simp only [seen_bind, seen_whenever, seen_issue, seen_update, seen_check, ite_self,
        encodeAac_sampleTime, AacCalls.accepted]
      generalize hduration : samples * 10000000 / m.rate.toNat = duration
      split
      case isTrue hreached =>
        simp only [Bool.and_eq_true] at hreached
        rcases Bool.eq_false_or_eq_true calls.processInput with htaken | htaken
        · simpa [hreached, htaken, taken] using h.concat hm samples hduration.symm
        · simpa [htaken, taken] using hsame
      case isFalse hreached =>
        rw [Bool.not_eq_true] at hreached
        simpa only [← Bool.and_assoc, hreached, Bool.false_and, Bool.false_eq_true, if_false]
          using hsame

/-- **Step lemma.** -/
theorem seen_exec {l : List Sample} (h : Clock s l) (i : AacInput) :
    Seen taken (exec i) (fun _ => Clock) Clock s l := by
  cases i with
  | shutdown =>
      exact (seen_shutdown h).mono (fun _ _ _ h' => h'.2 ▸ h.none_of h'.1) fun _ _ h' => h'.elim
  | encode pcm samples calls => exact seen_encode h pcm samples calls
  | init rate channels bitrate env =>
      apply seen_bind_of_total (seen_shutdown h)
      rintro _ s₁ _ ⟨hnone, rfl⟩
      rw [seen_bind, seen_check]
      split
      case isFalse => exact h.none_of hnone
      case isTrue hrate =>
        rw [seen_bind, seen_issue, seen_bind, seen_check]
        cases env.startup with
        | false => exact h.none_of hnone
        | true =>
            rw [seen_bind, seen_update, seen_orCleanUp]
            have hstart := clock_start rate channels (by simpa using hrate)
            have hsetUp := (keeps_findTransform env).bind fun _ =>
              keeps_clock_configureTypes rate channels bitrate env
            apply ((hsetUp _).seen (fun _ h => h) _).mono
            · rintro _ s₂ _ ⟨hclock, rfl⟩
              exact hstart.of_clock hclock
            · rintro s₂ _ ⟨hclock, rfl⟩
              have hend := seen_shutdown (hstart.of_clock hclock)
              exact hend.mono (fun _ s₃ _ h' => h'.2 ▸ hstart.none_of h'.1) fun _ _ h' => h'.elim

/-- The samples of all the inputs. -/
def frames (l : List Sample) : Nat := (l.map Sample.samples).sum

/-- Each duration is rounded down, and no more than that is lost. -/
theorem AtRate.lag {rate : UInt32} (hpos : 0 < rate.toNat) {l : List Sample} (h : AtRate rate l) :
    total l * rate.toNat ≤ frames l * 10000000 ∧
      frames l * 10000000 ≤ total l * rate.toNat + l.length * (rate.toNat - 1) := by
  induction l with
  | nil => simp [total, frames]
  | cons x l ih =>
      rw [AtRate, List.forall_mem_cons] at h
      obtain ⟨hlow, hhigh⟩ := ih h.2
      have hdiv := Nat.div_add_mod (x.samples * 10000000) rate.toNat
      have hmod := Nat.mod_lt (x.samples * 10000000) hpos
      rw [← h.1, Nat.mul_comm] at hdiv
      simp only [total, frames, List.map_cons, List.sum_cons, List.length_cons] at hlow hhigh ⊢
      rw [Nat.add_mul, Nat.add_mul, Nat.add_mul]
      omega

/-- **Run lemma.** -/
theorem clock_run {inputs : List AacInput} {s : AacEncoder} {calls : List AacCall}
    (hrun : custody.machine.run {} inputs = some (s, calls)) : Clock s (calls.foldl taken []) := by
  have hstart : Clock {} [] := ⟨nofun, 44100, .inl rfl, nofun, nofun⟩
  have hstep : ∀ (s : AacEncoder) (tr : List AacCall) (i : AacInput) (s' : AacEncoder)
      (o : List AacCall), Clock s (tr.foldl taken []) → True →
      custody.machine.step s i = some (s', o) → Clock s' ((tr ++ o).foldl taken []) := by
    intro s tr i s' o h _ hstep
    have hpair : (exec i s).2 = (s', o) := Option.some.inj hstep
    have hseen := seen_both.mp (seen_exec h i)
    rwa [hpair, ← List.foldl_append] at hseen
  have hclock := @custody.machine.run_invariant _ _ _ (fun s tr => Clock s (tr.foldl taken [])) _
    hstep inputs {} s [] calls hstart (custody.machine.along_true {} inputs) hrun
  exact hclock

/-- **The clock of the input.**  In every run, whatever `Init` and `Encode` meet, the inputs that
the transform has taken since the platform was last started follow one another: each one starts
where the one before it ends, and behind its exact time by less than 100 ns for each of those
before.  The numbers are natural; the code's are the same while the total is below `2^63`, some
29000 years. -/
theorem samples_gapless {inputs : List AacInput} {s : AacEncoder} {calls : List AacCall}
    (hrun : custody.machine.run {} inputs = some (s, calls)) :
    ∃ rate : UInt32, (rate = 44100 ∨ rate = 48000) ∧
      ∀ k x, (calls.foldl taken [])[k]? = some x →
        x.duration = x.samples * 10000000 / rate.toNat ∧
        x.time = total ((calls.foldl taken []).take k) ∧
        x.time * rate.toNat ≤ frames ((calls.foldl taken []).take k) * 10000000 ∧
        frames ((calls.foldl taken []).take k) * 10000000 ≤
          x.time * rate.toNat + k * (rate.toNat - 1) := by
  have hclock := clock_run hrun
  obtain ⟨rate, hrate, hat, -⟩ := hclock.atRate
  have hpos : 0 < rate.toNat := by rcases hrate with rfl | rfl <;> decide
  refine ⟨rate, hrate, fun k x hx => ?_⟩
  have htime := hclock.gapless k x hx
  have hlength : ((calls.foldl taken []).take k).length = k :=
    List.length_take_of_le (List.getElem?_eq_some_iff.mp hx).1.le
  have hbefore : AtRate rate ((calls.foldl taken []).take k) :=
    fun y hy => hat y (List.mem_of_mem_take hy)
  have hlag := hbefore.lag hpos
  rw [hlength, ← htime] at hlag
  exact ⟨hat x (List.mem_of_getElem? hx), htime, hlag⟩

/-- An encoder that comes up, and is given two inputs. -/
def twoInputs : List AacInput :=
  [.init 44100 2 128000
    ⟨true, .found 1 2 [], some 3, true, true, [⟨some true, 44100, 2, 16000⟩], true⟩,
    .encode true 1000 ⟨true, true, true, true, [], .needMoreInput⟩,
    .encode true 1000 ⟨true, true, true, true, [[0x21]], .needMoreInput⟩]

/-- The second input starts at 22.6757 ms. -/
theorem samples_gapless_two :
    ∃ s calls, custody.machine.run {} twoInputs = some (s, calls) ∧
      (calls.foldl taken [])[1]? = some ⟨1000, 226757, 226757⟩ ∧
      226757 = total ((calls.foldl taken []).take 1) := by
  obtain ⟨s, calls, hrun⟩ := custody.run_total {} twoInputs
  have hsecond : (calls.foldl taken [])[1]? = some ⟨1000, 226757, 226757⟩ := by
    cases hrun
    decide
  obtain ⟨_, -, hlaw⟩ := samples_gapless hrun
  exact ⟨s, calls, hrun, hsecond, (hlaw 1 _ hsecond).2.1⟩

end TwinScreen.Host.AacEnc
