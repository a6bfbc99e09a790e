import TwinScreen.Host.AmfHandles
import TwinScreen.Host.NvencHandles
import TwinScreen.Host.QsvHandles
import TwinScreen.Lib.CNumber

/-!
# TwinScreen.Host.Selection

The arguments of `main`, and its encoders from the search for one that starts to their
destructors (`host/src/main.cpp`).  What `main` asks of the encoder that it uses, and when,
is an input, with what the calls of the encoders meet.

* `parseArgs_reads` — what a command line gives.
* `encoders_hold` — what the encoders hold while one of them is used.
* `encoders_released_iff` — in which runs everything is given back at the end.
-/

namespace TwinScreen.Host

open Lib Lib.Attempt

/-! ## arguments -/

/-- `Args`. -/
structure Args where
  port : UInt16 := 7200
  /-- 0 is the primary one. -/
  monitor : UInt64 := 0
  keepRaw : Bool := false
  /-- Forces an encoder by its `Name`. -/
  encoder : List Char := []
  deriving DecidableEq, Repr

/-- The options that take a value, and the one that does not. -/
def portFlag : List Char := ['-', '-', 'p', 'o', 'r', 't']
def monitorFlag : List Char := ['-', '-', 'm', 'o', 'n', 'i', 't', 'o', 'r']
def encoderFlag : List Char := ['-', '-', 'e', 'n', 'c', 'o', 'd', 'e', 'r']
def rawFlag : List Char := ['-', '-', 'r', 'a', 'w']

/-- `static_cast<uint16_t>(std::atoi(..))`. -/
def portOf (value : List Char) : UInt16 := UInt16.ofBitVec (BitVec.ofInt 16 (atoi value))

/-- `ParseArgs`, from an argument on. -/
def parseArgs (a : Args) : List (List Char) → Args
  | [] => a
  | [arg] => if arg = rawFlag then { a with keepRaw := true } else a
  | arg :: value :: argv =>
      if arg = portFlag then parseArgs { a with port := portOf value } argv
      else if arg = monitorFlag then parseArgs { a with monitor := strtoull value } argv
      else if arg = encoderFlag then parseArgs { a with encoder := value } argv
      else if arg = rawFlag then parseArgs { a with keepRaw := true } (value :: argv)
      else parseArgs a (value :: argv)

/-- An option as it stands in a command line, or another argument. -/
inductive CommandOption
  | port (value : List Char)
  | monitor (value : List Char)
  | encoder (value : List Char)
  | raw
  | other (arg : List Char)
  deriving DecidableEq

namespace CommandOption

/-- The arguments of an option. -/
def render : CommandOption → List (List Char)
  | .port value => [portFlag, value]
  | .monitor value => [monitorFlag, value]
  | .encoder value => [encoderFlag, value]
  | .raw => [rawFlag]
  | .other arg => [arg]

def port? : CommandOption → Option UInt16
  | .port value => some (portOf value)
  | _ => none

def monitor? : CommandOption → Option UInt64
  | .monitor value => some (strtoull value)
  | _ => none

def encoder? : CommandOption → Option (List Char)
  | .encoder value => some value
  | _ => none

/-- Another argument is not an option. -/
def Proper : CommandOption → Prop
  | .other arg => arg ∉ [portFlag, monitorFlag, encoderFlag, rawFlag]
  | _ => True

end CommandOption

/-- The last value, if there is one. -/
def lastOf {α β : Type} (f : α → Option β) (default : β) (xs : List α) : β :=
  (xs.filterMap f).getLastD default

theorem lastOf_cons {α β : Type} (f : α → Option β) (default : β) (x : α) (xs : List α) :
    lastOf f default (x :: xs) = lastOf f ((f x).getD default) xs := by
  cases hx : f x with
  | none => simp [lastOf, hx]
  | some b => simp [lastOf, hx, List.getLast?_cons]

theorem parseArgs_raw (a : Args) (argv : List (List Char)) :
    parseArgs a (rawFlag :: argv) = parseArgs { a with keepRaw := true } argv := by
  cases argv with
  | nil => simp [parseArgs]
  | cons value argv =>
      rw [parseArgs, if_neg (by decide), if_neg (by decide), if_neg (by decide), if_pos rfl]

theorem parseArgs_other (a : Args) {arg : List Char}
    (h : arg ∉ [portFlag, monitorFlag, encoderFlag, rawFlag]) (argv : List (List Char)) :
    parseArgs a (arg :: argv) = parseArgs a argv := by
  simp only [List.mem_cons, List.not_mem_nil, or_false, not_or] at h
  obtain ⟨hport, hmonitor, hencoder, hraw⟩ := h
  cases argv with
  | nil => simp [parseArgs, hraw]
  | cons value argv => simp [parseArgs, hport, hmonitor, hencoder, hraw]

/-- An option without its value, at the end. -/
def dangling : List (List (List Char)) := [[], [portFlag], [monitorFlag], [encoderFlag]]

theorem parseArgs_dangling (a : Args) {trailing : List (List Char)} (h : trailing ∈ dangling) :
    parseArgs a trailing = a := by
  simp only [dangling, List.mem_cons, List.not_mem_nil, or_false] at h
  rcases h with rfl | rfl | rfl | rfl
  · rfl
  all_goals rw [parseArgs, if_neg (by decide)]

/-- A command line, read as options and other arguments. -/
structure Reads (argv : List (List Char)) (options : List CommandOption)
    (trailing : List (List Char)) : Prop where
  argv : argv = options.flatMap CommandOption.render ++ trailing
  proper : ∀ o ∈ options, o.Proper
  trailing : trailing ∈ dangling

theorem Reads.cons {argv argv' trailing : List (List Char)} {options : List CommandOption}
    (h : Reads argv options trailing) {o : CommandOption} (ho : o.Proper)
    (hargv : argv' = o.render ++ argv) : Reads argv' (o :: options) trailing := by
  refine ⟨?_, List.forall_mem_cons.mpr ⟨ho, h.proper⟩, h.trailing⟩
  rw [hargv, h.argv, List.flatMap_cons, List.append_assoc]

/-- An argument that takes no value. -/
theorem Reads.cons_argument {argv trailing : List (List Char)} {options : List CommandOption}
    (h : Reads argv options trailing) {arg : List Char}
    (harg : arg ∉ [portFlag, monitorFlag, encoderFlag]) :
    ∃ options trailing, Reads (arg :: argv) options trailing := by
  by_cases hraw : arg = rawFlag
  · exact ⟨_, _, h.cons (o := .raw) trivial (by rw [hraw]; rfl)⟩
  · have hother : arg ∉ [portFlag, monitorFlag, encoderFlag, rawFlag] := by simp_all
    exact ⟨_, _, h.cons (o := .other arg) hother rfl⟩

/-- Every command line can be read. -/
theorem exists_reads : (argv : List (List Char)) → ∃ options trailing, Reads argv options trailing
  | [] => ⟨[], [], rfl, nofun, by decide⟩
  | [arg] => by
      by_cases harg : arg ∈ [portFlag, monitorFlag, encoderFlag]
      · exact ⟨[], [arg], rfl, nofun, by simp_all [dangling]⟩
      · have hnil : Reads [] [] [] := ⟨rfl, nofun, by decide⟩
        exact hnil.cons_argument harg
  | arg :: value :: argv => by
      obtain ⟨_, _, hrest⟩ := exists_reads argv
      obtain ⟨_, _, hargv⟩ := exists_reads (value :: argv)
      by_cases hport : arg = portFlag
      · exact ⟨_, _, hrest.cons (o := .port value) trivial (by rw [hport]; rfl)⟩
      · by_cases hmonitor : arg = monitorFlag
        · exact ⟨_, _, hrest.cons (o := .monitor value) trivial (by rw [hmonitor]; rfl)⟩
        · by_cases hencoder : arg = encoderFlag
          · exact ⟨_, _, hrest.cons (o := .encoder value) trivial (by rw [hencoder]; rfl)⟩
          · exact hargv.cons_argument (by simp_all)

open CommandOption in
/-- **Command line.**  However it is read, the options, whatever their order and their values,
give the value of the last one of each kind: a value is not taken for an option, and other
arguments, and an option without its value at the end, change nothing. -/
theorem parseArgs_reads (a : Args) (argv : List (List Char)) :
    (∃ options trailing, Reads argv options trailing) ∧
      ∀ options trailing, Reads argv options trailing →
        parseArgs a argv =
          { port := lastOf port? a.port options
            monitor := lastOf monitor? a.monitor options
            keepRaw := a.keepRaw || decide (.raw ∈ options)
            encoder := lastOf encoder? a.encoder options } := by
  refine ⟨exists_reads argv, fun options trailing hreads => ?_⟩
  obtain ⟨rfl, hproper, htrailing⟩ := hreads
  induction options generalizing a with
  | nil => simp [parseArgs_dangling a htrailing, lastOf]
  | cons o options ih =>
      rw [List.forall_mem_cons] at hproper
      obtain ⟨ho, hrest⟩ := hproper
      simp only [List.flatMap_cons, List.append_assoc, lastOf_cons]
      cases o with
      | port value =>
          rw [render, List.cons_append, List.cons_append, List.nil_append, parseArgs, if_pos rfl,
            ih _ hrest]
          simp [port?, monitor?, encoder?]
      | monitor value =>
          rw [render, List.cons_append, List.cons_append, List.nil_append, parseArgs,
            if_neg (by decide), if_pos rfl, ih _ hrest]
          simp [port?, monitor?, encoder?]
      | encoder value =>
          rw [render, List.cons_append, List.cons_append, List.nil_append, parseArgs,
            if_neg (by decide), if_neg (by decide), if_pos rfl, ih _ hrest]
          simp [port?, monitor?, encoder?]
      | raw =>
          rw [render, List.singleton_append, parseArgs_raw, ih _ hrest]
          simp [port?, monitor?, encoder?]
      | other arg =>
          rw [render, List.singleton_append, parseArgs_other a ho, ih _ hrest]
          simp [port?, monitor?, encoder?]

/-- A value that looks like an option, and an option without its value. -/
example : parseArgs {} [encoderFlag, rawFlag, portFlag] = { encoder := rawFlag } := by decide

/-! ## monitor -/

/-- The callback of `ResolveMonitor`, on the monitors in the order they are enumerated in. -/
def findMonitor (idx : UInt64) : List Handle → Option Handle
  | [] => none
  | h :: hs => if idx = 1 then some h else findMonitor (idx - 1) hs

/-- `ResolveMonitor`. -/
def resolveMonitor (primary : Option Handle) (monitors : List Handle) (idx : UInt64) :
    Option Handle :=
  if idx = 0 then primary else findMonitor idx monitors

/-- The monitors are counted from 1. -/
theorem resolveMonitor_of_ne_zero (primary : Option Handle) (monitors : List Handle)
    {idx : UInt64} (h : idx ≠ 0) :
    resolveMonitor primary monitors idx = monitors[idx.toNat - 1]? := by
  rw [resolveMonitor, if_neg h]
  induction monitors generalizing idx with
  | nil => rfl
  | cons m monitors ih =>
      rw [findMonitor]
      have hpos : idx.toNat ≠ 0 := fun hzero => h (UInt64.toNat_inj.mp hzero)
      split
      · next hone => simp [hone]
      · next hone =>
          have hne : idx.toNat ≠ 1 := fun htoNat => hone (UInt64.toNat_inj.mp htoNat)
          have hpred : (idx - 1).toNat = idx.toNat - 1 := by
            rw [UInt64.toNat_sub_of_le idx 1 (UInt64.le_iff_toNat_le.mpr (by
              rw [UInt64.toNat_one]
              omega)), UInt64.toNat_one]
          rw [ih fun hzero => by rw [hzero] at hpred; simp at hpred; omega, hpred,
            List.getElem?_cons, if_neg (by omega)]

/-! ## candidates -/

inductive EncoderName
  | nvenc
  | qsv
  | amf
  | null
  deriving DecidableEq, Repr

/-- `Name`. -/
def EncoderName.name : EncoderName → List Char
  | .nvenc => ['n', 'v', 'e', 'n', 'c']
  | .qsv => ['q', 's', 'v']
  | .amf => ['a', 'm', 'f']
  | .null => ['n', 'u', 'l', 'l']

/-- `AddHw`. -/
def addHw (out : List EncoderName) (enc : EncoderName) (args : Args) : List EncoderName :=
  if args.keepRaw then out
  else if args.encoder ≠ [] ∧ args.encoder ≠ enc.name then out
  else out ++ [enc]

/-- `TWIN_HAVE_QSV` and `TWIN_HAVE_AMF`. -/
structure Build where
  haveQsv : Bool
  haveAmf : Bool

/-- `candidates`. -/
def Build.candidates (b : Build) (args : Args) : List EncoderName :=
  let out := addHw [] .nvenc args
  let out := if b.haveQsv then addHw out .qsv args else out
  if b.haveAmf then addHw out .amf args else out

/-! ## encoders -/

/-- What the calls of an encoder meet with, whichever it is that makes them. -/
structure Outcomes where
  nvLoad : Nvenc.LoadEnv
  nvEncode : Nvenc.EncodeEnv
  nvReconfigure : Bool
  qsvStart : Qsv.StartEnv
  qsvEncode : Qsv.EncodeEnv
  qsvReset : Qsv.MfxStatus
  amfStart : Amf.StartEnv
  amfEncode : Amf.EncodeEnv
  amfTarget : Bool
  amfPeak : Bool
  amfQueries : List Amf.QueryResult

/-- What the loop asks of `enc`. -/
inductive EncoderRequest
  | encode (frame : Frame)
  | resize (size : Size)
  | setBitrate (bitrate : UInt32)
  | requestKeyframe
  deriving DecidableEq

def EncoderRequest.nvenc (o : Outcomes) : EncoderRequest → Nvenc.NvInput
  | .encode frame => .encode frame o.nvEncode
  | .resize size => .resize size o.nvLoad
  | .setBitrate bitrate => .setBitrate bitrate o.nvReconfigure
  | .requestKeyframe => .requestKeyframe

def EncoderRequest.qsv (o : Outcomes) : EncoderRequest → Qsv.QsvInput
  | .encode frame => .encode frame o.qsvEncode
  | .resize size => .resize size o.qsvStart
  | .setBitrate bitrate => .setBitrate bitrate o.qsvReset
  | .requestKeyframe => .requestKeyframe

def EncoderRequest.amf (o : Outcomes) : EncoderRequest → Amf.AmfInput
  | .encode frame => .encode frame o.amfEncode
  | .resize size => .resize size o.amfQueries o.amfStart
  | .setBitrate bitrate => .setBitrate bitrate o.amfTarget o.amfPeak
  | .requestKeyframe => .requestKeyframe

inductive HardwareCall
  | nvenc (c : Nvenc.NvCall)
  | qsv (c : Qsv.QsvCall)
  | amf (c : Amf.AmfCall)

def HardwareCall.nvenc? : HardwareCall → Option Nvenc.NvCall
  | .nvenc c => some c
  | _ => none

def HardwareCall.qsv? : HardwareCall → Option Qsv.QsvCall
  | .qsv c => some c
  | _ => none

def HardwareCall.amf? : HardwareCall → Option Amf.AmfCall
  | .amf c => some c
  | _ => none

/-- Where `main` is with them. -/
inductive EncodersPc
  /-- These are still to be started. -/
  | selecting (candidates : List EncoderName)
  /-- `enc` has been chosen. -/
  | chosen (enc : EncoderName)
  /-- The destructors have run. -/
  | left
  deriving DecidableEq

/-- The encoders of `main`. -/
structure Encoders where
  nvenc : Nvenc.NvEncoder := {}
  qsv : Qsv.QsvEncoder := {}
  amf : Amf.AmfEncoder := {}
  pc : EncodersPc

inductive EncodersInput
  /-- The next candidate is started. -/
  | next (o : Outcomes)
  | request (r : EncoderRequest) (o : Outcomes)
  /-- `main` returns. -/
  | leave (o : Outcomes)

namespace Encoders

def onNvenc (s : Encoders) (i : Nvenc.NvInput) : Bool × Encoders × List HardwareCall :=
  let r := Nvenc.exec i s.nvenc
  (r.1.isSome, { s with nvenc := r.2.1 }, r.2.2.map .nvenc)

def onQsv (s : Encoders) (i : Qsv.QsvInput) : Bool × Encoders × List HardwareCall :=
  let r := Qsv.exec i s.qsv
  (r.1.isSome, { s with qsv := r.2.1 }, r.2.2.map .qsv)

def onAmf (s : Encoders) (i : Amf.AmfInput) : Bool × Encoders × List HardwareCall :=
  let r := Amf.exec i s.amf
  (r.1.isSome, { s with amf := r.2.1 }, r.2.2.map .amf)

/-- `SetD3D11Device`, which only AMF heeds, and `Start`. -/
def start (device : Handle) (size : Size) (s : Encoders) (o : Outcomes) :
    EncoderName → Bool × Encoders × List HardwareCall
  | .nvenc => s.onNvenc (.start size 30 12000000 o.nvLoad)
  | .qsv => s.onQsv (.start size 30 12000000 o.qsvStart)
  | .amf =>
      let r := s.onAmf (.setD3D11Device (some device))
      let r' := r.2.1.onAmf (.start size 30 12000000 o.amfStart)
      (r'.1, r'.2.1, r.2.2 ++ r'.2.2)
  | .null => (true, s, [])

/-- A call on `enc`; what `NullEncoder` does is none of Windows' or the driver's. -/
def request (s : Encoders) (r : EncoderRequest) (o : Outcomes) :
    EncoderName → Encoders × List HardwareCall
  | .nvenc => (s.onNvenc (r.nvenc o)).2
  | .qsv => (s.onQsv (r.qsv o)).2
  | .amf => (s.onAmf (r.amf o)).2
  | .null => (s, [])

/-- The destructors, the last one first. -/
def destroy (s : Encoders) (o : Outcomes) : Encoders × List HardwareCall :=
  let r := s.onAmf (.stop o.amfQueries)
  let r' := r.2.1.onQsv .stop
  let r'' := r'.2.1.onNvenc .stop
  (r''.2.1, r.2.2 ++ r'.2.2 ++ r''.2.2)

/-- One step. -/
def step (device : Handle) (size : Size) (s : Encoders) :
    EncodersInput → Option (Encoders × List HardwareCall)
  | .next o =>
      match s.pc with
      | .selecting (enc :: candidates) =>
          let r := s.start device size o enc
          some ({ r.2.1 with pc := if r.1 then .chosen enc else .selecting candidates }, r.2.2)
      | _ => none
  | .request r o =>
      match s.pc with
      | .chosen enc => some (s.request r o enc)
      | _ => none
  | .leave o =>
      match s.pc with
      | .chosen _ => some ({ (s.destroy o).1 with pc := .left }, (s.destroy o).2)
      | _ => none

end Encoders

/-- The encoders of `main`, for the device and the size of its capture. -/
def encoders (device : Handle) (size : Size) : Machine Encoders EncodersInput HardwareCall where
  step := Encoders.step device size

/-- Where `main` begins; `nullenc` is taken when no candidate starts. -/
def Build.entry (b : Build) (args : Args) : Encoders where
  pc := .selecting (b.candidates args ++ [.null])

/-! ## a library without its API -/

namespace Nvenc

/-- A library, and nothing else, which `Stop` does not free. -/
structure Bare (s : NvEncoder) : Prop where
  api : s.api = false
  configured : s.configured = false
  library : ∃ dll, s.nvencDll = some dll ∧ s.held = {.library dll}

/-- What `main` can have made of an encoder. -/
def Started (s : NvEncoder) : Prop := LoadedInv s ∨ Bare s

variable {s : NvEncoder}

theorem not_bare (h : LoadedInv s) : ¬ Bare s := by
  rintro ⟨hapi, -, dll, hdll, -⟩
  simpa [hapi, hdll] using h.api

theorem loadedInv_start : LoadedInv {} := by
  constructor <;> simp [DeviceInv]

/-- Nothing comes of a call. -/
theorem exec_bare (h : Bare s) {i : NvInput}
    (hi : ∀ size fps bitrate env, i ≠ .start size fps bitrate env) :
    (exec i s).2.2 = [] ∧ Bare (exec i s).2.1 ∧ (exec i s).2.1.held = s.held := by
  obtain ⟨hapi, hconfigured, hlibrary⟩ := h
  cases i with
  | start size fps bitrate env => exact absurd rfl (hi size fps bitrate env)
  | requestKeyframe => exact ⟨rfl, ⟨hapi, hconfigured, hlibrary⟩, rfl⟩
  | encode frame env =>
      have hidle : exec (.encode frame env) s = (none, s, []) := by
        simp [exec, encode, bind, state, check, outcome, hapi]
      rw [hidle]
      exact ⟨rfl, ⟨hapi, hconfigured, hlibrary⟩, rfl⟩
  | setBitrate bitrate ok =>
      have hidle : exec (.setBitrate bitrate ok) s = (none, s, []) := by
        simp [exec, setBitrate, bind, state, check, outcome, hapi]
      rw [hidle]
      exact ⟨rfl, ⟨hapi, hconfigured, hlibrary⟩, rfl⟩
  | resize size env =>
      have hidle : exec (.resize size env) s = (none, s, []) := by
        simp [exec, resize, bind, state, check, outcome, hconfigured]
      rw [hidle]
      exact ⟨rfl, ⟨hapi, hconfigured, hlibrary⟩, rfl⟩
  | stop =>
      have hidle : exec .stop s = (some (), s, []) := by
        simp [exec, stop, bind, state, whenever, pure, hapi]
      rw [hidle]
      exact ⟨rfl, ⟨hapi, hconfigured, hlibrary⟩, rfl⟩

/-- What a `Start` or a `Resize` leaves when it gives up. -/
def Unloaded (dll : Option Handle) (s : NvEncoder) : Prop :=
  s.api = false ∧ s.configured = false ∧ s.nvencDll = dll

theorem wp_start_fails (h : LoadedInv s) (hnone : s.nvencDll = none) (size : Size)
    (fps bitrate : UInt32) (env : LoadEnv) :
    Wp (fun _ => True) (start size fps bitrate env) (fun _ _ => True) (Unloaded env.dll) s := by
  have hapi : s.api = false := by simp [h.api, hnone]
  simp [start, loadApi, Unloaded, hapi, h.configured hapi]

theorem wp_resize_fails (h : LoadedInv s) (hconfigured : s.configured = true) (size : Size)
    (env : LoadEnv) :
    Wp (fun _ => True) (resize size env) (fun _ _ => True) (Unloaded env.dll) s := by
  have hapi : s.api = true := by
    by_contra hnot
    simpa [hconfigured] using h.configured (by simpa using hnot)
  simp [resize, stop, start, loadApi, Unloaded, hconfigured, hapi]

/-- A library that does not give its API. -/
theorem bare_of_startFails {env : LoadEnv} (h : StartFails env s) (hnot : ¬ env.NoneOrAll)
    (hunloaded : Unloaded env.dll s) : Bare s := by
  obtain ⟨hapi, hconfigured, hdll⟩ := hunloaded
  obtain ⟨dll, hsome⟩ := Option.ne_none_iff_exists'.mp (mt h.noneOrAll_iff.mpr hnot)
  exact ⟨hapi, hconfigured, dll, hdll.trans hsome, by rw [h.held, hsome]; rfl⟩

/-- A `Start` of an encoder without a library, or a `Resize`, that is not tidy. -/
theorem bare_untidy (h : LoadedInv s) {i : NvInput} (hnot : ¬ Tidy s i)
    (hnone : ∀ size fps bitrate env, i = .start size fps bitrate env → s.nvencDll = none) :
    (exec i s).1 = none ∧ Bare (exec i s).2.1 ∧
      (exec i s).2.2.foldl (outstanding NvCall.receipt) (some s.held) =
        some (exec i s).2.1.held := by
  have hfails {x : Attempt NvEncoder NvCall Unit} {env : LoadEnv}
      (hall : ¬ env.NoneOrAll)
      (hx : Lossless NvCall.receipt NvEncoder.held x (fun _ s' => LoadedInv s' ∧ env.Loads)
        (StartFails env) s)
      (hwp : Wp (fun _ => True) x (fun _ _ => True) (Unloaded env.dll) s) :
      (x s).1 = none ∧ Bare (x s).2.1 ∧
        (x s).2.2.foldl (outstanding NvCall.receipt) (some s.held) = some (x s).2.1.held := by
    obtain ⟨hbalance, hend⟩ := hx.balance
    cases hresult : (x s).1 with
    | some _ =>
        simp only [hresult] at hend
        exact absurd (fun _ => hend.2) hall
    | none =>
        simp only [hresult] at hend
        simp only [Wp, hresult] at hwp
        exact ⟨rfl, bare_of_startFails hend hall hwp.2, hbalance⟩
  cases i with
  | start size fps bitrate env =>
      have hdll := hnone size fps bitrate env rfl
      exact hfails (fun hall => hnot ⟨hdll, hall⟩) (lossless_start h hdll size fps bitrate env)
        (wp_start_fails h hdll size fps bitrate env)
  | resize size env =>
      obtain ⟨hconfigured, hall⟩ := Classical.not_imp.mp hnot
      apply hfails hall _ (wp_resize_fails h hconfigured size env)
      apply (lossless_resize h size env).mono fun _ _ h' => h'
      intro s' h'
      rwa [if_pos hconfigured] at h'
  | _ => exact absurd trivial hnot

/-- **Step lemma**, of the encoder as `main` uses it. -/
theorem started_step {calls : List NvCall} (h : custody.Books Started s calls) {i : NvInput}
    (hnew : ∀ size fps bitrate env, i = .start size fps bitrate env → s = {}) :
    custody.Books Started (exec i s).2.1 (calls ++ (exec i s).2.2) ∧
      (LoadedInv s → Tidy s i →
        LoadedInv (exec i s).2.1 ∧ custody.EmptyHanded s i) ∧
      (Bare s ∨ ¬ Tidy s i → Bare (exec i s).2.1) := by
  obtain ⟨hstarted, hbalance⟩ := h
  have hnone (size : Size) (fps bitrate : UInt32) (env : LoadEnv)
      (hi : i = .start size fps bitrate env) : s.nvencDll = none := by
    rw [hnew size fps bitrate env hi]
  have hbooks (hledger : (exec i s).2.2.foldl (outstanding NvCall.receipt) (some s.held) =
      some (exec i s).2.1.held) (hstarted' : Started (exec i s).2.1) :
      custody.Books Started (exec i s).2.1 (calls ++ (exec i s).2.2) :=
    ⟨hstarted', by rw [List.foldl_append, hbalance]; exact hledger⟩
  rcases hstarted with hloaded | hbare
  · by_cases htidy : Tidy s i
    · obtain ⟨hledger, hloaded', hempty⟩ := rules.step_keeps hloaded htidy
      exact ⟨hbooks hledger (.inl hloaded'), fun _ _ => ⟨hloaded', hempty⟩,
        fun hor => absurd hor (by simp [not_bare hloaded, htidy])⟩
    · obtain ⟨-, hbare, hledger⟩ := bare_untidy hloaded htidy hnone
      exact ⟨hbooks hledger (.inr hbare), fun _ h => absurd h htidy, fun _ => hbare⟩
  · have hi (size : Size) (fps bitrate : UInt32) (env : LoadEnv) :
        i ≠ .start size fps bitrate env := by
      intro hstart
      obtain ⟨dll, hdll, -⟩ := hbare.library
      simp [hnone size fps bitrate env hstart] at hdll
    obtain ⟨hcalls, hbare', hheld⟩ := exec_bare hbare hi
    refine ⟨hbooks ?_ (.inr hbare'), fun hloaded _ => absurd hbare (not_bare hloaded),
      fun _ => hbare'⟩
    rw [hcalls, hheld]
    rfl

end Nvenc

/-! ## custody -/

namespace Encoders

/-- The books of the three. -/
structure Accounted (s : Encoders) (calls : List HardwareCall) : Prop where
  nvenc : Nvenc.custody.Books Nvenc.Started s.nvenc (calls.filterMap HardwareCall.nvenc?)
  qsv : Qsv.custody.Books Qsv.RuntimeInv s.qsv (calls.filterMap HardwareCall.qsv?)
  amf : Amf.custody.Books Amf.RuntimeInv s.amf (calls.filterMap HardwareCall.amf?)

variable {s s' : Encoders} {calls os : List HardwareCall}

theorem Accounted.onNvenc (h : s.Accounted calls) {i : Nvenc.NvInput}
    (hnew : ∀ size fps bitrate env, i = .start size fps bitrate env → s.nvenc = {}) :
    (s.onNvenc i).2.1.Accounted (calls ++ (s.onNvenc i).2.2) := by
  have hbooks := (Nvenc.started_step h.nvenc hnew).1
  refine ⟨?_, ?_, ?_⟩
  · simpa [Encoders.onNvenc, List.filterMap_map, Function.comp_def, HardwareCall.nvenc?]
      using hbooks
  · simpa [Encoders.onNvenc, List.filterMap_map, Function.comp_def, HardwareCall.qsv?] using h.qsv
  · simpa [Encoders.onNvenc, List.filterMap_map, Function.comp_def, HardwareCall.amf?] using h.amf

theorem Accounted.onQsv (h : s.Accounted calls) {i : Qsv.QsvInput} (htidy : Qsv.Tidy s.qsv i) :
    (s.onQsv i).2.1.Accounted (calls ++ (s.onQsv i).2.2) := by
  have hbooks : Qsv.custody.Books Qsv.RuntimeInv (Qsv.exec i s.qsv).2.1
      (calls.filterMap HardwareCall.qsv? ++ (Qsv.exec i s.qsv).2.2) :=
    (Qsv.rules.books_step h.qsv htidy).1
  refine ⟨?_, ?_, ?_⟩
  · simpa [Encoders.onQsv, List.filterMap_map, Function.comp_def, HardwareCall.nvenc?] using h.nvenc
  · simpa [Encoders.onQsv, List.filterMap_map, Function.comp_def, HardwareCall.qsv?] using hbooks
  · simpa [Encoders.onQsv, List.filterMap_map, Function.comp_def, HardwareCall.amf?] using h.amf

theorem Accounted.onAmf (h : s.Accounted calls) {i : Amf.AmfInput} (htidy : Amf.Tidy s.amf i) :
    (s.onAmf i).2.1.Accounted (calls ++ (s.onAmf i).2.2) := by
  have hbooks : Amf.custody.Books Amf.RuntimeInv (Amf.exec i s.amf).2.1
      (calls.filterMap HardwareCall.amf? ++ (Amf.exec i s.amf).2.2) :=
    ((Amf.rules []).books_step h.amf htidy).1
  refine ⟨?_, ?_, ?_⟩
  · simpa [Encoders.onAmf, List.filterMap_map, Function.comp_def, HardwareCall.nvenc?] using h.nvenc
  · simpa [Encoders.onAmf, List.filterMap_map, Function.comp_def, HardwareCall.qsv?] using h.qsv
  · simpa [Encoders.onAmf, List.filterMap_map, Function.comp_def, HardwareCall.amf?] using hbooks

/-- Moreover the encoders that are not in use hold nothing, save NVENC's library, and those
that are still to be started are new. -/
structure Sound (s : Encoders) (calls : List HardwareCall) : Prop extends s.Accounted calls where
  idleNvenc : s.pc ≠ .chosen .nvenc → s.nvenc.held = 0 ∨ Nvenc.Bare s.nvenc
  idleQsv : s.pc ≠ .chosen .qsv → s.qsv.held = 0
  idleAmf : s.pc ≠ .chosen .amf → s.amf.held = 0
  nodup : ∀ candidates, s.pc = .selecting candidates → candidates.Nodup
  newNvenc : ∀ candidates, s.pc = .selecting candidates → .nvenc ∈ candidates → s.nvenc = {}
  newQsv : ∀ candidates, s.pc = .selecting candidates → .qsv ∈ candidates → s.qsv = {}
  newAmf : ∀ candidates, s.pc = .selecting candidates → .amf ∈ candidates → s.amf = {}

/-- `Start` keeps nothing when it fails, save NVENC's library. -/
theorem idle_start (h : s.Sound calls) {device : Handle} {size : Size} {o : Outcomes}
    {enc : EncoderName} {candidates : List EncoderName}
    (hpc : s.pc = .selecting (enc :: candidates)) :
    (s.start device size o enc).2.1.Accounted (calls ++ (s.start device size o enc).2.2) ∧
      (enc ≠ .nvenc ∨ (s.start device size o enc).1 = false →
        (s.start device size o enc).2.1.nvenc.held = 0 ∨
          Nvenc.Bare (s.start device size o enc).2.1.nvenc) ∧
      (enc ≠ .qsv ∨ (s.start device size o enc).1 = false →
        (s.start device size o enc).2.1.qsv.held = 0) ∧
      (enc ≠ .amf ∨ (s.start device size o enc).1 = false →
        (s.start device size o enc).2.1.amf.held = 0) := by
  have hidleNvenc := h.idleNvenc (by simp [hpc])
  have hidleQsv := h.idleQsv (by simp [hpc])
  have hidleAmf := h.idleAmf (by simp [hpc])
  cases enc with
  | null => exact ⟨by simpa [start] using h.toAccounted, fun _ => hidleNvenc, fun _ => hidleQsv,
      fun _ => hidleAmf⟩
  | nvenc =>
      have hnew := h.newNvenc _ hpc (.head _)
      have hstep := Nvenc.started_step h.nvenc (i := .start size 30 12000000 o.nvLoad)
        fun _ _ _ _ _ => hnew
      refine ⟨h.toAccounted.onNvenc fun _ _ _ _ _ => hnew, fun hfails => ?_, fun _ => hidleQsv,
        fun _ => hidleAmf⟩
      have hnone : (Nvenc.exec (.start size 30 12000000 o.nvLoad) s.nvenc).1 = none := by
        simpa [start, onNvenc] using hfails
      by_cases htidy : Nvenc.Tidy s.nvenc (.start size 30 12000000 o.nvLoad)
      · have hloaded : Nvenc.LoadedInv s.nvenc := by
          rw [hnew]
          exact Nvenc.loadedInv_start
        exact .inl ((hstep.2.1 hloaded htidy).2 trivial hnone)
      · exact .inr (hstep.2.2 (.inr htidy))
  | qsv =>
      have htidy : Qsv.Tidy s.qsv (.start size 30 12000000 o.qsvStart) := by
        rw [h.newQsv _ hpc (.head _)]
        rfl
      refine ⟨h.toAccounted.onQsv htidy, fun _ => hidleNvenc, fun hfails => ?_, fun _ => hidleAmf⟩
      have hnone : (Qsv.exec (.start size 30 12000000 o.qsvStart) s.qsv).1 = none := by
        simpa [start, onQsv] using hfails
      exact (Qsv.rules.books_step h.qsv htidy).2 trivial hnone
  | amf =>
      have hdevice := h.toAccounted.onAmf (i := .setD3D11Device (some device)) trivial
      have htidy : Amf.Tidy (s.onAmf (.setD3D11Device (some device))).2.1.amf
          (.start size 30 12000000 o.amfStart) := by
        have hnew := h.newAmf _ hpc (.head _)
        simp [onAmf, hnew, Amf.exec, update, Amf.Tidy]
      refine ⟨?_, fun _ => hidleNvenc, fun _ => hidleQsv, fun hfails => ?_⟩
      · simpa [start, List.append_assoc] using hdevice.onAmf htidy
      · have hnone : (Amf.exec (.start size 30 12000000 o.amfStart)
            (s.onAmf (.setD3D11Device (some device))).2.1.amf).1 = none := by
          simpa [start, onAmf] using hfails
        exact ((Amf.rules []).books_step hdevice.amf htidy).2 trivial hnone

/-- What is left to be started has not changed. -/
theorem start_others (device : Handle) (size : Size) (s : Encoders) (o : Outcomes)
    (enc : EncoderName) :
    (enc ≠ .nvenc → (s.start device size o enc).2.1.nvenc = s.nvenc) ∧
      (enc ≠ .qsv → (s.start device size o enc).2.1.qsv = s.qsv) ∧
      (enc ≠ .amf → (s.start device size o enc).2.1.amf = s.amf) := by
  cases enc <;> simp [start, onNvenc, onQsv, onAmf]

/-- A candidate is started. -/
theorem sound_next (h : s.Sound calls) {device : Handle} {size : Size} {o : Outcomes}
    {enc : EncoderName} {candidates : List EncoderName}
    (hpc : s.pc = .selecting (enc :: candidates)) :
    { (s.start device size o enc).2.1 with
      pc := if (s.start device size o enc).1 then .chosen enc else .selecting candidates }.Sound
        (calls ++ (s.start device size o enc).2.2) := by
  obtain ⟨hnot, hnodup⟩ := List.nodup_cons.mp (h.nodup _ hpc)
  obtain ⟨haccounted, hnvenc, hqsv, hamf⟩ := @idle_start s calls h device size o enc candidates hpc
  obtain ⟨hnvenc', hqsv', hamf'⟩ := start_others device size s o enc
  have hold {e : EncoderName} (he : e ∈ candidates) : enc ≠ e := by
    rintro rfl
    exact hnot he
  cases hok : (s.start device size o enc).1 with
  | true =>
      refine ⟨⟨haccounted.nvenc, haccounted.qsv, haccounted.amf⟩, ?_, ?_, ?_, ?_, ?_, ?_, ?_⟩
      all_goals simp_all
  | false =>
      refine ⟨⟨haccounted.nvenc, haccounted.qsv, haccounted.amf⟩, fun _ => hnvenc (.inr hok),
        fun _ => hqsv (.inr hok), fun _ => hamf (.inr hok), ?_, ?_, ?_, ?_⟩
      · rintro _ ⟨rfl⟩
        exact hnodup
      · rintro _ ⟨rfl⟩ hmem
        exact (hnvenc' (hold hmem)).trans (h.newNvenc _ hpc (.tail _ hmem))
      · rintro _ ⟨rfl⟩ hmem
        exact (hqsv' (hold hmem)).trans (h.newQsv _ hpc (.tail _ hmem))
      · rintro _ ⟨rfl⟩ hmem
        exact (hamf' (hold hmem)).trans (h.newAmf _ hpc (.tail _ hmem))

/-- The chosen one is asked. -/
theorem sound_request (h : s.Sound calls) {enc : EncoderName} (hpc : s.pc = .chosen enc)
    (r : EncoderRequest) (o : Outcomes) :
    (s.request r o enc).1.Sound (calls ++ (s.request r o enc).2) := by
  have hselecting {candidates : List EncoderName} : s.pc ≠ .selecting candidates := by simp [hpc]
  cases enc with
  | null => simpa [request] using h
  | nvenc =>
      refine ⟨h.toAccounted.onNvenc (by cases r <;> nofun), fun hne => absurd hpc hne,
        h.idleQsv, h.idleAmf, ?_, ?_, ?_, ?_⟩
      all_goals exact fun _ hsel => absurd hsel hselecting
  | qsv =>
      refine ⟨h.toAccounted.onQsv (by cases r <;> trivial), h.idleNvenc,
        fun hne => absurd hpc hne, h.idleAmf, ?_, ?_, ?_, ?_⟩
      all_goals exact fun _ hsel => absurd hsel hselecting
  | amf =>
      refine ⟨h.toAccounted.onAmf (by cases r <;> trivial), h.idleNvenc, h.idleQsv,
        fun hne => absurd hpc hne, ?_, ?_, ?_, ?_⟩
      all_goals exact fun _ hsel => absurd hsel hselecting

/-- `main` returns. -/
theorem sound_leave (h : s.Sound calls) (o : Outcomes) :
    { (s.destroy o).1 with pc := .left }.Sound (calls ++ (s.destroy o).2) := by
  have hamf := h.toAccounted.onAmf (i := .stop o.amfQueries) trivial
  have hqsv := hamf.onQsv (i := .stop) trivial
  have hnvenc := hqsv.onNvenc (i := .stop) nofun
  refine ⟨?_, fun _ => ?_, fun _ => ?_, fun _ => ?_, nofun, nofun, nofun, nofun⟩
  · have haccounted : (s.destroy o).1.Accounted (calls ++ (s.destroy o).2) := by
      simpa [destroy, List.append_assoc] using hnvenc
    exact ⟨haccounted.nvenc, haccounted.qsv, haccounted.amf⟩
  · rcases hqsv.nvenc.good with hloaded | hbare
    · exact .inl (Nvenc.rules.held_last hloaded)
    · exact .inr (Nvenc.exec_bare hbare fun _ _ _ _ => by simp).2.1
  · exact Qsv.rules.held_last hamf.qsv.good
  · exact (Amf.rules o.amfQueries).held_last h.amf.good

/-- What a step does. -/
inductive Does (device : Handle) (size : Size) (s : Encoders) :
    EncodersInput → Encoders → List HardwareCall → Prop
  | next (o : Outcomes) (enc : EncoderName) (candidates : List EncoderName)
      (hpc : s.pc = .selecting (enc :: candidates)) :
      Does device size s (.next o)
        { (s.start device size o enc).2.1 with
          pc := if (s.start device size o enc).1 then .chosen enc else .selecting candidates }
        (s.start device size o enc).2.2
  | request (r : EncoderRequest) (o : Outcomes) (enc : EncoderName) (hpc : s.pc = .chosen enc) :
      Does device size s (.request r o) (s.request r o enc).1 (s.request r o enc).2
  | leave (o : Outcomes) (enc : EncoderName) (hpc : s.pc = .chosen enc) :
      Does device size s (.leave o) { (s.destroy o).1 with pc := .left } (s.destroy o).2

theorem does_of_step {device : Handle} {size : Size} {i : EncodersInput}
    (hstep : s.step device size i = some (s', os)) : Does device size s i s' os := by
  unfold step at hstep
  cases i with
  | next o =>
      dsimp only at hstep
      split at hstep
      · next enc candidates hpc =>
          cases hstep
          exact .next o enc candidates hpc
      · contradiction
  | request r o =>
      dsimp only at hstep
      split at hstep
      · next enc hpc =>
          have hdoes : Does device size s (.request r o) (s.request r o enc).1
              (s.request r o enc).2 := .request r o enc hpc
          rwa [Option.some.inj hstep] at hdoes
      · contradiction
  | leave o =>
      dsimp only at hstep
      split at hstep
      · next enc hpc =>
          cases hstep
          exact .leave o enc hpc
      · contradiction

/-- **Step lemma**, of custody. -/
theorem sound_step (h : s.Sound calls) {device : Handle} {size : Size} {i : EncodersInput}
    (hstep : s.step device size i = some (s', os)) : s'.Sound (calls ++ os) := by
  cases does_of_step hstep with
  | next o enc candidates hpc => exact sound_next h hpc
  | request r o enc hpc => exact sound_request h hpc r o
  | leave o enc hpc => exact sound_leave h o

theorem nodup_candidates (b : Build) (args : Args) :
    (b.candidates args ++ [EncoderName.null]).Nodup := by
  unfold Build.candidates addHw
  cases b.haveQsv <;> cases b.haveAmf <;> split_ifs <;> decide

theorem sound_entry (b : Build) (args : Args) : (b.entry args).Sound [] where
  nvenc := ⟨.inl Nvenc.loadedInv_start, rfl⟩
  qsv := ⟨by constructor <;> simp [Build.entry], rfl⟩
  amf := ⟨fun _ => rfl, rfl⟩
  idleNvenc _ := .inl rfl
  idleQsv _ := rfl
  idleAmf _ := rfl
  nodup := by
    rintro _ ⟨rfl⟩
    exact nodup_candidates b args
  newNvenc _ _ _ := rfl
  newQsv _ _ _ := rfl
  newAmf _ _ _ := rfl

theorem sound_run {b : Build} {args : Args} {device : Handle} {size : Size}
    {inputs : List EncodersInput}
    (hrun : (encoders device size).run (b.entry args) inputs = some (s, calls)) : s.Sound calls :=
  @(encoders device size).run_invariant _ _ _ (fun s tr => s.Sound tr) (fun _ _ => True)
    (fun _ _ _ _ _ h _ hstep => sound_step h hstep) inputs (b.entry args) s [] calls
    (sound_entry b args) ((encoders device size).along_true _ inputs) hrun

/-- NVENC's library, where one is loaded, gives its API. -/
def ApiGiven (s : Encoders) : EncodersInput → Prop
  | .next o => (∃ candidates, s.pc = .selecting (.nvenc :: candidates)) → o.nvLoad.NoneOrAll
  | .request (.resize _) o => s.pc = .chosen .nvenc → s.nvenc.configured = true → o.nvLoad.NoneOrAll
  | _ => True

/-- **Step lemma**, of the library. -/
theorem loadedInv_step (h : s.Sound calls) {device : Handle} {size : Size} {i : EncodersInput}
    (hstep : s.step device size i = some (s', os)) :
    (Nvenc.LoadedInv s.nvenc → s.ApiGiven i → Nvenc.LoadedInv s'.nvenc) ∧
      (Nvenc.Bare s.nvenc ∨ ¬ s.ApiGiven i → Nvenc.Bare s'.nvenc) := by
  have hsame (hnvenc : s'.nvenc = s.nvenc) (hgiven : s.ApiGiven i) :
      (Nvenc.LoadedInv s.nvenc → s.ApiGiven i → Nvenc.LoadedInv s'.nvenc) ∧
        (Nvenc.Bare s.nvenc ∨ ¬ s.ApiGiven i → Nvenc.Bare s'.nvenc) := by
    rw [hnvenc]
    exact ⟨fun hloaded _ => hloaded, fun hor => hor.resolve_right (not_not.mpr hgiven)⟩
  have hasked {j : Nvenc.NvInput} (hnvenc : s'.nvenc = (Nvenc.exec j s.nvenc).2.1)
      (hnew : ∀ size fps bitrate env, j = .start size fps bitrate env → s.nvenc = {})
      (hgiven : s.ApiGiven i ↔ Nvenc.Tidy s.nvenc j) :
      (Nvenc.LoadedInv s.nvenc → s.ApiGiven i → Nvenc.LoadedInv s'.nvenc) ∧
        (Nvenc.Bare s.nvenc ∨ ¬ s.ApiGiven i → Nvenc.Bare s'.nvenc) := by
    rw [hnvenc, hgiven]
    obtain ⟨-, hloaded, hbare⟩ := Nvenc.started_step h.nvenc hnew
    exact ⟨fun h htidy => (hloaded h htidy).1, hbare⟩
  cases does_of_step hstep with
  | next o enc candidates hpc =>
      by_cases henc : enc = .nvenc
      · subst henc
        have hnew := h.newNvenc _ hpc (.head _)
        refine @hasked (.start size 30 12000000 o.nvLoad) rfl (fun _ _ _ _ _ => hnew) ?_
        simp [ApiGiven, hpc, Nvenc.Tidy, hnew]
      · refine hsame ((start_others device size s o enc).1 henc) ?_
        simp [ApiGiven, hpc, henc]
  | request r o enc hpc =>
      cases enc with
      | nvenc =>
          refine @hasked (r.nvenc o) rfl (by cases r <;> nofun) ?_
          cases r <;> simp [ApiGiven, hpc, Nvenc.Tidy, EncoderRequest.nvenc]
      | qsv | amf | null =>
          refine hsame rfl ?_
          cases r <;> simp [ApiGiven, hpc]
  | leave o enc hpc => exact @hasked .stop rfl (fun _ _ _ _ => nofun) Iff.rfl

end Encoders

open Encoders in
/-- **Custody while an encoder is used.**  Whatever the command line, the build and the calls'
outcomes: at any time what is outstanding of an encoder's calls is what it holds, and every
encoder but the chosen one holds nothing; a candidate that has failed has given everything back
before the next one is started.  NVENC may keep a library that does not give its API. -/
theorem encoders_hold {b : Build} {args : Args} {device : Handle} {size : Size}
    {inputs : List EncodersInput} {s : Encoders} {calls : List HardwareCall}
    (hrun : (encoders device size).run (b.entry args) inputs = some (s, calls)) :
    (calls.filterMap HardwareCall.nvenc?).foldl (outstanding Nvenc.NvCall.receipt) (some 0) =
        some s.nvenc.held ∧
      (calls.filterMap HardwareCall.qsv?).foldl (outstanding Qsv.QsvCall.receipt) (some 0) =
        some s.qsv.held ∧
      (calls.filterMap HardwareCall.amf?).foldl (outstanding Amf.AmfCall.receipt) (some 0) =
        some s.amf.held ∧
      (s.pc ≠ .chosen .nvenc → s.nvenc.held = 0 ∨ ∃ dll, s.nvenc.held = {.library dll}) ∧
      (s.pc ≠ .chosen .qsv → s.qsv.held = 0) ∧ (s.pc ≠ .chosen .amf → s.amf.held = 0) := by
  have hsound := sound_run hrun
  refine ⟨hsound.nvenc.balance, hsound.qsv.balance, hsound.amf.balance, fun hne => ?_,
    hsound.idleQsv, hsound.idleAmf⟩
  rcases hsound.idleNvenc hne with hnothing | hbare
  · exact .inl hnothing
  · obtain ⟨dll, -, hheld⟩ := hbare.library
    exact .inr ⟨dll, hheld⟩

/-- Quick Sync does not load, and AMF does. -/
def amfOnly : Outcomes where
  nvLoad := ⟨none, false, false⟩
  nvEncode := ⟨none, false, none, none, none, false, none⟩
  nvReconfigure := false
  qsvStart := ⟨fun _ => ⟨none, false, false, false, false, false, false, false⟩, none, none,
    ⟨.errNone, false, false⟩⟩
  qsvEncode := ⟨⟨false, none⟩, .errNone, false, .errNone, []⟩
  qsvReset := .errNone
  amfStart := ⟨some 1, true, true, some 2, true, some 3, fun _ => true, true, true,
    fun i => some (10 + i), fun i => some (20 + i), []⟩
  amfEncode := ⟨⟨true, some 7680⟩, true, fun _ => .ok, fun _ => .again, .buffer [0, 0, 1, 0x65]⟩
  amfTarget := true
  amfPeak := true
  amfQueries := []

/-- A library that does not give its API, and then AMF. -/
def bareLibrary : Outcomes := { amfOnly with nvLoad := ⟨some 1, false, false⟩ }

/-- The search ends with the third candidate, which is used. -/
def amfRun : List EncodersInput :=
  [.next bareLibrary, .next amfOnly, .next amfOnly, .request .requestKeyframe amfOnly]

theorem encoders_hold_amfRun :
    ∃ s calls, (encoders 7 (1920, 1080)).run (Build.entry ⟨true, true⟩ {}) amfRun =
        some (s, calls) ∧
      s.pc = .chosen .amf ∧ s.qsv.held = 0 := by
  have hrun : ((encoders 7 (1920, 1080)).run (Build.entry ⟨true, true⟩ {}) amfRun).map
      (fun r => r.1.pc) = some (.chosen .amf) := by decide +kernel
  obtain ⟨⟨s, calls⟩, hrun, hpc⟩ := Option.map_eq_some_iff.mp hrun
  refine ⟨s, calls, hrun, hpc, (encoders_hold hrun).2.2.2.2.1 ?_⟩
  rw [show s.pc = .chosen .amf from hpc]
  decide

open Encoders in
/-- **Custody of a whole run.**  When `main` returns, everything that Quick Sync and AMF have
acquired has been released, once; and everything of NVENC's exactly when each library that was
loaded on the way, by its `Start` or by a `Resize` in the loop, has given its API. -/
theorem encoders_released_iff {b : Build} {args : Args} {device : Handle} {size : Size}
    {inputs : List EncodersInput} {s : Encoders} {calls : List HardwareCall}
    (hrun : (encoders device size).run (b.entry args) inputs = some (s, calls))
    (hleft : s.pc = .left) :
    (calls.filterMap HardwareCall.qsv?).foldl (outstanding Qsv.QsvCall.receipt) (some 0) = some 0 ∧
      (calls.filterMap HardwareCall.amf?).foldl (outstanding Amf.AmfCall.receipt) (some 0) =
        some 0 ∧
      ((calls.filterMap HardwareCall.nvenc?).foldl (outstanding Nvenc.NvCall.receipt) (some 0) =
          some 0 ↔
        (encoders device size).Along ApiGiven (b.entry args) inputs) := by
  have hsound := sound_run hrun
  have hnvenc : (calls.filterMap HardwareCall.nvenc?).foldl (outstanding Nvenc.NvCall.receipt)
      (some 0) = some s.nvenc.held := hsound.nvenc.balance
  have hqsv : (calls.filterMap HardwareCall.qsv?).foldl (outstanding Qsv.QsvCall.receipt)
      (some 0) = some s.qsv.held := hsound.qsv.balance
  have hamf : (calls.filterMap HardwareCall.amf?).foldl (outstanding Amf.AmfCall.receipt)
      (some 0) = some s.amf.held := hsound.amf.balance
  have hheld : s.nvenc.held = 0 ↔ ¬ Nvenc.Bare s.nvenc := by
    constructor
    · rintro hzero ⟨-, -, dll, -, hlibrary⟩
      simp [hlibrary] at hzero
    · exact fun hnot => (hsound.idleNvenc (by simp [hleft])).resolve_right hnot
  have hend : ((∃ calls, s.Sound calls) ∧ Nvenc.LoadedInv s.nvenc) ↔ ¬ Nvenc.Bare s.nvenc :=
    ⟨fun h => Nvenc.not_bare h.2,
      fun hnot => ⟨⟨_, hsound⟩, hsound.nvenc.good.resolve_right hnot⟩⟩
  have halong := @(encoders device size).final_iff_along _ _ _ (fun s => ∃ calls, s.Sound calls)
    (fun s => (∃ calls, s.Sound calls) ∧ Nvenc.LoadedInv s.nvenc) (fun s => Nvenc.Bare s.nvenc)
    ApiGiven (fun _ _ _ _ ⟨_, h⟩ hstep => ⟨_, sound_step h hstep⟩)
    (fun _ _ _ _ ⟨⟨_, h⟩, hloaded⟩ hgiven hstep =>
      ⟨⟨_, sound_step h hstep⟩, (loadedInv_step h hstep).1 hloaded hgiven⟩)
    (fun _ _ _ _ ⟨_, h⟩ hor hstep => (loadedInv_step h hstep).2 hor) inputs (b.entry args) s calls
    ⟨_, sound_entry b args⟩ ⟨⟨_, sound_entry b args⟩, Nvenc.loadedInv_start⟩ hrun hend
  rw [hnvenc, hqsv, hamf, hsound.idleQsv (by simp [hleft]), hsound.idleAmf (by simp [hleft]),
    ← halong, hend, ← hheld]
  exact ⟨rfl, rfl, by simp⟩

/-- The run goes on to the return of `main`. -/
theorem encoders_released_iff_amfRun :
    ∃ s calls, (encoders 7 (1920, 1080)).run (Build.entry ⟨true, true⟩ {})
        (amfRun ++ [.leave amfOnly]) = some (s, calls) ∧
      ((calls.filterMap HardwareCall.nvenc?).foldl (outstanding Nvenc.NvCall.receipt) (some 0) =
          some 0 ↔
        (encoders 7 (1920, 1080)).Along Encoders.ApiGiven (Build.entry ⟨true, true⟩ {})
          (amfRun ++ [.leave amfOnly])) := by
  have hrun : ((encoders 7 (1920, 1080)).run (Build.entry ⟨true, true⟩ {})
      (amfRun ++ [.leave amfOnly])).map (fun r => r.1.pc) = some .left := by decide +kernel
  obtain ⟨⟨s, calls⟩, hrun, hleft⟩ := Option.map_eq_some_iff.mp hrun
  exact ⟨s, calls, hrun, (encoders_released_iff hrun hleft).2.2⟩

end TwinScreen.Host
