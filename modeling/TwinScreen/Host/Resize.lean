import TwinScreen.Host.Amf
import TwinScreen.Host.Nvenc
import TwinScreen.Host.Qsv

/-!
# TwinScreen.Host.Resize

What is left of an encoder whose `Resize` returned false, as the main loop meets it
when it logs "cannot resize" and stays native: in all three implementations the old
session is given up before the steps that can fail.
-/

namespace TwinScreen.Host

/-- **A Resize that returns false** leaves an encoder that still yields frames at its
size, rate and bitrate: for NVENC, exactly when it was not configured yet and can still
open a session, or the API loads again and nothing fails; for QSV and AMF, exactly when
nothing fails. -/
theorem resize_failure_keeps_iff (nvenc : Nvenc.NvEncoder) (qsv : Qsv.QsvEncoder)
    (amf : Amf.AmfEncoder) (size : Size) (load : Nvenc.LoadEnv) (qsvStart : Qsv.StartEnv)
    (queries : List Amf.QueryResult) (amfStart : Amf.StartEnv) :
    (((Nvenc.resize size load nvenc).1 = none →
        Nvenc.view.Kept nvenc (Nvenc.resize size load nvenc).2.1) ↔
      if nvenc.configured then load.Loads else nvenc.api = true ∧ Nvenc.OpensFirst nvenc) ∧
    (((Qsv.resize size qsvStart qsv).1 = none →
        Qsv.view.Kept qsv (Qsv.resize size qsvStart qsv).2.1) ↔
      qsv.session.isSome ∧ qsv.configured = true ∧ qsvStart.Works size qsv.fps qsv.bitrate) ∧
    (((Amf.resize size queries amfStart amf).1 = none →
        Amf.view.Kept amf (Amf.resize size queries amfStart amf).2.1) ↔
      amf.encoder.isSome ∧ amf.device.isSome ∧ amfStart.Works size) :=
  ⟨Nvenc.resize_keeps_iff size load, Qsv.resize_keeps_iff size qsvStart,
    Amf.resize_keeps_iff size queries amfStart⟩

/-! ## running encoders that lose their session -/

/-- A Quick Sync runtime without failures, and one that gives no second session. -/
def Qsv.workingStart : Qsv.StartEnv where
  runtime _ := ⟨some 1, true, true, true, true, true, true, true⟩
  initEx := some 2
  initExRetry := none
  configure := ⟨.errNone, true, true⟩

def Qsv.sessionRefused : Qsv.StartEnv := { Qsv.workingStart with initEx := none }

/-- An AMF runtime without failures, and one that gives no second component. -/
def Amf.workingStart : Amf.StartEnv where
  dll := some 1
  exported := true
  amfInit := true
  ctx := some 2
  initDX11 := true
  component := some 3
  property _ := true
  initComponent := true
  nv12 := true
  texture i := some (10 + i)
  surface i := some (20 + i)
  queries := []

def Amf.componentRefused : Amf.StartEnv := { Amf.workingStart with component := none }

/-- Each encoder, started at 1920 x 1080 and then refused its new session. -/
theorem resize_failure_loses_session :
    (¬ ∀ s calls, Nvenc.nvEncoder.run {} [.start (1920, 1080) 30 12000000 Nvenc.workingLoad,
        .encode Nvenc.someFrame Nvenc.workingEncode] = some (s, calls) →
      (Nvenc.resize (1440, 810) ⟨none, true, true⟩ s).1 = none →
      Nvenc.view.Kept s (Nvenc.resize (1440, 810) ⟨none, true, true⟩ s).2.1) ∧
    (¬ ∀ s calls, Qsv.qsvEncoder.run {} [.start (1920, 1080) 30 12000000 Qsv.workingStart] =
        some (s, calls) →
      (Qsv.resize (1440, 810) Qsv.sessionRefused s).1 = none →
      Qsv.view.Kept s (Qsv.resize (1440, 810) Qsv.sessionRefused s).2.1) ∧
    ¬ ∀ s calls, Amf.amfEncoder.run {} [.setD3D11Device (some 7),
        .start (1920, 1080) 30 12000000 Amf.workingStart] = some (s, calls) →
      (Amf.resize (1440, 810) [] Amf.componentRefused s).1 = none →
      Amf.view.Kept s (Amf.resize (1440, 810) [] Amf.componentRefused s).2.1 := by
  refine ⟨fun h => ?_, fun h => ?_, fun h => ?_⟩
  · have hloads : Nvenc.LoadEnv.Loads ⟨none, true, true⟩ :=
      (Nvenc.resize_keeps_iff (1440, 810) ⟨none, true, true⟩).mp (h _ _ rfl)
    exact absurd hloads.1 (by decide)
  · have hworks := (Qsv.resize_keeps_iff (1440, 810) Qsv.sessionRefused).mp (h _ _ rfl)
    exact absurd hworks.2.2.initEx (by decide)
  · have hworks := (Amf.resize_keeps_iff (1440, 810) [] Amf.componentRefused).mp (h _ _ rfl)
    exact absurd hworks.2.2.creates.component (by decide)

end TwinScreen.Host
