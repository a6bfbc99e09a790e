import TwinScreen.Host.AmfHandles
import TwinScreen.Host.NvencHandles
import TwinScreen.Host.QsvHandles

/-!
# TwinScreen.Host.Handles

The handles of the three hardware encoders: what a `Start` that fails leaves behind, and
what the destructor's `Stop` gives back.

* `handles_released_iff` — in which runs each encoder gives all of them back.
-/

namespace TwinScreen.Host

open Lib

/-- **Handles**: over a run of calls on a new encoder, with any outcomes, a `Start` that fails
keeps neither handles nor buffers, every handle is given back exactly once by the time of
the destructor's `Stop`, and a second `Stop` does nothing, exactly when

* with NVENC, no `Start` finds a library loaded, and no library is loaded that does not give
  the API;
* with Quick Sync and AMF, no `Start` finds a library loaded, and none that fails finds
  buffers or has got one. -/
theorem handles_released_iff (nvInputs : List Nvenc.NvInput) (qsvInputs : List Qsv.QsvInput)
    (amfInputs : List Amf.AmfInput) (queries : List Amf.QueryResult) :
    (Nvenc.custody.Released .stop (fun _ => True) {} nvInputs ↔
        Nvenc.nvEncoder.Along Nvenc.Tidy {} nvInputs) ∧
      (Qsv.custody.Released .stop Qsv.NoBuffers {} qsvInputs ↔
        Qsv.qsvEncoder.Along (fun s i => Qsv.Tidy s i ∧ Qsv.BuffersFreed s i) {} qsvInputs) ∧
      (Amf.custody.Released (.stop queries) Amf.NoBuffers {} amfInputs ↔
        Amf.amfEncoder.Along (fun s i => Amf.Tidy s i ∧ Amf.BuffersFreed s i) {} amfInputs) :=
  ⟨Nvenc.released_iff nvInputs, Qsv.released_iff qsvInputs, Amf.released_iff queries amfInputs⟩

/-- A driver library without `NvEncodeAPICreateInstance`. -/
def noCreate : Nvenc.LoadEnv := ⟨some 1, false, false⟩

/-- NVENC keeps a library that has no entry point, and `Stop` does not free it: the `Start`
fails with the handle, which is still outstanding after the destructor. -/
theorem library_leaked :
    (Nvenc.start (1920, 1080) 30 8000000 noCreate {}).1 = none ∧
      (Nvenc.start (1920, 1080) 30 8000000 noCreate {}).2.1.held = {.library 1} ∧
      (∃ s calls, Nvenc.nvEncoder.run {} [.start (1920, 1080) 30 8000000 noCreate, .stop] =
          some (s, calls) ∧
        calls.foldl (outstanding Nvenc.NvCall.receipt) (some 0) = some {.library 1}) ∧
      ¬ Nvenc.custody.Released .stop (fun _ => True) {}
        [.start (1920, 1080) 30 8000000 noCreate] := by
  refine ⟨rfl, by decide, ⟨_, _, rfl, by decide⟩, fun h => ?_⟩
  have hreleased := h.released _ _ rfl
  exact absurd hreleased (by decide)

end TwinScreen.Host
