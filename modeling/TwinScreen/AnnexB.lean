import TwinScreen.Host.Nal
import TwinScreen.Tablet.Player

/-!
# TwinScreen.AnnexB

The stream between the encoder and the decoder: `SplitAnnexB` takes the start
codes off on the host, and the tablet's `feedLoop` puts them back.

* `splitAnnexB_faithful` — the NALs are the stream, and the decoder sees them
  unchanged.
-/

namespace TwinScreen

open Lib Host Tablet

/-- The tablet writes long start codes. -/
theorem annexB_eq (nals : List (List UInt8)) : annexB nals = nals.flatMap (longCode ++ ·) := rfl

/-- NALs without start codes in them survive the way to the decoder. -/
theorem splitAnnexB_annexB {nals : List (List UInt8)} (h : ∀ nal ∈ nals, CodeFree nal) :
    splitAnnexB (annexB nals) = nals := by
  rw [splitAnnexB_eq_scan, annexB_eq, scan_flatMap_longCode h]

/-- **NALs**: no byte of the stream is lost between start codes, and the decoder gets
the same NALs. -/
theorem splitAnnexB_faithful (d : List UInt8) :
    (∀ nal ∈ splitAnnexB d, ¬ [0, 0, 1] <:+: nal) ∧
      ((splitAnnexB d = [] ∧ fromCode d = []) ∨
        ∃ first later, splitAnnexB d = first :: later.map Prod.snd ∧
          fromCode d = [0, 0, 1] ++ first ++ stream later) ∧
      splitAnnexB (annexB (splitAnnexB d)) = splitAnnexB d := by
  rw [splitAnnexB_annexB]
  · rw [splitAnnexB_eq_scan]
    exact ⟨codeFree_of_mem_scan d, scan_stream d, rfl⟩
  · rw [splitAnnexB_eq_scan]
    exact codeFree_of_mem_scan d

end TwinScreen
