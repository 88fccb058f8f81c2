-- SUMMARY: Each source has exactly one tiling by longest segments, and a scan gives what that tiling gives.
import Mathlib.Logic.ExistsUnique
import ScriptScan.Proofs.Scan.Run

/-! # Tilings of a source -/

namespace ScriptScan

/-- `Tiles ss text`: from left to right, each of `ss` is the longest segment that fits there, and nothing is
left. -/
inductive Tiles : List Segment → List Char → Prop
  | nil : Tiles [] []
  | cons {s : Segment} {ss : List Segment} {rest text : List Char} :
      s.Longest rest text → Tiles ss rest → Tiles (s :: ss) text

theorem Tiles.eq_segments {ss : List Segment} {text : List Char} (h : Tiles ss text) : ss = segments text := by
  induction h with
  | nil => rw [segments]
  | @cons s ss rest text hlongest _ ih =>
    cases text with
    | nil =>
      have hnil := (List.append_eq_nil_iff.mp hlongest.text_append).1
      exact absurd hnil hlongest.fits.text_ne_nil
    | cons c cs =>
      have hread := Segment.longest_iff.mp hlongest
      rw [segments, hread, ← ih]

theorem tiles_segments (text : List Char) : Tiles (segments text) text := by
  induction text using segments.induct with
  | case1 =>
    rw [segments]
    exact .nil
  | case2 c cs ih =>
    rw [segments]
    exact .cons (Segment.longest_iff.mpr rfl) ih

theorem Tiles.text_ne_nil {ss : List Segment} {text : List Char} (h : Tiles ss text) :
    ∀ s ∈ ss, s.text ≠ [] := by
  induction h with
  | nil => simp
  | cons hlongest _ ih =>
    intro s hs
    rcases List.mem_cons.mp hs with rfl | hs
    · exact hlongest.fits.text_ne_nil
    · exact ih s hs

/-- A source has one tiling. Its segments are not empty and make up the source, and the tokens and diagnostics
of a scan are what they give, each for the line on which it ends. -/
theorem scan_eq_tiling (source : String) :
    (∃! ss, Tiles ss source.toList) ∧
      ∀ ss, Tiles ss source.toList →
        (∀ s ∈ ss, s.text ≠ []) ∧ ss.flatMap Segment.text = source.toList ∧
        (scan source).tokens.toList = tokensFrom 1 ss ++ [.endAt (1 + source.toList.count '\n')] ∧
        (scan source).diagnostics = (findingsFrom 1 ss).map Finding.diagnostic ∧
        (scan source).erred = !(findingsFrom 1 ss).isEmpty := by
  refine ⟨⟨segments source.toList, tiles_segments _, fun ss h => h.eq_segments⟩, ?_⟩
  intro ss h
  obtain rfl := h.eq_segments
  refine ⟨h.text_ne_nil, joined_segments _, ?_, diagnostics_scan source, ?_⟩
  · exact tokens_scanInto source _
  · exact erred_scanInto source _

end ScriptScan
