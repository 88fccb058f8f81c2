-- SUMMARY: A scan of a longer text begins as the scan of its beginning does, but for the last two tokens of that.
import ScriptScan.Proofs.Scan.Division
import ScriptScan.Proofs.Scan.Automaton

/-!
# Scans of a text that goes on

A segment can change only if the text ends behind it, or a point does: then what comes next may lengthen it. So all
but the last two segments stay. Two may go at once, since digits and a point become one number when a digit follows.
An unexpected character stays one whatever follows.
-/

namespace ScriptScan

/-! ## Segments -/

theorem segments_point : segments ['.'] = [.fixed .dot] := by
  have hread : Segment.read '.' [] = (.fixed .dot, []) := rfl
  rw [segments, hread, segments]

/-- All but the last two segments of a text stay as they are when the text goes on. -/
theorem exists_segments_append (text tail : List Char) :
    ∃ kept lost, segments text = kept ++ lost ∧ lost.length ≤ 2 ∧ kept <+: segments (text ++ tail) := by
  induction text using segments.induct with
  | case1 => exact ⟨[], [], by rw [segments, List.nil_append], by simp, List.nil_prefix⟩
  | case2 c cs ih =>
    by_cases hends : (Segment.read c cs).1.EndsAt (glance ((Segment.read c cs).2 ++ tail))
    · obtain ⟨kept, lost, hss, hlost, hkept⟩ := ih
      refine ⟨(Segment.read c cs).1 :: kept, lost, by rw [segments, hss, List.cons_append], hlost, ?_⟩
      rw [List.cons_append, segments, Segment.read_append_of_endsAt hends]
      exact List.cons_prefix_cons.mpr ⟨rfl, hkept⟩
    · -- the glance has changed, so there was no more to see than a point
      have hrest : (Segment.read c cs).2 = [] ∨ (Segment.read c cs).2 = ['.'] := by
        by_contra hrest
        obtain ⟨hne, hpoint⟩ := not_or.mp hrest
        rw [glance_append hne hpoint] at hends
        exact hends (Segment.endsAt_read c cs)
      refine ⟨[], segments (c :: cs), (List.nil_append _).symm, ?_, List.nil_prefix⟩
      rw [segments]
      rcases hrest with hrest | hrest
      · simp [hrest, segments]
      · simp [hrest, segments_point]

/-! ## Tokens -/

theorem length_tokensFrom_le (line : Nat) (ss : List Segment) : (tokensFrom line ss).length ≤ ss.length := by
  induction ss generalizing line with
  | nil => rfl
  | cons s ss ih =>
    have hone : (s.tokens (line + s.lineFeeds)).length ≤ 1 := by cases s <;> simp [Segment.tokens]
    have hrest := ih (line + s.lineFeeds)
    rw [tokensFrom] at hrest
    rw [tokensFrom, alongLines, List.length_append, List.length_cons]
    omega

theorem prefix_of_dropLast_dropLast {α : Type} {kept lost : List α} (h : lost.length ≤ 2) :
    (kept ++ lost).dropLast.dropLast <+: kept := by
  refine List.prefix_of_prefix_length_le ?_ (List.prefix_append kept lost) ?_
  · exact (List.dropLast_prefix _).trans (List.dropLast_prefix _)
  · simp only [List.length_dropLast, List.length_append]
    omega

theorem prefix_tokensFrom_append (line : Nat) (text tail : List Char) :
    (tokensFrom line (segments text)).dropLast.dropLast <+: tokensFrom line (segments (text ++ tail)) := by
  obtain ⟨kept, lost, hss, hlost, more, hmore⟩ := exists_segments_append text tail
  rw [hss, ← hmore, tokensFrom, tokensFrom, alongLines_append, alongLines_append]
  refine (prefix_of_dropLast_dropLast ?_).trans (List.prefix_append _ _)
  exact (length_tokensFrom_le _ lost).trans hlost

/-! ## Diagnostics -/

theorem code_of_mem_strayReports {d : Diagnostic} {before text : List Char} (h : d ∈ strayReports before text) :
    d.code = Template.unexpectedCharacter.code := by
  induction text generalizing before with
  | nil => cases h
  | cons c cs ih =>
    rcases List.mem_append.mp h with h | h
    · split at h
      · rw [List.mem_singleton.mp h]
        rfl
      · cases h
    · exact ih h

/-- The reports of unexpected characters among the diagnostics are those of the automaton. -/
theorem filter_diagnostics_eq_strayReports (source : String) :
    ((scan source).diagnostics.filter fun d => d.code = Template.unexpectedCharacter.code) =
      strayReports [] source.toList := by
  have hstray : ∀ d ∈ strayReports [] source.toList, d.code = Template.unexpectedCharacter.code :=
    fun d hd => code_of_mem_strayReports hd
  have hopen : ∀ d ∈ openReports source.toList, d.code ≠ Template.unexpectedCharacter.code := by
    intro d hd
    unfold openReports at hd
    split at hd
    · rw [List.mem_singleton.mp hd]
      show Template.unterminatedString.code ≠ Template.unexpectedCharacter.code
      decide
    · cases hd
  rw [diagnostics_eq_reports, List.filter_append, List.filter_eq_self.mpr (by simpa using hstray),
    List.filter_eq_nil_iff.mpr (by simpa using hopen), List.append_nil]

/-- No more than the last two tokens of a text hang on how it goes on, and no report of an unexpected character
does. -/
theorem prefix_scan_append (a b : String) :
    (scan a).sourceTokens.dropLast.dropLast <+: (scan (a ++ b)).tokens.toList ∧
      ((scan a).diagnostics.filter fun d => d.code = Template.unexpectedCharacter.code) <+:
        (scan (a ++ b)).diagnostics := by
  constructor
  · rw [scan, scan, sourceTokens_scanInto, tokens_scanInto, String.toList_append]
    exact (prefix_tokensFrom_append 1 a.toList b.toList).trans (List.prefix_append _ _)
  · rw [filter_diagnostics_eq_strayReports, diagnostics_eq_reports, String.toList_append, strayReports_append,
      List.append_assoc]
    exact List.prefix_append _ _

/-- A point and a digit behind it make one number of two tokens. -/
example : ¬(scan "(1.").sourceTokens.dropLast <+: (scan ("(1." ++ "5")).tokens.toList := by
  decide +kernel

end ScriptScan
