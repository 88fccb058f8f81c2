-- SUMMARY: Comments and unexpected characters make no difference to tokens: blanks in their places give the same.
import ScriptScan.Proofs.Scan.Division

/-!
# Cleared sources

A blank in the place of a comment or of an unexpected character keeps all other segments as they are: where a glance
from a segment shows something new, it shows a blank, and every token may end there.
-/

namespace ScriptScan

/-- A blank for a comment or an unexpected character, and any other segment as it is. -/
def Segment.cleared : Segment → Segment
  | .comment _ | .unexpected _ => .blank ' '
  | s => s

/-- The source with a blank in the place of each comment and of each unexpected character. -/
def cleared (source : String) : String :=
  String.ofList (joined ((segments source.toList).map Segment.cleared))

namespace Segment

theorem cleared_eq_or (s : Segment) : s.cleared = s ∨ s.cleared = .blank ' ' := by
  cases s with
  | comment | unexpected => exact .inr rfl
  | fixed | blank | string | number | unterminated => exact .inl rfl

theorem tokens_cleared (s : Segment) (line : Nat) : s.cleared.tokens line = s.tokens line := by
  cases s <;> rfl

/-- Only a string without an end is still an error. -/
theorem findings_cleared (s : Segment) (line : Nat) :
    s.cleared.findings line =
      (s.findings line).filter fun f => f.diagnostic.code = Template.unterminatedString.code := by
  cases s <;> rfl

theorem Formed.cleared {s : Segment} (h : s.Formed) : s.cleared.Formed := by
  cases s with
  | comment | unexpected => exact ⟨[], .blank (by decide)⟩
  | fixed | blank | string | number | unterminated => exact h

theorem lineFeeds_cleared {s : Segment} (h : s.Formed) : s.cleared.lineFeeds = s.lineFeeds := by
  obtain ⟨_, hfits⟩ := h
  cases hfits with
  | comment oneLine => simp [lineFeeds, Segment.cleared, text, List.count_eq_zero.mpr oneLine]
  | @unexpected c _ strange =>
    have hfeed : c ≠ '\n' := by
      rintro rfl
      exact strange (.inl (by decide))
    simp [lineFeeds, Segment.cleared, text, hfeed]
  | fixed | blank | string | number | unterminated => rfl

end Segment

/-! ## Glances at cleared segments -/

section glance

variable {ss : List Segment} (h : Separable ss)

include h

theorem head?_joined_cleared :
    (joined (ss.map Segment.cleared)).head? = (joined ss).head? ∨
      (joined (ss.map Segment.cleared)).head? = some ' ' := by
  cases ss with
  | nil => exact .inl rfl
  | cons s ss =>
    rw [List.map_cons, joined_cons, joined_cons]
    rcases s.cleared_eq_or with hsame | hblank
    · obtain ⟨c, cs, hcons⟩ := List.exists_cons_of_ne_nil h.1.text_ne_nil
      rw [hsame, hcons]
      exact .inl rfl
    · rw [hblank]
      exact .inr rfl

/-- A glance shows the same as before or nothing that matters. -/
theorem glance_joined_cleared :
    glance (joined (ss.map Segment.cleared)) = glance (joined ss) ∨
      glance (joined (ss.map Segment.cleared)) = .other := by
  cases ss with
  | nil => exact .inl rfl
  | cons s ss =>
    rw [List.map_cons, joined_cons, joined_cons]
    rcases s.cleared_eq_or with hsame | hblank
    · rw [hsame]
      by_cases hpoint : s.text = ['.']
      · -- the glance goes past the point, to the next segment
        rw [hpoint]
        rcases head?_joined_cleared h.2.2 with hhead | hhead
        · exact .inl (by simp only [List.singleton_append, glance, hhead])
        · exact .inr (by simp [glance, hhead])
      · exact .inl (by rw [glance_append h.1.text_ne_nil hpoint, glance_append h.1.text_ne_nil hpoint])
    · rw [hblank]
      exact .inr rfl

end glance

theorem endsAt_cleared {s : Segment} {ss : List Segment} (h : Separable (s :: ss)) :
    s.cleared.EndsAt (glance (joined (ss.map Segment.cleared))) := by
  obtain ⟨-, ends, hss⟩ := h
  have hglance := glance_joined_cleared hss
  cases s with
  | blank | comment | string | unexpected => trivial
  | fixed | number =>
    rcases hglance with hglance | hglance
    · rwa [hglance]
    · rw [hglance]
      simp [Segment.cleared, Segment.EndsAt]
  | unterminated =>
    cases ss with
    | nil => rfl
    | cons t ts =>
      have hnil := glance_eq_nothing.mp ends
      rw [joined_cons] at hnil
      exact absurd (List.append_eq_nil_iff.mp hnil).1 hss.1.text_ne_nil

theorem segments_cleared (source : String) :
    segments (cleared source).toList = (segments source.toList).map Segment.cleared := by
  rw [cleared, String.toList_ofList]
  refine segments_joined ((separable_segments source.toList).map (fun _ => Segment.Formed.cleared) ?_)
  exact fun _ _ => endsAt_cleared

/-! ## Cleared scans -/

/-- A source with blanks in the places of its comments and of its unexpected characters scans to the same tokens on
the same lines; of its diagnostics the one about a string without an end is left. -/
theorem scan_cleared (source : String) :
    (scan (cleared source)).tokens = (scan source).tokens ∧
      (scan (cleared source)).diagnostics =
        (scan source).diagnostics.filter fun d => d.code = Template.unterminatedString.code := by
  have hfeeds : ∀ s ∈ segments source.toList, s.cleared.lineFeeds = s.lineFeeds :=
    fun s hs => Segment.lineFeeds_cleared (fits_of_mem_segments hs)
  constructor
  · have hgiven : ∀ s ∈ segments source.toList, ∀ n, s.cleared.tokens n = (s.tokens n).filterMap some :=
      fun s _ n => (s.tokens_cleared n).trans List.filterMap_some.symm
    have htokens := alongLines_map hfeeds hgiven 1
    have hcount := count_joined_map hfeeds
    rw [← segments_cleared, joined_segments, joined_segments] at hcount
    rw [← segments_cleared, List.filterMap_some] at htokens
    rw [← Array.toList_inj, scan, scan, tokens_scanInto, tokens_scanInto, tokensFrom, htokens, hcount, tokensFrom]
  · have hgiven : ∀ s ∈ segments source.toList, ∀ n,
        s.cleared.findings n = (s.findings n).filterMap
          (Option.guard fun f => f.diagnostic.code = Template.unterminatedString.code) := by
      intro s _ n
      rw [s.findings_cleared, List.filterMap_eq_filter]
    have hfindings := alongLines_map hfeeds hgiven 1
    rw [← segments_cleared, List.filterMap_eq_filter] at hfindings
    rw [diagnostics_scan, diagnostics_scan, findingsFrom, hfindings, List.filter_map]
    rfl

/-- A comment in which a string seems to open, and a string in which a comment seems to begin. -/
example : cleared "1@2 \\\\ ' @\n'\\\\ @" = "1 2  \n'\\\\ @" := by decide +kernel

end ScriptScan
