-- SUMMARY: The lexemes of a scan scan to the same tokens again, each by itself or all with blanks between them.
import ScriptScan.Proofs.Listing.Display
import ScriptScan.Proofs.Scan.Division
import ScriptScan.Proofs.Scan.Places

/-!
# Lexemes

A token may end before a blank and at the end of a text, wherever it has been cut from. So tokens with blanks between
them are the division of the text that they make up, and a token is that of its own lexeme.
-/

namespace ScriptScan

/-! ## Segments that are tokens -/

namespace Segment

def isToken : Segment → Bool
  | .fixed _ | .string .. | .number .. => true
  | .blank _ | .comment _ | .unexpected _ | .unterminated .. => false

theorem tokens_of_isToken {s : Segment} (h : s.isToken) :
    ∃ t : Token, s.tokens t.line = [t] ∧ t.lexeme = s.lexeme ∧ ∀ n, s.tokens n = [{ t with line := n }] := by
  cases s with
  | fixed | string | number => exact ⟨⟨_, _, _, 1⟩, rfl, rfl, fun _ => rfl⟩
  | blank | comment | unexpected | unterminated => cases h

theorem tokens_of_not_isToken {s : Segment} (h : s.isToken = false) (line : Nat) : s.tokens line = [] := by
  cases s with
  | fixed | string | number => cases h
  | blank | comment | unexpected | unterminated => rfl

theorem findings_of_isToken {s : Segment} (h : s.isToken) (line : Nat) : s.findings line = [] := by
  cases s with
  | fixed | string | number => rfl
  | blank | comment | unexpected | unterminated => cases h

theorem endsAt_of_isToken {s : Segment} (h : s.isToken) : s.EndsAt .nothing ∧ s.EndsAt .other := by
  cases s with
  | fixed | string | number => simp [EndsAt]
  | blank | comment | unexpected | unterminated => cases h

end Segment

/-- What does not depend on lines, tokens have from their segments. -/
theorem map_tokensFrom {β : Type} {view : Token → β} (blind : ∀ t n, view { t with line := n } = view t)
    (line : Nat) (ss : List Segment) :
    (tokensFrom line ss).map view =
      (ss.filter Segment.isToken).flatMap fun s => (s.tokens 1).map view := by
  induction ss generalizing line with
  | nil => rfl
  | cons s ss ih =>
    have hrest := ih (line + s.lineFeeds)
    rw [tokensFrom] at hrest
    rw [tokensFrom, alongLines, List.map_append, hrest]
    cases h : s.isToken with
    | true =>
      obtain ⟨t, -, -, htokens⟩ := Segment.tokens_of_isToken h
      simp only [List.filter_cons_of_pos h, List.flatMap_cons, htokens, List.map_cons, blind, List.map_nil]
    | false => simp [Segment.tokens_of_not_isToken h, h]

theorem map_lexeme_tokensFrom (line : Nat) (ss : List Segment) :
    (tokensFrom line ss).map Token.lexeme = (ss.filter Segment.isToken).map Segment.lexeme := by
  rw [map_tokensFrom (fun _ _ => rfl), List.map_eq_flatMap]
  refine List.flatMap_congr fun s hs => ?_
  obtain ⟨t, -, hlexeme, htokens⟩ := Segment.tokens_of_isToken (List.mem_filter.mp hs).2
  rw [htokens, List.map_singleton, hlexeme]

/-! ## Blanks between tokens -/

def spaced (ss : List Segment) : List Segment := ss.intersperse (.blank ' ')

theorem joined_spaced (ss : List Segment) : joined (spaced ss) = [' '].intercalate (ss.map Segment.text) := by
  induction ss with
  | nil => rfl
  | cons s ss ih =>
    cases ss with
    | nil => simp [spaced, joined]
    | cons t ts =>
      rw [List.map_cons, List.map_cons, List.intercalate_cons_cons, ← List.map_cons, ← ih]
      simp [spaced, joined, Segment.text]

section spaced

variable {ss : List Segment} (h : ∀ s ∈ ss, s.Formed ∧ s.isToken)

include h

theorem separable_spaced : Separable (spaced ss) := by
  induction ss with
  | nil => trivial
  | cons s ss ih =>
    obtain ⟨⟨formed, token⟩, hss⟩ := List.forall_mem_cons.mp h
    obtain ⟨hnothing, hother⟩ := Segment.endsAt_of_isToken token
    cases ss with
    | nil => exact ⟨formed, hnothing, trivial⟩
    | cons t ts => exact ⟨formed, hother, ⟨[], .blank (by decide)⟩, trivial, ih hss⟩

theorem filter_spaced : (spaced ss).filter Segment.isToken = ss := by
  induction ss with
  | nil => rfl
  | cons s ss ih =>
    obtain ⟨⟨-, token⟩, hss⟩ := List.forall_mem_cons.mp h
    cases ss with
    | nil => exact List.filter_cons_of_pos token
    | cons t ts =>
      have hrest := ih hss
      rw [spaced] at hrest
      rw [spaced, List.intersperse_cons_cons, List.filter_cons_of_pos token,
        List.filter_cons_of_neg (by decide), hrest]

theorem findingsFrom_spaced (line : Nat) : findingsFrom line (spaced ss) = [] := by
  induction ss generalizing line with
  | nil => rfl
  | cons s ss ih =>
    obtain ⟨⟨-, token⟩, hss⟩ := List.forall_mem_cons.mp h
    have hfirst := Segment.findings_of_isToken token
    cases ss with
    | nil => rw [spaced, List.intersperse_singleton, findingsFrom, alongLines, hfirst, alongLines, List.nil_append]
    | cons t ts =>
      rw [spaced, List.intersperse_cons_cons, findingsFrom, alongLines, hfirst, alongLines]
      exact ih hss _

end spaced

/-! ## Lexemes of a scan -/

theorem formed_of_mem_filter (source : String) :
    ∀ s ∈ (segments source.toList).filter Segment.isToken, s.Formed ∧ s.isToken := by
  intro s hs
  obtain ⟨hmem, token⟩ := List.mem_filter.mp hs
  exact ⟨fits_of_mem_segments hmem, token⟩

theorem segments_lexemes (source : String) :
    segments (" ".intercalate ((scan source).sourceTokens.map Token.lexeme)).toList =
      spaced ((segments source.toList).filter Segment.isToken) := by
  have htext (s : Segment) : s.lexeme.toList = s.text := String.toList_ofList
  rw [scan, sourceTokens_scanInto, map_lexeme_tokensFrom, String.toList_intercalate, List.map_map]
  simp only [Function.comp_def, htext]
  rw [← segments_joined (separable_spaced (formed_of_mem_filter source)), joined_spaced]
  rfl

theorem segments_lexeme {source : String} {t : Token} (h : t ∈ (scan source).sourceTokens) :
    ∃ s : Segment, segments t.lexeme.toList = [s] ∧ s.isToken ∧ ∀ n, s.tokens n = [{ t with line := n }] := by
  rw [scan, sourceTokens_scanInto] at h
  obtain ⟨xs, s, ys, hss, hgive⟩ := mem_alongLines.mp h
  have hmem : s ∈ segments source.toList := hss ▸ List.mem_append_right xs List.mem_cons_self
  have token : s.isToken := by
    rw [← Bool.not_eq_false]
    intro hno
    rw [Segment.tokens_of_not_isToken hno] at hgive
    cases hgive
  obtain ⟨u, -, hlexeme, htokens⟩ := Segment.tokens_of_isToken token
  rw [htokens] at hgive
  obtain rfl := List.mem_singleton.mp hgive
  refine ⟨s, ?_, token, htokens⟩
  have hseparable : Separable [s] := ⟨fits_of_mem_segments hmem, (Segment.endsAt_of_isToken token).1, trivial⟩
  have htext : u.lexeme.toList = joined [s] := by
    rw [hlexeme, Segment.lexeme, String.toList_ofList, joined, List.flatMap_singleton]
  exact (congrArg segments htext).trans (segments_joined hseparable)

/-- The lexemes of a source with blanks between them scan without errors to the same tokens, but for their lines; and
each of them by itself does so to its own token. -/
theorem scan_lexemes (source : String) :
    let lexemes := " ".intercalate ((scan source).sourceTokens.map Token.lexeme)
    (scan lexemes).diagnostics = [] ∧ (scan lexemes).erred = false ∧
      (scan lexemes).tokens.toList.map Token.content = (scan source).tokens.toList.map Token.content ∧
      ∀ t ∈ (scan source).sourceTokens,
        (scan t.lexeme).diagnostics = [] ∧ (scan t.lexeme).erred = false ∧
          (scan t.lexeme).tokens.toList =
            [{ t with line := lastLine t.lexeme.toList }, .endAt (lastLine t.lexeme.toList)] := by
  intro lexemes
  have hsegments : segments lexemes.toList = spaced ((segments source.toList).filter Segment.isToken) :=
    segments_lexemes source
  have hfindings := findingsFrom_spaced (formed_of_mem_filter source) 1
  rw [← hsegments] at hfindings
  refine ⟨by rw [diagnostics_scan, hfindings, List.map_nil], ?_, ?_, ?_⟩
  · rw [scan, erred_scanInto, hfindings]
    rfl
  · have hview (t : Token) (n : Nat) : Token.content { t with line := n } = t.content := rfl
    simp only [scan, tokens_scanInto, List.map_append, map_tokensFrom hview, hsegments,
      filter_spaced (formed_of_mem_filter source)]
    rfl
  · intro t ht
    obtain ⟨s, hone, token, htokens⟩ := segments_lexeme ht
    have hnone : findingsFrom 1 (segments t.lexeme.toList) = [] := by
      rw [hone, findingsFrom, alongLines, Segment.findings_of_isToken token]
      rfl
    refine ⟨by rw [diagnostics_scan, hnone, List.map_nil], ?_, ?_⟩
    · rw [scan, erred_scanInto, hnone]
      rfl
    · have hfeeds : s.lineFeeds = t.lexeme.toList.count '\n' := by
        rw [← joined_segments t.lexeme.toList, hone, count_joined_cons]
        rfl
      rw [scan, tokens_scanInto, hone, tokensFrom, alongLines, htokens, hfeeds]
      rfl

/-- Without the blanks the two backslashes of this source would be a comment. -/
example :
    let lexemes := (scan "\\@\\1").sourceTokens.map Token.lexeme
    (scan (" ".intercalate lexemes)).tokens.size = 4 ∧ (scan (String.join lexemes)).tokens.size = 1 := by
  decide +kernel

end ScriptScan
