-- SUMMARY: Where the segments of a source stand, and the lines that tokens and diagnostics carry.
import Mathlib.Data.List.Basic
import Mathlib.Data.List.Flatten
import ScriptScan.Proofs.Scan.Automaton

/-!
# Places in a source

A scan counts lines as it goes, by the line feeds of one segment after the other. Counted from the start of the
source, the line of a token is the line of its last character, and that of an error the line on which the
unexpected character or the end of the source stands.
-/

namespace ScriptScan

/-- The line on which a text ends. -/
def lastLine (text : List Char) : Nat := 1 + text.count '\n'

/-- A segment where it stands in a source. -/
structure Place where
  /-- The source before the segment. -/
  before : List Char
  segment : Segment

namespace Place

/-- The source up to and including the last character of the segment. -/
def through (p : Place) : List Char := p.before ++ p.segment.text

/-- The token that the segment gives, if it is one, on the line of its last character. -/
def tokens (p : Place) : List Token := p.segment.tokens (lastLine p.through)

/-- What is reported about the segment: a stray character on the line that it stands on, a string without an
end on the last line of the source. -/
def reports (last : Nat) (p : Place) : List Diagnostic :=
  match p.segment with
  | .unexpected c => [strayReport (lastLine p.before) c]
  | .unterminated _ _ => [openReport last]
  | .fixed _ | .blank _ | .comment _ | .string .. | .number .. => []

/-- The lines of the token and the reports. -/
def lines (last : Nat) (p : Place) : List Nat :=
  p.tokens.map Token.line ++ (p.reports last).filterMap Diagnostic.line

end Place

/-- The places of segments that stand one after the other, the first of them after some text. -/
def placesFrom (before : List Char) : List Segment → List Place
  | [] => []
  | s :: ss => ⟨before, s⟩ :: placesFrom (before ++ s.text) ss

def places (source : String) : List Place := placesFrom [] (segments source.toList)

/-- The lines that tokens and diagnostics carry, in the order in which a scan comes to them. -/
def emittedLines (source : String) : List Nat :=
  (places source).flatMap (Place.lines (lastLine source.toList))

/-! ## Lines -/

theorem lastLine_append (text : List Char) (s : Segment) :
    lastLine (text ++ s.text) = lastLine text + s.lineFeeds := by
  rw [lastLine, lastLine, List.count_append, Segment.lineFeeds, Nat.add_assoc]

theorem lastLine_le {xs ys : List Char} (h : xs <+: ys) : lastLine xs ≤ lastLine ys :=
  Nat.add_le_add_left (h.sublist.count_le '\n') 1

/-! ## Places -/

theorem map_segment_placesFrom (before : List Char) (ss : List Segment) :
    (placesFrom before ss).map Place.segment = ss := by
  induction ss generalizing before with
  | nil => rfl
  | cons s ss ih => rw [placesFrom, List.map_cons, ih]

/-- What segments give along the lines, each gives for the line on which it ends. -/
theorem alongLines_eq_flatMap {α : Type} (give : Nat → Segment → List α) (before : List Char)
    (ss : List Segment) :
    alongLines give (lastLine before) ss =
      (placesFrom before ss).flatMap fun p => give (lastLine p.through) p.segment := by
  induction ss generalizing before with
  | nil => rfl
  | cons s ss ih => rw [alongLines, ← lastLine_append, ih, placesFrom, List.flatMap_cons, Place.through]

/-- A segment fits where it stands. -/
theorem fits_of_mem_placesFrom {p : Place} {before text : List Char}
    (h : p ∈ placesFrom before (segments text)) :
    ∃ rest, p.segment.Fits rest ∧ p.through ++ rest = before ++ text := by
  induction text using segments.induct generalizing before with
  | case1 => simp [segments, placesFrom] at h
  | case2 c cs ih =>
    obtain ⟨hfits, htext⟩ := Segment.starts_read c cs
    rw [segments, placesFrom] at h
    rcases List.mem_cons.mp h with rfl | h
    · exact ⟨_, hfits, by rw [Place.through, List.append_assoc, htext]⟩
    · obtain ⟨rest, hrest, hthrough⟩ := ih h
      exact ⟨rest, hrest, by rw [hthrough, List.append_assoc, htext]⟩

theorem through_begins {p : Place} {source : String} (h : p ∈ places source) : p.through <+: source.toList := by
  obtain ⟨rest, -, htext⟩ := fits_of_mem_placesFrom h
  exact ⟨rest, htext⟩

theorem prefix_through {p : Place} {before : List Char} {ss : List Segment} (h : p ∈ placesFrom before ss) :
    before <+: p.through := by
  induction ss generalizing before with
  | nil => cases h
  | cons s ss ih =>
    rcases List.mem_cons.mp h with rfl | h
    · exact List.prefix_append before s.text
    · exact (List.prefix_append before s.text).trans (ih h)

/-- Of two places the later one reaches further. -/
theorem pairwise_through (before : List Char) (ss : List Segment) :
    (placesFrom before ss).Pairwise fun p q => p.through <+: q.through := by
  induction ss generalizing before with
  | nil => exact .nil
  | cons s ss ih => exact .cons (fun _ hq => prefix_through hq) (ih (before ++ s.text))

/-! ## What a place gives -/

theorem tokens_eq_flatMap (source : String) :
    (scan source).tokens.toList = (places source).flatMap Place.tokens ++ [.endAt (lastLine source.toList)] := by
  have htokens := alongLines_eq_flatMap Segment.tokens [] (segments source.toList)
  rw [scan, tokens_scanInto, tokensFrom]
  exact congrArg (· ++ _) htokens

/-- An unexpected character is no line feed, and a string without an end reaches to the end of the source. -/
theorem findings_eq_reports {p : Place} {source : String} (h : p ∈ places source) :
    (p.segment.findings (lastLine p.through)).map Finding.diagnostic =
      p.reports (lastLine source.toList) := by
  obtain ⟨rest, hfits, htext⟩ := fits_of_mem_placesFrom h
  obtain ⟨before, segment⟩ := p
  cases hfits with
  | @unexpected c _ strange =>
    have hfeed : '\n' ≠ c := by
      rintro rfl
      exact strange (by decide)
    have hline : lastLine (before ++ [c]) = lastLine before := by
      simp [lastLine, List.count_append, hfeed.symm]
    show [(LexicalError.unexpectedCharacter c).diagnostic (lastLine (before ++ [c]))] =
      [strayReport (lastLine before) c]
    rw [hline, diagnostic_unexpectedCharacter]
  | @unterminated opening body opens inside =>
    rw [List.append_nil, List.nil_append] at htext
    show [LexicalError.unterminatedString.diagnostic (lastLine (Place.through _))] = [openReport _]
    rw [htext, diagnostic_unterminatedString]
  | fixed | blank | comment | string | number => rfl

theorem diagnostics_eq_flatMap_reports (source : String) :
    (scan source).diagnostics = (places source).flatMap (Place.reports (lastLine source.toList)) := by
  have hfindings := alongLines_eq_flatMap Segment.findings [] (segments source.toList)
  have hmap : (findingsFrom 1 (segments source.toList)).map Finding.diagnostic =
      (places source).flatMap fun p => (p.segment.findings (lastLine p.through)).map Finding.diagnostic := by
    rw [findingsFrom, ← List.map_flatMap]
    exact congrArg (List.map Finding.diagnostic) hfindings
  rw [diagnostics_scan, hmap]
  exact List.flatMap_congr fun p hp => findings_eq_reports hp

/-! ## Order -/

theorem line_of_mem_tokens {p : Place} {t : Token} (h : t ∈ p.tokens) : t.line = lastLine p.through := by
  obtain ⟨before, segment⟩ := p
  cases segment with
  | fixed | string | number =>
    obtain rfl := List.mem_singleton.mp h
    rfl
  | blank | comment | unexpected | unterminated => cases h

/-- Whatever is found at a place carries the line on which the place ends. -/
theorem eq_lastLine_of_mem_lines {p : Place} {source : String} (hp : p ∈ places source) {n : Nat}
    (h : n ∈ p.lines (lastLine source.toList)) : n = lastLine p.through := by
  rcases List.mem_append.mp h with h | h
  · obtain ⟨t, ht, rfl⟩ := List.mem_map.mp h
    exact line_of_mem_tokens ht
  · obtain ⟨d, hd, hline⟩ := List.mem_filterMap.mp h
    rw [← findings_eq_reports hp] at hd
    obtain ⟨f, hf, rfl⟩ := List.mem_map.mp hd
    have hfound : f.line = lastLine p.through := by
      revert hf
      cases p.segment with
      | unexpected | unterminated =>
        intro hf
        obtain rfl := List.mem_singleton.mp hf
        rfl
      | _ => exact fun hf => nomatch hf
    exact (Option.some.inj hline).symm.trans hfound

theorem pairwise_emittedLines (source : String) :
    (emittedLines source ++ [lastLine source.toList]).Pairwise (· ≤ ·) := by
  have hlater := pairwise_through [] (segments source.toList)
  rw [List.pairwise_append]
  refine ⟨?_, List.pairwise_singleton .., ?_⟩
  · rw [emittedLines, List.pairwise_flatMap]
    constructor
    · intro p hp
      refine List.pairwise_of_forall_mem_list fun m hm n hn => ?_
      rw [eq_lastLine_of_mem_lines hp hm, eq_lastLine_of_mem_lines hp hn]
    · refine hlater.imp_of_mem fun {p q} hp hq hpq m hm n hn => ?_
      rw [eq_lastLine_of_mem_lines hp hm, eq_lastLine_of_mem_lines hq hn]
      exact lastLine_le hpq
  · intro m hm n hn
    obtain ⟨p, hp, hm⟩ := List.mem_flatMap.mp hm
    rw [List.mem_singleton.mp hn, eq_lastLine_of_mem_lines hp hm]
    exact lastLine_le (through_begins hp)

theorem map_line_tokens_sublist (source : String) :
    ((scan source).tokens.toList.map Token.line).Sublist (emittedLines source ++ [lastLine source.toList]) := by
  rw [tokens_eq_flatMap, List.map_append, List.map_flatMap]
  refine List.Sublist.append (List.Sublist.flatMap_right _ fun p _ => ?_) (List.Sublist.refl _)
  exact List.sublist_append_left ..

theorem map_line_diagnostics_sublist (source : String) :
    ((scan source).diagnostics.filterMap Diagnostic.line).Sublist (emittedLines source) := by
  rw [diagnostics_eq_flatMap_reports, List.filterMap_flatMap]
  exact List.Sublist.flatMap_right _ fun p _ => List.sublist_append_right ..

/-- A token carries the line on which its last character stands, counted from the start of the source, and so
does the end mark; an unexpected character is reported on its own line, and a string without an end on the last.
So lines never decrease, neither among the tokens nor among the diagnostics nor from the ones to the others, and
none comes after that of the end mark. -/
theorem scan_lines_exact (source : String) :
    (places source).map Place.segment = segments source.toList ∧
      (∀ p ∈ places source, p.through <+: source.toList) ∧
      let last := lastLine source.toList
      (scan source).tokens.toList = (places source).flatMap Place.tokens ++ [.endAt last] ∧
      (scan source).diagnostics = (places source).flatMap (Place.reports last) ∧
      (emittedLines source ++ [last]).Pairwise (· ≤ ·) ∧
      ((scan source).tokens.toList.map Token.line).Pairwise (· ≤ ·) ∧
      ((scan source).diagnostics.filterMap Diagnostic.line).Pairwise (· ≤ ·) ∧
      (∀ t ∈ (scan source).tokens.toList, t.line ≤ last) ∧
      ∀ d ∈ (scan source).diagnostics, ∃ n ≤ last, d.line = some n := by
  have hordered := pairwise_emittedLines source
  have hbound : ∀ n ∈ emittedLines source ++ [lastLine source.toList], n ≤ lastLine source.toList := by
    obtain ⟨-, -, hlast⟩ := List.pairwise_append.mp hordered
    intro n hn
    rcases List.mem_append.mp hn with hn | hn
    · exact hlast n hn _ (List.mem_singleton_self _)
    · exact Nat.le_of_eq (List.mem_singleton.mp hn)
  have htokens := map_line_tokens_sublist source
  have hdiagnostics := (map_line_diagnostics_sublist source).trans
    (List.sublist_append_left _ [lastLine source.toList])
  refine ⟨map_segment_placesFrom .., fun p => through_begins, tokens_eq_flatMap source,
    diagnostics_eq_flatMap_reports source, hordered, hordered.sublist htokens, hordered.sublist hdiagnostics,
    ?_, ?_⟩
  · intro t ht
    exact hbound t.line (htokens.subset (List.mem_map_of_mem ht))
  · intro d hd
    have hsome : ∃ n, d.line = some n := by
      rw [diagnostics_scan] at hd
      obtain ⟨f, -, rfl⟩ := List.mem_map.mp hd
      exact ⟨f.line, rfl⟩
    obtain ⟨n, hline⟩ := hsome
    have hn : n ∈ (scan source).diagnostics.filterMap Diagnostic.line :=
      List.mem_filterMap.mpr ⟨d, hd, hline⟩
    exact ⟨n, hbound n (hdiagnostics.subset hn), hline⟩

/-- A string over two lines is a token of the second, and a comment does not swallow its line feed. -/
example : (scan "'a\nb' \\\\ c\n@ \"\n").tokens.toList.map Token.line = [2, 4] ∧
    (scan "'a\nb' \\\\ c\n@ \"\n").diagnostics.map Diagnostic.line = [some 3, some 4] := by
  decide +kernel

end ScriptScan
