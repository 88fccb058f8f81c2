-- SUMMARY: A scan of two texts with a line feed between them is the scan of the one and then of the other.
import ScriptScan.Proofs.Scan.Run
import ScriptScan.Proofs.Source.Following

/-! # Scans across a line feed -/

namespace ScriptScan

/-- The same token so many lines further down. -/
def Token.below (n : Nat) (t : Token) : Token := { t with line := n + t.line }

/-- The same diagnostic so many lines further down. -/
def Diagnostic.below (n : Nat) (d : Diagnostic) : Diagnostic := { d with line := d.line.map (n + ·) }

/-- A source whose scan reports no string without an end. -/
def EndsStrings (source : String) : Prop :=
  ∀ d ∈ (scan source).diagnostics, d.code ≠ Template.unterminatedString.code

theorem tokensFrom_add (n line : Nat) (ss : List Segment) :
    tokensFrom (n + line) ss = (tokensFrom line ss).map (Token.below n) := by
  refine alongLines_shift ?_ line ss
  intro line s
  cases s <;> rfl

/-- The same finding so many lines further down. -/
def Finding.below (n : Nat) (f : Finding) : Finding := { f with line := n + f.line }

theorem findingsFrom_add (n line : Nat) (ss : List Segment) :
    findingsFrom (n + line) ss = (findingsFrom line ss).map (Finding.below n) := by
  refine alongLines_shift ?_ line ss
  intro line s
  cases s <;> rfl

theorem endsStrings_iff {source : String} : EndsStrings source ↔ Closed source.toList := by
  constructor
  · intro h s hs hunclosed
    cases s with
    | unterminated opening body =>
      obtain ⟨xs, ys, hss⟩ := List.append_of_mem hs
      have hmem : ∃ line lexeme,
          ⟨.unterminatedString, line, lexeme⟩ ∈ findingsFrom 1 (segments source.toList) :=
        ⟨_, _, mem_alongLines.mpr ⟨xs, _, ys, hss, List.mem_cons_self⟩⟩
      obtain ⟨line, lexeme, hmem⟩ := hmem
      have hd : Finding.diagnostic ⟨.unterminatedString, line, lexeme⟩ ∈ (scan source).diagnostics := by
        rw [diagnostics_scan]
        exact List.mem_map_of_mem hmem
      exact h _ hd rfl
    | _ => exact hunclosed
  · intro h d hd
    rw [diagnostics_scan] at hd
    obtain ⟨f, hf, rfl⟩ := List.mem_map.mp hd
    obtain ⟨xs, s, ys, hss, hgive⟩ := mem_alongLines.mp hf
    have hclosed := h s (hss ▸ List.mem_append_right xs List.mem_cons_self)
    cases s with
    | unexpected c =>
      obtain rfl := List.mem_singleton.mp hgive
      show Template.unexpectedCharacter.code ≠ Template.unterminatedString.code
      decide
    | unterminated opening body => exact absurd trivial hclosed
    | _ => cases hgive

/-- Blanks and comments give nothing. -/
structure SkipsBlanks {α : Type} (give : Nat → Segment → List α) : Prop where
  blank : ∀ line c, give line (.blank c) = []
  comment : ∀ line body, give line (.comment body) = []

theorem skipsBlanks_tokens : SkipsBlanks Segment.tokens := ⟨fun _ _ => rfl, fun _ _ => rfl⟩

theorem skipsBlanks_findings : SkipsBlanks Segment.findings := ⟨fun _ _ => rfl, fun _ _ => rfl⟩

theorem alongLines_append_lineFeed {α : Type} {give : Nat → Segment → List α} (skips : SkipsBlanks give)
    (line : Nat) {text : List Char} (h : Closed text) (tail : List Char) :
    alongLines give line (segments (text ++ '\n' :: tail)) =
      alongLines give line (segments text) ++
        alongLines give (text.count '\n' + 1 + line) (segments tail) := by
  have hline : line + text.count '\n' + (Segment.blank '\n').lineFeeds = text.count '\n' + 1 + line := by
    rw [Segment.lineFeeds, Segment.text, List.count_singleton_self]
    omega
  rw [segments_append_lineFeed h, alongLines_append, joined_segments, alongLines, skips.blank, List.nil_append,
    hline]

theorem tokensFrom_append_lineFeed {text : List Char} (h : Closed text) (tail : List Char) :
    tokensFrom 1 (segments (text ++ '\n' :: tail)) =
      tokensFrom 1 (segments text) ++
        (tokensFrom 1 (segments tail)).map (Token.below (text.count '\n' + 1)) := by
  rw [← tokensFrom_add]
  exact alongLines_append_lineFeed skipsBlanks_tokens 1 h tail

theorem findingsFrom_append_lineFeed {text : List Char} (h : Closed text) (tail : List Char) :
    findingsFrom 1 (segments (text ++ '\n' :: tail)) =
      findingsFrom 1 (segments text) ++
        (findingsFrom 1 (segments tail)).map (Finding.below (text.count '\n' + 1)) := by
  rw [← findingsFrom_add]
  exact alongLines_append_lineFeed skipsBlanks_findings 1 h tail

/-- No lexeme, comment or look ahead reaches past a line feed, so the scan of a text after it is that text's own
scan, further down. Only a string without an end would swallow the line feed. -/
theorem scan_append_lineFeed (a b : String) (h : EndsStrings a) :
    (scan (a ++ "\n" ++ b)).tokens.toList =
        (scan a).sourceTokens ++ (scan b).tokens.toList.map (Token.below (a.toList.count '\n' + 1)) ∧
      (scan (a ++ "\n" ++ b)).diagnostics =
        (scan a).diagnostics ++ (scan b).diagnostics.map (Diagnostic.below (a.toList.count '\n' + 1)) ∧
      (scan (a ++ "\n" ++ b)).erred = ((scan a).erred || (scan b).erred) := by
  have hclosed := endsStrings_iff.mp h
  have hlist : (a ++ "\n" ++ b).toList = a.toList ++ '\n' :: b.toList := by simp
  have htokens := tokensFrom_append_lineFeed hclosed b.toList
  have hfindings := findingsFrom_append_lineFeed hclosed b.toList
  rw [← hlist] at htokens hfindings
  refine ⟨?_, ?_, ?_⟩
  · have hcount : 1 + (a ++ "\n" ++ b).toList.count '\n' =
        a.toList.count '\n' + 1 + (1 + b.toList.count '\n') := by
      rw [hlist, List.count_append, List.count_cons_self]
      omega
    simp only [scan, tokens_scanInto, sourceTokens_scanInto, htokens, hcount, List.map_append, List.map_cons,
      List.map_nil, List.append_assoc]
    rfl
  · simp only [diagnostics_scan, hfindings, List.map_append, List.map_map]
    rfl
  · simp only [scan, erred_scanInto, hfindings]
    cases findingsFrom 1 (segments a.toList) <;> simp

/-- A comment, a point after digits and a trailing backslash all end before the line feed. -/
theorem scan_append_lineFeed_comment :
    EndsStrings "1.\\\\ '\n2.\\" ∧
      (scan ("1.\\\\ '\n2.\\" ++ "\n" ++ "\\@")).tokens.toList =
        (scan "1.\\\\ '\n2.\\").sourceTokens ++ (scan "\\@").tokens.toList.map (Token.below 2) := by
  have h : EndsStrings "1.\\\\ '\n2.\\" := by
    unfold EndsStrings
    decide +kernel
  exact ⟨h, (scan_append_lineFeed _ _ h).1⟩

end ScriptScan
