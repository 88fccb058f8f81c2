-- SUMMARY: A scan treats all insignificant characters alike, the null character among them.
import Mathlib.Data.List.Forall2
import ScriptScan.Proofs.Scan.Automaton
import ScriptScan.Proofs.Scan.Division

/-!
# Exchanging insignificant characters

A map of characters that leaves the significant ones as they are, and makes no other one significant, goes through
a scan: glances, the segments before them and the modes of the automaton show no difference, and lexemes, texts and
reports name the new characters. The null character is one of those that may come and go.
-/

namespace ScriptScan

/-- Significant characters stay as they are, and no other one becomes significant. -/
structure KeepsSignificant (f : Char → Char) : Prop where
  fixes : ∀ c, Significant c → f c = c
  strange : ∀ c, ¬Significant c → ¬Significant (f c)

/-! ## What is exchanged -/

def Literal.exchange (f : Char → Char) : Literal → Literal
  | .text value => .text (value.map f)
  | literal => literal

def Token.exchange (f : Char → Char) (t : Token) : Token :=
  { t with lexeme := t.lexeme.map f, literal := t.literal.exchange f }

@[simp] theorem Token.exchange_endAt (f : Char → Char) (line : Nat) :
    (Token.endAt line).exchange f = Token.endAt line := by
  simp [Token.exchange, Token.endAt, Literal.exchange]

/-- The second report is the first one with the character that it names exchanged. -/
inductive Diagnostic.Exchanged (f : Char → Char) : Diagnostic → Diagnostic → Prop
  | stray (line : Nat) (c : Char) : Exchanged f (strayReport line c) (strayReport line (f c))
  | unclosed (line : Nat) : Exchanged f (openReport line) (openReport line)

def Segment.exchange (f : Char → Char) : Segment → Segment
  | .comment body => .comment (body.map f)
  | .string opening body closing => .string opening (body.map f) closing
  | .unexpected c => .unexpected (f c)
  | .unterminated opening body => .unterminated opening (body.map f)
  | s => s

theorem ofList_map (f : Char → Char) (text : List Char) :
    String.ofList (text.map f) = (String.ofList text).map f := by
  rw [← String.toList_inj, String.toList_map, String.toList_ofList, String.toList_ofList]

/-! ## Segments of significant characters -/

theorem significant_symbol (kind : Kind) : ∀ c ∈ kind.symbol, Significant c := by
  cases kind <;> simp [Kind.symbol, Significant]

theorem significant_blank : ∀ c ∈ [' ', '\t', '\r', '\n'], Significant c := by
  simp [Significant]

theorem significant_quote {c : Char} (h : IsQuote c) : Significant c := by
  rcases h with rfl | rfl <;> decide

theorem significant_number {whole fraction : List Char} (digits : ∀ c ∈ whole, c.isDigit)
    (places : ∀ c ∈ fraction, c.isDigit) : ∀ c ∈ (Segment.number whole fraction).text, Significant c := by
  intro c hc
  cases fraction with
  | nil => exact .inr (digits c hc)
  | cons d fraction =>
    rcases List.mem_append.mp hc with hc | hc
    · exact .inr (digits c hc)
    rcases List.mem_cons.mp hc with rfl | hc
    · decide
    · exact .inr (places c hc)

namespace KeepsSignificant

variable {f : Char → Char} (h : KeepsSignificant f)

include h

/-! ## Characters -/

theorem significant_iff {c : Char} : Significant (f c) ↔ Significant c := by
  constructor
  · intro hf
    by_contra hc
    exact h.strange c hc hf
  · intro hc
    rwa [h.fixes c hc]

theorem eq_iff {c d : Char} (hd : Significant d) : f c = d ↔ c = d := by
  constructor
  · rintro rfl
    exact (h.fixes c (h.significant_iff.mp hd)).symm
  · rintro rfl
    exact h.fixes c hd

theorem isQuote_iff {c : Char} : IsQuote (f c) ↔ IsQuote c := by
  rw [IsQuote, IsQuote, h.eq_iff (by decide), h.eq_iff (by decide)]

theorem isDigit_eq (c : Char) : (f c).isDigit = c.isDigit := by
  by_cases hc : Significant c
  · rw [h.fixes c hc]
  · have hno {d : Char} (hd : ¬Significant d) : d.isDigit = false := by
      rw [← Bool.not_eq_true]
      exact fun hdigit => hd (.inr hdigit)
    rw [hno hc, hno (h.strange c hc)]

theorem map_eq_self {text : List Char} (significant : ∀ c ∈ text, Significant c) : text.map f = text := by
  rw [List.map_congr_left fun c hc => h.fixes c (significant c hc), List.map_id']

theorem count_map (text : List Char) : (text.map f).count '\n' = text.count '\n' := by
  induction text with
  | nil => rfl
  | cons c cs ih =>
    have hfeed : f c = '\n' ↔ c = '\n' := h.eq_iff (by decide)
    simp only [List.map_cons, List.count_cons, ih, beq_iff_eq, hfeed]

theorem glance_map (text : List Char) : glance (text.map f) = glance text := by
  cases text with
  | nil => rfl
  | cons c cs =>
    by_cases hc : Significant c
    · rw [List.map_cons, h.fixes c hc]
      by_cases hpoint : c = '.'
      · subst hpoint
        have hhead : (cs.map f).head?.any Char.isDigit = cs.head?.any Char.isDigit := by
          simp [Option.any_map, h.isDigit_eq]
        simp only [glance, hhead]
      · have hone : [c] ≠ ['.'] := by simpa using hpoint
        exact (glance_append (List.cons_ne_nil c []) hone (cs.map f)).trans
          (glance_append (List.cons_ne_nil c []) hone cs).symm
    · rw [List.map_cons, glance_of_not_significant (h.strange c hc), glance_of_not_significant hc]

/-! ## Segments -/

theorem text_exchange {s : Segment} (formed : s.Formed) : (s.exchange f).text = s.text.map f := by
  obtain ⟨_, hfits⟩ := formed
  have hquote {c : Char} (hc : IsQuote c) : f c = c := h.fixes c (significant_quote hc)
  have hbackslash : f '\\' = '\\' := h.fixes _ (by decide)
  cases hfits with
  | @fixed kind => exact (h.map_eq_self (significant_symbol kind)).symm
  | blank mem => exact (h.map_eq_self (List.forall_mem_singleton.mpr (significant_blank _ mem))).symm
  | number _ digits places => exact (h.map_eq_self (significant_number digits places)).symm
  | comment => simp [Segment.exchange, Segment.text, hbackslash]
  | string opens _ closes => simp [Segment.exchange, Segment.text, hquote opens, hquote closes]
  | unexpected => rfl
  | unterminated opens => simp [Segment.exchange, Segment.text, hquote opens]

theorem formed_exchange {s : Segment} (formed : s.Formed) : (s.exchange f).Formed := by
  obtain ⟨rest, hfits⟩ := formed
  have hinside {body : List Char} (inside : ∀ c ∈ body, ¬IsQuote c) : ∀ c ∈ body.map f, ¬IsQuote c := by
    intro c hc
    obtain ⟨d, hd, rfl⟩ := List.mem_map.mp hc
    exact fun hquote => inside d hd (h.isQuote_iff.mp hquote)
  cases hfits with
  | fixed symbol single => exact ⟨rest, .fixed symbol single⟩
  | blank mem => exact ⟨rest, .blank mem⟩
  | number nonempty digits places => exact ⟨rest, .number nonempty digits places⟩
  | comment oneLine lineEnd =>
    refine ⟨rest, .comment ?_ lineEnd⟩
    rw [← List.count_eq_zero] at oneLine ⊢
    rwa [h.count_map]
  | string opens inside closes => exact ⟨rest, .string opens (hinside inside) closes⟩
  | unexpected strange => exact ⟨rest, .unexpected (h.strange _ strange)⟩
  | unterminated opens inside => exact ⟨[], .unterminated opens (hinside inside)⟩

theorem joined_exchange {ss : List Segment} (formed : ∀ s ∈ ss, s.Formed) :
    joined (ss.map (Segment.exchange f)) = (joined ss).map f := by
  induction ss with
  | nil => rfl
  | cons s ss ih =>
    obtain ⟨hs, hss⟩ := List.forall_mem_cons.mp formed
    rw [List.map_cons, joined_cons, joined_cons, h.text_exchange hs, ih hss, List.map_append]

theorem segments_map (text : List Char) :
    segments (text.map f) = (segments text).map (Segment.exchange f) := by
  have hends (s : Segment) (ss : List Segment) (hseparable : Separable (s :: ss)) :
      (s.exchange f).EndsAt (glance (joined (ss.map (Segment.exchange f)))) := by
    rw [h.joined_exchange hseparable.2.2.formed, h.glance_map]
    obtain ⟨-, ends, -⟩ := hseparable
    cases s <;> exact ends
  have hseparable := separable_segments text
  have hsegments := segments_joined (hseparable.map (fun _ => h.formed_exchange) hends)
  rwa [h.joined_exchange hseparable.formed, joined_segments] at hsegments

/-! ## Tokens -/

theorem lineFeeds_exchange {s : Segment} (formed : s.Formed) : (s.exchange f).lineFeeds = s.lineFeeds := by
  rw [Segment.lineFeeds, h.text_exchange formed, h.count_map, Segment.lineFeeds]

theorem lexeme_exchange {s : Segment} (formed : s.Formed) : (s.exchange f).lexeme = s.lexeme.map f := by
  rw [Segment.lexeme, h.text_exchange formed, ofList_map, Segment.lexeme]

theorem tokens_exchange {s : Segment} (formed : s.Formed) (line : Nat) :
    (s.exchange f).tokens line = (s.tokens line).map (Token.exchange f) := by
  have hlexeme := h.lexeme_exchange formed
  cases s with
  | fixed | number =>
    simp only [Segment.tokens, Segment.exchange, List.map_cons, List.map_nil, Token.exchange,
      Literal.exchange] at hlexeme ⊢
    rw [← hlexeme]
  | string =>
    simp only [Segment.tokens, Segment.exchange, List.map_cons, List.map_nil, Token.exchange, Literal.exchange,
      ofList_map] at hlexeme ⊢
    rw [hlexeme]
  | blank | comment | unexpected | unterminated => rfl

theorem tokens_map (source : String) :
    (scan (source.map f)).tokens.toList = (scan source).tokens.toList.map (Token.exchange f) := by
  have hformed := (separable_segments source.toList).formed
  have hgiven : ∀ s ∈ segments source.toList, ∀ n,
      (s.exchange f).tokens n = (s.tokens n).filterMap (some ∘ Token.exchange f) := by
    intro s hs n
    rw [h.tokens_exchange (hformed s hs), List.filterMap_eq_map]
  have htokens := alongLines_map (fun s hs => h.lineFeeds_exchange (hformed s hs)) hgiven 1
  rw [← h.segments_map, List.filterMap_eq_map] at htokens
  rw [scan, tokens_scanInto, String.toList_map, tokensFrom, htokens, h.count_map, scan, tokens_scanInto,
    List.map_append, tokensFrom, List.map_singleton, Token.exchange_endAt]

/-! ## Diagnostics -/

theorem next_eq (m : Mode) (c : Char) : m.next (f c) = m.next c := by
  have hbackslash : f c = '\\' ↔ c = '\\' := h.eq_iff (by decide)
  have hfeed : f c = '\n' ↔ c = '\n' := h.eq_iff (by decide)
  cases m <;> simp only [Mode.next, Mode.opening, hbackslash, hfeed, h.isQuote_iff]

theorem after_map (text : List Char) : Mode.after (text.map f) = Mode.after text := by
  simp only [Mode.after, List.foldl_map, h.next_eq]

theorem rejects_iff {m : Mode} {c : Char} : m.Rejects (f c) ↔ m.Rejects c := by
  rw [Mode.Rejects, Mode.Rejects, h.significant_iff]

theorem exchanged_strayReports (before text : List Char) :
    List.Forall₂ (Diagnostic.Exchanged f) (strayReports before text)
      (strayReports (before.map f) (text.map f)) := by
  induction text generalizing before with
  | nil => exact .nil
  | cons c cs ih =>
    have hrest := ih (before ++ [c])
    rw [List.map_append, List.map_singleton] at hrest
    simp only [List.map_cons, strayReports, h.after_map, h.rejects_iff, h.count_map]
    split
    · exact .cons (.stray _ c) hrest
    · exact hrest

theorem exchanged_openReports (text : List Char) :
    List.Forall₂ (Diagnostic.Exchanged f) (openReports text) (openReports (text.map f)) := by
  rw [openReports, openReports, h.after_map, h.count_map]
  split
  · exact .cons (.unclosed _) .nil
  · exact .nil

theorem diagnostics_map (source : String) :
    List.Forall₂ (Diagnostic.Exchanged f) (scan source).diagnostics (scan (source.map f)).diagnostics := by
  rw [diagnostics_eq_reports, diagnostics_eq_reports, String.toList_map]
  exact List.rel_append (h.exchanged_strayReports [] source.toList) (h.exchanged_openReports source.toList)

end KeepsSignificant

/-! ## Exchanged scans -/

/-- A source with its insignificant characters exchanged scans to the same tokens and diagnostics, but for those
characters in lexemes, in texts and in reports. -/
theorem scan_exchange {f : Char → Char} (h : KeepsSignificant f) (source : String) :
    (scan (source.map f)).tokens.toList = (scan source).tokens.toList.map (Token.exchange f) ∧
      List.Forall₂ (Diagnostic.Exchanged f) (scan source).diagnostics (scan (source.map f)).diagnostics :=
  ⟨h.tokens_map source, h.diagnostics_map source⟩

/-- The null character in the place of every insignificant one. -/
def nulled (c : Char) : Char := if Significant c then c else '\x00'

theorem keepsSignificant_nulled : KeepsSignificant nulled where
  fixes _ hc := if_pos hc
  strange c hc := by
    rw [nulled, if_neg hc]
    decide

/-- No null character is taken for the end: in a string it is text, behind a digit and a point it is stray, and so it
is where the source ends. -/
theorem scan_exchange_nulled :
    KeepsSignificant nulled ∧
      (scan "\x00'\x00'1.\x00").tokens.toList =
        [⟨.string, "'\x00'", .text "\x00", 1⟩, ⟨.number, "1", .number (Decimal.nearest ⟨1, 0⟩), 1⟩,
          ⟨.dot, ".", .none, 1⟩, .endAt 1] ∧
      List.Forall₂ (Diagnostic.Exchanged nulled) (scan "é'ü'1.ß").diagnostics
        (scan "\x00'\x00'1.\x00").diagnostics := by
  have hnull : "é'ü'1.ß".map nulled = "\x00'\x00'1.\x00" := by decide +kernel
  obtain ⟨htokens, hdiagnostics⟩ := scan_exchange keepsSignificant_nulled "é'ü'1.ß"
  rw [hnull] at htokens hdiagnostics
  exact ⟨keepsSignificant_nulled, htokens.trans (by decide +kernel), hdiagnostics⟩

end ScriptScan
