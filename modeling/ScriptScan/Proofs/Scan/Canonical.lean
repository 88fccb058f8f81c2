-- SUMMARY: A number token displays its literal as a number of the language, with the fewest digits, and so does JSON.
import ScriptScan.Proofs.Number.Reading
import ScriptScan.Proofs.Scan.Division
import ScriptScan.Proofs.Scan.Numbers

/-!
# Canonical numbers

Both formats lay out a shortest decimal, each in its own way. Positional notation is a single number of the language,
whatever its length, and any notation reads back as JSON.
-/

namespace ScriptScan

open Binary64

/-! ## Formats -/

namespace NumberFormat

variable (format : NumberFormat)

variable {x : Binary64} (positive : x.negative = false) (hfinite : x.IsFinite)

include positive hfinite

/-- What is always positional is a numeral. -/
theorem exists_numeral_render (positional : ∀ leading, format.positional leading = true) :
    ∃ whole fraction, IsNumeral (format.render x).toList whole fraction ∧
      (Decimal.ofDigits whole fraction).IsShortest x := by
  have hrank := (isFinite_iff x).mp hfinite
  obtain ⟨d, hlayout, hzero, hshortest⟩ := format.magnitude_eq_layout hrank
  obtain ⟨whole, fraction, hnumeral, hvalue⟩ := plain_toDigits format.keepsPoint hzero
  rw [ofRank_rank positive] at hshortest
  refine ⟨whole, fraction, ?_, hshortest.congr hvalue⟩
  rw [format.toList_render hrank, positive, hlayout, layout, if_pos (positional _)]
  exact hnumeral

theorem exists_word_render :
    ∃ d : Decimal, Json.word? (format.render x).toList = some (.number false d) ∧ d.IsShortest x := by
  have hrank := (isFinite_iff x).mp hfinite
  obtain ⟨d, ⟨-, e, hread, hvalue⟩, hshortest⟩ := format.readsAs_magnitude hrank
  rw [ofRank_rank positive] at hshortest
  refine ⟨e, ?_, hshortest.congr hvalue⟩
  rw [format.toList_render hrank, positive]
  exact word?_of_magnitude? hread

end NumberFormat

/-! ## Scans of numbers -/

/-- A numeral is a number of the language, and the whole of it one token. -/
theorem scan_numeral {text : String} {whole fraction : List Char} (h : IsNumeral text.toList whole fraction) :
    (scan text).diagnostics = [] ∧ (scan text).erred = false ∧
      (scan text).tokens.toList =
        [⟨.number, text, .number (Decimal.ofDigits whole fraction).nearest, 1⟩, .endAt 1] := by
  have hjoined : text.toList = joined [.number whole fraction] := by
    rw [joined, List.flatMap_singleton, h.text_eq]
  have hends : (Segment.number whole fraction).EndsAt .nothing := by simp [Segment.EndsAt]
  have hsegments : segments text.toList = [.number whole fraction] := by
    rw [hjoined]
    exact segments_joined ⟨⟨[], .number h.nonempty h.digits h.places⟩, hends, trivial⟩
  have hfeeds : text.toList.count '\n' = 0 := by
    refine List.count_eq_zero.mpr fun hmem => ?_
    rcases h.isDigit_or hmem with hdigit | hpoint
    · exact absurd hdigit (by decide)
    · exact absurd hpoint (by decide)
  have hlexeme : (Segment.number whole fraction).lexeme = text := by
    rw [Segment.lexeme, ← h.text_eq, String.ofList_toList]
  have hline : (Segment.number whole fraction).lineFeeds = 0 := by
    rw [Segment.lineFeeds, ← h.text_eq, hfeeds]
  refine ⟨?_, ?_, ?_⟩
  · rw [diagnostics_scan, hsegments]
    rfl
  · rw [scan, erred_scanInto, hsegments]
    rfl
  · rw [scan, tokens_scanInto, hsegments, hfeeds, tokensFrom, alongLines, hline, alongLines, Segment.tokens, hlexeme]
    rfl

/-- The display text of a number token with a finite literal is by itself a number of the language, with the same
literal, so that to display it again makes no difference. Its JSON text reads back to that literal too. Neither has
more digits than any decimal that does. -/
theorem scan_number_display {source : String} {t : Token} {x : Binary64} (ht : t ∈ (scan source).tokens.toList)
    (hkind : t.kind = .number) (hliteral : t.literal = .number x) (hfinite : x.IsFinite) :
    let text := t.literal.display
    (scan text).diagnostics = [] ∧ (scan text).erred = false ∧
      (scan text).tokens.toList = [⟨.number, text, .number x, 1⟩, .endAt 1] ∧
      (scan text).sourceTokens.map (·.literal.display) = [text] ∧
      (∃ d, Decimal.read? text.toList = some d ∧ d.IsShortest x) ∧
      ∃ d, Json.word? t.literal.json.toList = some (.number false d) ∧ d.IsShortest x := by
  have positive : x.negative = false := by
    obtain ⟨whole, fraction, -, -, -, hnearest⟩ := exists_numeral ht hkind
    obtain rfl := Literal.number.inj (hliteral.symm.trans hnearest)
    exact (Decimal.isNearest_nearest _).positive
  obtain ⟨whole, fraction, hnumeral, hshortest⟩ :=
    Literal.displayFormat.exists_numeral_render positive hfinite fun _ => rfl
  obtain ⟨hdiagnostics, herred, htokens⟩ := scan_numeral hnumeral
  rw [hshortest.nearest] at htokens
  rw [hliteral]
  refine ⟨hdiagnostics, herred, htokens, ?_, ⟨_, hnumeral.read?, hshortest⟩,
    Literal.jsonFormat.exists_word_render positive hfinite⟩
  rw [Scan.sourceTokens, Literal.display, htokens]
  rfl

/-- The word nearest to the twenty-third power of ten lies below it, and has that power as its shortest decimal. -/
theorem scan_number_display_power :
    let x : Binary64 := ⟨0x44b52d02c7e14af6⟩
    (⟨.number, "99999999999999991611392.0", .number x, 1⟩ : Token) ∈
        (scan "99999999999999991611392.0").tokens.toList ∧
      (scan "100000000000000000000000").tokens.toList =
        [⟨.number, "100000000000000000000000", .number x, 1⟩, .endAt 1] ∧
      ∃ d, Json.word? "1e+23".toList = some (.number false d) ∧ d.IsShortest x := by
  intro x
  have hmem : (⟨.number, "99999999999999991611392.0", .number x, 1⟩ : Token) ∈
      (scan "99999999999999991611392.0").tokens.toList := by decide +kernel
  have hdisplay : (Literal.number x).display = "100000000000000000000000" := by decide +kernel
  have hjson : (Literal.number x).json = "1e+23" := by decide +kernel
  have hfinite : x.IsFinite := by
    rw [IsFinite]
    decide
  obtain ⟨-, -, htokens, -, -, hword⟩ := scan_number_display hmem rfl rfl hfinite
  rw [hdisplay] at htokens
  rw [hjson] at hword
  exact ⟨hmem, htokens, hword⟩

end ScriptScan
