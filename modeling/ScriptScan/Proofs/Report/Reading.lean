-- SUMMARY: What a scan writes to an error stream can be read back: each line is the report of one diagnostic.
import ScriptScan.Proofs.Report.Agreement
import ScriptScan.Proofs.Scan.Automaton
import ScriptScan.Proofs.Text.Lines

/-!
# Reading reports

A report escapes nothing, and the message about a stray character holds that character. But no line feed is a stray
one, so a report never breaks off its line, and the line it is about ends at the first bracket.
-/

namespace ScriptScan

/-- The diagnostics that a scan can come to. -/
inductive Diagnostic.Lexical : Diagnostic → Prop
  | stray {line : Nat} {c : Char} (strange : ¬Significant c) : Lexical (strayReport line c)
  | unclosed {line : Nat} : Lexical (openReport line)

theorem lexical_of_mem_strayReports {d : Diagnostic} {before text : List Char} (h : d ∈ strayReports before text) :
    d.Lexical := by
  induction text generalizing before with
  | nil => cases h
  | cons c cs ih =>
    rw [strayReports, List.mem_append] at h
    rcases h with h | h
    · split at h
      · next hrejected =>
        rw [List.mem_singleton.mp h]
        exact .stray hrejected.2
      · cases h
    · exact ih h

theorem lexical_of_mem_diagnostics {d : Diagnostic} {source : String} (h : d ∈ (scan source).diagnostics) :
    d.Lexical := by
  rw [diagnostics_eq_reports, List.mem_append] at h
  rcases h with h | h
  · exact lexical_of_mem_strayReports h
  · rw [openReports] at h
    split at h
    · rw [List.mem_singleton.mp h]
      exact .unclosed
    · cases h

/-! ## Single reports -/

namespace Diagnostic.Lexical

variable {d e : Diagnostic}

theorem isError (h : d.Lexical) : d.isError = true := by
  cases h <;> rfl

theorem toList_display (h : d.Lexical) :
    ∃ line, d.line = some line ∧
      d.display.toList = "[line ".toList ++ (Nat.toDigits 10 line ++ ']' :: (" Error: ".toList ++ d.message.toList)) := by
  cases h with
  | @stray line | @unclosed line =>
    refine ⟨line, rfl, ?_⟩
    simp [display, strayReport, openReport, Category.label, Nat.toList_repr]

theorem lineFeed_not_mem_message (h : d.Lexical) : '\n' ∉ d.message.toList := by
  cases h with
  | @stray line c strange =>
    have hfeed : '\n' ≠ c := by
      rintro rfl
      exact strange (by decide)
    simp [strayReport, hfeed]
  | unclosed => simp [openReport]

theorem lineFeed_not_mem_display (h : d.Lexical) : '\n' ∉ d.display.toList := by
  obtain ⟨line, -, htext⟩ := h.toList_display
  have hdigits : '\n' ∉ Nat.toDigits 10 line :=
    fun hmem => absurd (Nat.isDigit_of_mem_toDigits (by decide) (by decide) hmem) (by decide)
  have hlabels : '\n' ∉ "[line ".toList ∧ '\n' ∉ " Error: ".toList := by decide
  rw [htext]
  simp only [List.mem_append, List.mem_cons, not_or]
  exact ⟨hlabels.1, hdigits, by decide, hlabels.2, h.lineFeed_not_mem_message⟩

/-- The two messages differ before the first stray character comes. -/
theorem eq_of_message (hd : d.Lexical) (he : e.Lexical) (hline : d.line = e.line) (h : d.message = e.message) :
    d = e := by
  cases hd with
  | @stray line c strange =>
    cases he with
    | @stray line' c' strange' =>
      obtain rfl := Option.some.inj hline
      obtain rfl := String.singleton_inj.mp ((String.append_right_inj _).mp h)
      rfl
    | unclosed => exact absurd (congrArg String.toList h) (by simp [strayReport, openReport])
  | @unclosed line =>
    cases he with
    | stray => exact absurd (congrArg String.toList h) (by simp [strayReport, openReport])
    | unclosed =>
      obtain rfl := Option.some.inj hline
      rfl

theorem eq_of_display (hd : d.Lexical) (he : e.Lexical) (h : d.display = e.display) : d = e := by
  obtain ⟨line, hline, htext⟩ := hd.toList_display
  obtain ⟨line', hline', htext'⟩ := he.toList_display
  have hdigits (n : Nat) : ∀ c ∈ Nat.toDigits 10 n, ¬c = ']' := by
    rintro c hc rfl
    exact absurd (Nat.isDigit_of_mem_toDigits (by decide) (by decide) hc) (by decide)
  rw [h, htext', List.append_cancel_left_eq] at htext
  obtain ⟨hnumber, -, hrest⟩ := eq_of_append_cons (hdigits line') (hdigits line) rfl rfl htext
  have hsame : line = line' := by
    rw [← Nat.ofDigitChars_ten_toDigits (n := line), ← hnumber, Nat.ofDigitChars_ten_toDigits]
  refine hd.eq_of_message he (by rw [hline, hline', hsame]) ?_
  exact String.toList_inj.mp (List.append_cancel_left hrest).symm

end Diagnostic.Lexical

theorem eq_of_map_display {ds es : List Diagnostic} (hds : ∀ d ∈ ds, d.Lexical) (hes : ∀ e ∈ es, e.Lexical)
    (h : ds.map (·.display.toList) = es.map (·.display.toList)) : ds = es := by
  induction ds generalizing es with
  | nil => exact (List.map_eq_nil_iff.mp h.symm).symm
  | cons d ds ih =>
    obtain ⟨hd, hds⟩ := List.forall_mem_cons.mp hds
    obtain ⟨e, es, rfl, hdisplay, hrest⟩ := List.map_eq_cons_iff.mp h.symm
    obtain ⟨he, hes⟩ := List.forall_mem_cons.mp hes
    rw [hd.eq_of_display he (String.toList_inj.mp hdisplay.symm), ih hds hes hrest.symm]

/-! ## Texts of reports -/

theorem toList_reportText_cons (d : Diagnostic) (ds : List Diagnostic) :
    (reportText false (d :: ds)).toList = d.display.toList ++ '\n' :: (reportText false ds).toList := by
  simp [reportText, Diagnostic.reportLine, String.join_cons]

theorem pieces_reportText {ds : List Diagnostic} (h : ∀ d ∈ ds, d.Lexical) :
    pieces '\n' (reportText false ds).toList = ds.map (·.display.toList) ++ [[]] := by
  induction ds with
  | nil => rfl
  | cons d ds ih =>
    obtain ⟨hd, hds⟩ := List.forall_mem_cons.mp h
    rw [toList_reportText_cons, pieces_append hd.lineFeed_not_mem_display, ih hds, List.map_cons, List.cons_append]

theorem count_reportText {ds : List Diagnostic} (h : ∀ d ∈ ds, d.Lexical) :
    (reportText false ds).toList.count '\n' = ds.countP (·.isError) := by
  induction ds with
  | nil => rfl
  | cons d ds ih =>
    obtain ⟨hd, hds⟩ := List.forall_mem_cons.mp h
    rw [toList_reportText_cons, List.count_append, List.count_eq_zero.mpr hd.lineFeed_not_mem_display,
      List.count_cons_self, ih hds, List.countP_cons_of_pos hd.isError, Nat.zero_add]

/-! ## Scans -/

/-- What a scan writes on a stream without a limit has a line feed for each error. Between the line feeds stand the
displays of the diagnostics in their order, and so the text is that of one list of diagnostics only. -/
theorem scan_reports_read_back (source : String) (flushes : Bool) :
    let console (source : String) := (scanInto source (Console.on (Sink.empty none flushes) false)).reporter
    ∃ text : String, (console source).stream.kept.toList = bytes text ∧
      text.toList.count '\n' = (console source).errorCount ∧
      pieces '\n' text.toList = (scan source).diagnostics.map (·.display.toList) ++ [[]] ∧
      ∀ other, (console other).stream.kept = (console source).stream.kept ↔
        (scan other).diagnostics = (scan source).diagnostics := by
  intro console
  have hconsole (source : String) : console source = .ofList false flushes (scan source).diagnostics := by
    have hempty : Console.on (Sink.empty none flushes) false = .ofList false flushes [] := by
      rw [Sink.empty_eq_after]
      rfl
    simp only [console, hempty]
    exact (records_console false flushes).reporter_scanInto [] source
  have hlexical (source : String) : ∀ d ∈ (scan source).diagnostics, d.Lexical :=
    fun _ => lexical_of_mem_diagnostics
  have hkept (source : String) :
      (console source).stream.kept = (bytes (reportText false (scan source).diagnostics)).toArray := by
    rw [hconsole]
    rfl
  refine ⟨reportText false (scan source).diagnostics, ?_, ?_, pieces_reportText (hlexical source), ?_⟩
  · rw [hkept]
  · rw [count_reportText (hlexical source), hconsole]
    rfl
  · intro other
    rw [hkept, hkept]
    constructor
    · intro h
      have htext := bytes_injective (Array.toList_inj.mpr h)
      have hpieces := pieces_reportText (hlexical other)
      rw [htext, pieces_reportText (hlexical source), List.append_cancel_right_eq] at hpieces
      exact eq_of_map_display (hlexical other) (hlexical source) hpieces.symm
    · intro h
      rw [h]

end ScriptScan
