-- SUMMARY: A scan logs one record for each of its diagnostics, in their order, and one more when it is over.
import Mathlib.Data.List.Forall2
import ScriptScan.Proofs.Scan.Places

/-!
# The log of a scan

Records and diagnostics come out of the same findings, so that they never get out of step. What a record shows of
the source is told here without segments: the automaton says which characters are errors where they stand, and which
quote opens a string that nothing closes.
-/

namespace ScriptScan

/-- A record tells of a diagnostic, and shows the text that it is about. -/
structure Log.Record.Tells (r : Log.Record) (d : Diagnostic) (lexeme : String) : Prop where
  level : r.level = .debug
  message : r.message = "lexer error: " ++ d.message
  fields : ∃ line, d.line = some line ∧
    r.fields = [("line", .nat line), ("lexeme", .text lexeme), ("code", .nat d.code)]

/-- `Blames source d before text`: a diagnostic of a source is about some text, which stands after `before`. -/
inductive Blames (source : List Char) : Diagnostic → List Char → List Char → Prop
  /-- A character that is an error where it stands. -/
  | stray {before rest : List Char} {c : Char} (stands : before ++ c :: rest = source)
      (rejected : (Mode.after before).Rejects c) : Blames source (strayReport (lastLine before) c) before [c]
  /-- A quote that opens a string, and the rest of the source, in which no quote closes it. -/
  | unclosed {before body : List Char} {opening : Char} (stands : before ++ opening :: body = source)
      (quote : IsQuote opening) (outside : Mode.after before ≠ .inString)
      (opens : Mode.after (before ++ [opening]) = .inString) (inside : ∀ c ∈ body, ¬IsQuote c) :
      Blames source (openReport (lastLine source)) before (opening :: body)

/-! ## Records of findings -/

theorem Finding.record_tells (f : Finding) : f.record.Tells f.diagnostic f.lexeme := ⟨rfl, rfl, f.line, rfl, rfl⟩

/-- A journal keeps the records of all findings, in order. -/
theorem records_foldl_tell (fs : List Finding) (j : Journal) :
    (fs.foldl Finding.tell j).records.toList = j.records.toList ++ fs.map Finding.record := by
  induction fs generalizing j with
  | nil => simp
  | cons f fs ih =>
    have htell : (Finding.tell j f).records.toList = j.records.toList ++ [f.record] := by
      simp [Finding.tell, Reporter.receive, Reporter.log]
    rw [List.foldl_cons, ih, htell, List.map_cons, List.append_assoc, List.singleton_append]

theorem scanRecords_eq (source : String) :
    scanRecords source = (findingsFrom 1 (segments source.toList)).map Finding.record ++
      [.scanFinished (scan source).tokens.size (lastLine source.toList) (scan source).erred] := by
  have hlog (j : Journal) (r : Log.Record) : (Reporter.log j r).records.toList = j.records.toList ++ [r] := by
    simp [Reporter.log]
  rw [scanRecords, reporter_scanInto, hlog, records_foldl_tell, tokens_scanInto_eq_scan, erred_scanInto_eq_scan]
  rfl

/-! ## What findings are about -/

/-- Where a segment begins, nothing has begun for the automaton. -/
theorem boundary_of_mem_placesFrom {p : Place} {before text : List Char} (h : (Mode.after before).Boundary text)
    (hp : p ∈ placesFrom before (segments text)) :
    ∃ rest, p.segment.Fits rest ∧ p.through ++ rest = before ++ text ∧
      (Mode.after p.before).Boundary (p.segment.text ++ rest) := by
  induction text using segments.induct generalizing before with
  | case1 => simp [segments, placesFrom] at hp
  | case2 c cs ih =>
    obtain ⟨hfits, htext⟩ := Segment.starts_read c cs
    rw [segments, placesFrom] at hp
    rcases List.mem_cons.mp hp with rfl | hp
    · exact ⟨_, hfits, by rw [Place.through, List.append_assoc, htext], by rwa [htext]⟩
    · rw [← htext] at h
      obtain ⟨m, reports, hwalks, hcases⟩ := walks_segment hfits h
      rcases hcases with ⟨hboundary, -⟩ | ⟨-, hrest, -, -⟩
      · rw [← hwalks.after] at hboundary
        obtain ⟨rest, hrest, hthrough, hat⟩ := ih hboundary hp
        exact ⟨rest, hrest, by rw [hthrough, List.append_assoc, htext], hat⟩
      · -- the string before ran to the end
        simp [hrest, segments, placesFrom] at hp

theorem blames_of_mem_findings {source : String} {f : Finding} (h : f ∈ findingsFrom 1 (segments source.toList)) :
    ∃ before text, Blames source.toList f.diagnostic before text ∧ f.lexeme = String.ofList text := by
  have hplaces : findingsFrom 1 (segments source.toList) =
      (places source).flatMap fun p => p.segment.findings (lastLine p.through) :=
    alongLines_eq_flatMap Segment.findings [] (segments source.toList)
  rw [hplaces] at h
  obtain ⟨p, hp, hf⟩ := List.mem_flatMap.mp h
  have hreport : f.diagnostic ∈ p.reports (lastLine source.toList) := by
    rw [← findings_eq_reports hp]
    exact List.mem_map_of_mem hf
  have hstart : (Mode.after []).Boundary source.toList := boundary_normal
  obtain ⟨rest, hfits, htext, hboundary⟩ := boundary_of_mem_placesFrom hstart hp
  obtain ⟨before, segment⟩ := p
  refine ⟨before, segment.text, ?_, ?_⟩
  · rw [Place.through, List.append_assoc] at htext
    cases hfits with
    | @unexpected c _ strange =>
      have hrejected : (Mode.after before).Rejects c := (hboundary.alike c rfl).2.mpr ⟨.inl rfl, strange⟩
      rw [List.mem_singleton.mp hreport]
      exact .stray htext hrejected
    | @unterminated opening body opens inside =>
      have hopened : Walks before [opening] .inString [] := hboundary.walks_string opens (List.forall_mem_nil _)
      rw [List.mem_singleton.mp hreport]
      exact .unclosed (by simpa [Segment.text] using htext) opens hboundary.closed hopened.after inside
    | fixed | blank | comment | string | number => cases hf
  · cases hfits with
    | unexpected | unterminated =>
      rw [List.mem_singleton.mp hf]
      rfl
    | fixed | blank | comment | string | number => cases hf

/-! ## The whole log -/

/-- The records of a scan go through its diagnostics one by one: each has the line, the message and the code of its
diagnostic and shows the text that it is about, a single character or all from a quote on. The last record has the
number of tokens and the line of the end mark, and says whether there are other records. -/
theorem scanRecords_mirror (source : String) :
    ∃ errors finished, scanRecords source = errors ++ [finished] ∧
      List.Forall₂ (fun r d => ∃ before text, Blames source.toList d before text ∧ r.Tells d (String.ofList text))
        errors (scan source).diagnostics ∧
      ∃ tokens last, (scan source).tokens.toList = tokens ++ [last] ∧ last.isEnd ∧
        finished.level = .trace ∧ finished.message = "scan finished" ∧
        finished.fields = [("tokens", .nat (scan source).tokens.size), ("lines", .nat last.line),
          ("had_error", .flag (decide (errors ≠ [])))] := by
  refine ⟨_, _, scanRecords_eq source, ?_, _, _, tokens_eq_flatMap source, rfl, rfl, rfl, ?_⟩
  · rw [diagnostics_scan, List.forall₂_map_left_iff, List.forall₂_map_right_iff, List.forall₂_same]
    intro f hf
    obtain ⟨before, text, hblames, hlexeme⟩ := blames_of_mem_findings hf
    exact ⟨before, text, hblames, hlexeme ▸ f.record_tells⟩
  · have herred : (scan source).erred =
        decide ((findingsFrom 1 (segments source.toList)).map Finding.record ≠ []) := by
      rw [scan, erred_scanInto]
      cases findingsFrom 1 (segments source.toList) <;> rfl
    rw [← herred]
    rfl

/-- The string that is left open goes over two lines, and its record is on the second. -/
example : scanRecords "@'a' \"b\nc" =
    [.lexicalError "Unexpected character: @" 1 "@" 1001, .lexicalError "Unterminated string." 2 "\"b\nc" 1002,
      .scanFinished 2 2 true] := by
  decide +kernel

end ScriptScan
