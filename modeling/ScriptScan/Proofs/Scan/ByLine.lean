-- SUMMARY: Scanning an input whole gives what scanning it line by line gives, each line on its own number.
import ScriptScan.Proofs.Scan.Newline
import ScriptScan.Proofs.Text.Lines
import ScriptScan.Proofs.Text.Utf8

/-!
# Scans line by line

A script is scanned whole, and a prompt scans each line by itself. The two agree as long as no line leaves a
string open: line feeds cut the source, and a carriage return that a line loses was a blank or the end of a
comment.
-/

namespace ScriptScan

/-- The texts of the lines of an input, as far as they are well-formed. -/
def lineTexts (input : List UInt8) : List String := (lines input).filterMap Utf8.decode?

def Token.setLine (n : Nat) (t : Token) : Token := { t with line := n }

def Diagnostic.setLine (n : Nat) (d : Diagnostic) : Diagnostic := { d with line := some n }

def Finding.setLine (n : Nat) (f : Finding) : Finding := { f with line := n }

/-! ## A line and its ending -/

theorem closed_append_carriageReturn {text : List Char} (h : Closed text) : Closed (text ++ ['\r']) := by
  intro s hs
  rcases segments_append_carriageReturn h with heq | ⟨ss, body, hbefore, hafter⟩
  · rw [heq] at hs
    rcases List.mem_append.mp hs with hs | hs
    · exact h s hs
    · obtain rfl := List.mem_singleton.mp hs
      exact id
  · rw [hafter] at hs
    rcases List.mem_append.mp hs with hs | hs
    · exact h s (hbefore ▸ List.mem_append_left _ hs)
    · obtain rfl := List.mem_singleton.mp hs
      exact id

section give

variable {α : Type} {give : Nat → Segment → List α} {place : Nat → α → α}

theorem alongLines_append_carriageReturn (skips : SkipsBlanks give) (line : Nat) {text : List Char}
    (h : Closed text) :
    alongLines give line (segments (text ++ ['\r'])) = alongLines give line (segments text) := by
  rcases segments_append_carriageReturn h with heq | ⟨ss, body, hbefore, hafter⟩
  · rw [heq, alongLines_append, alongLines, skips.blank, alongLines, List.append_nil, List.append_nil]
  · rw [hbefore, hafter, alongLines_append, alongLines_append]
    simp [alongLines, skips.comment]

/-- What stands on one line is given for that line. -/
theorem alongLines_eq_place (placed : ∀ line s, give line s = (give 1 s).map (place line)) (line : Nat)
    {ss : List Segment} (h : (joined ss).count '\n' = 0) :
    alongLines give line ss = (alongLines give 1 ss).map (place line) := by
  induction ss with
  | nil => rfl
  | cons s ss ih =>
    rw [count_joined_cons] at h
    obtain ⟨hs, hss⟩ := Nat.add_eq_zero_iff.mp h
    rw [alongLines, alongLines, hs, Nat.add_zero, Nat.add_zero, ih hss, placed line s, List.map_append]

end give

/-- A well-formed line has the same text without its carriage return, but for that one. -/
theorem decode?_chomp {line : List UInt8} {stored : String} (h : Utf8.decode? line = some stored) :
    ∃ text, Utf8.decode? (chomp line) = some text ∧
      (stored = text ∨ stored.toList = text.toList ++ ['\r']) := by
  rcases chomp_eq_or line with hsame | hreturn
  · rw [hsame]
    exact ⟨stored, h, .inl rfl⟩
  · rw [hreturn] at h
    obtain ⟨text, v, htext, hv, hlist⟩ := Utf8.decode?_append (b := carriageReturn) (by decide) h
    obtain rfl : "" = v := Option.some.inj (Eq.trans (by decide +kernel) hv)
    exact ⟨text, htext, .inr hlist⟩

theorem count_lineFeed_eq_zero {line : List UInt8} {text : String} (hline : lineFeed ∉ line)
    (h : Utf8.decode? line = some text) : (joined (segments text.toList)).count '\n' = 0 := by
  rw [joined_segments]
  exact List.count_eq_zero.mpr fun hmem => hline (Utf8.lineFeed_mem h hmem)

/-! ## All lines -/

theorem map_decode?_lines {input : List UInt8} {source : String} (h : Utf8.decode? input = some source) :
    (lines input).map Utf8.decode? = (lineTexts input).map some := by
  induction input using lines_induction generalizing source with
  | nil => rfl
  | last line hline hne => simp [lineTexts, lines_of_not_mem hline hne, h]
  | step line rest hline ih =>
    obtain ⟨stored, tail, hstored, htail, -⟩ := Utf8.decode?_append (b := lineFeed) (by decide) h
    obtain ⟨text, htext, -⟩ := decode?_chomp hstored
    rw [lineTexts, lines_append hline, List.map_cons, List.filterMap_cons_some htext, List.map_cons, htext,
      ih htail]
    rfl

/-- The line feeds of a source are those between the texts of its lines, and each text gives what it gives by
itself, for its own line. -/
theorem alongLines_lineTexts {α : Type} {give : Nat → Segment → List α} {place : Nat → α → α}
    (skips : SkipsBlanks give) (placed : ∀ line s, give line s = (give 1 s).map (place line)) (n : Nat)
    {input : List UInt8} {source : String} (h : Utf8.decode? input = some source)
    (hclosed : ∀ t ∈ lineTexts input, Closed t.toList) :
    alongLines give n (segments source.toList) =
      ((lineTexts input).zipIdx n).flatMap fun (t, i) =>
        (alongLines give 1 (segments t.toList)).map (place i) := by
  induction input using lines_induction generalizing source n with
  | nil =>
    obtain rfl : "" = source := Option.some.inj (Eq.trans (by decide +kernel) h)
    simp [lineTexts, segments, alongLines]
  | last line hline hne =>
    simp [lineTexts, lines_of_not_mem hline hne, h,
      alongLines_eq_place placed n (count_lineFeed_eq_zero hline h)]
  | step line rest hline ih =>
    obtain ⟨stored, tail, hstored, htail, hsource⟩ := Utf8.decode?_append (b := lineFeed) (by decide) h
    obtain ⟨text, htext, hreturn⟩ := decode?_chomp hstored
    have htexts : lineTexts (line ++ lineFeed :: rest) = text :: lineTexts rest := by
      rw [lineTexts, lines_append hline, List.filterMap_cons_some htext, lineTexts]
    rw [htexts, List.forall_mem_cons] at hclosed
    -- the line with and without its carriage return gives the same
    have hfirst : Closed stored.toList ∧
        alongLines give 1 (segments stored.toList) = alongLines give 1 (segments text.toList) := by
      rcases hreturn with rfl | hreturn
      · exact ⟨hclosed.1, rfl⟩
      · rw [hreturn]
        exact ⟨closed_append_carriageReturn hclosed.1, alongLines_append_carriageReturn skips 1 hclosed.1⟩
    have hone := count_lineFeed_eq_zero hline hstored
    have hcount : stored.toList.count '\n' = 0 := by rwa [joined_segments] at hone
    have hsource : source.toList = stored.toList ++ '\n' :: tail.toList := hsource
    rw [hsource, alongLines_append_lineFeed skips n hfirst.1, alongLines_eq_place placed n hone, hfirst.2,
      hcount, Nat.zero_add, Nat.add_comm 1 n, ih (n + 1) htail hclosed.2, htexts, List.zipIdx_cons, List.flatMap_cons]

/-- A view that does not show lines shows the texts one after the other. -/
private theorem map_flatMap_zipIdx {β γ : Type} (f : String → List β) {place : Nat → β → β} {view : β → γ}
    (blind : ∀ i b, view (place i b) = view b) (n : Nat) (texts : List String) :
    ((texts.zipIdx n).flatMap fun (t, i) => (f t).map (place i)).map view =
      texts.flatMap fun t => (f t).map view := by
  induction texts generalizing n with
  | nil => rfl
  | cons t texts ih =>
    have hview (i : Nat) : view ∘ place i = view := funext (blind i)
    rw [List.zipIdx_cons, List.flatMap_cons, List.map_append, ih, List.map_map, hview, List.flatMap_cons]

section source

variable {input : List UInt8} {source : String} (hsource : Utf8.decode? input = some source)
  (hclosed : ∀ t ∈ lineTexts input, Closed t.toList)

include hsource hclosed

theorem sourceTokens_eq_flatMap :
    (scan source).sourceTokens =
      ((lineTexts input).zipIdx 1).flatMap fun (t, i) => (scan t).sourceTokens.map (Token.setLine i) := by
  have placed (line : Nat) (s : Segment) : s.tokens line = (s.tokens 1).map (Token.setLine line) := by
    cases s <;> rfl
  simp only [scan, sourceTokens_scanInto]
  exact alongLines_lineTexts skipsBlanks_tokens placed 1 hsource hclosed

theorem diagnostics_eq_flatMap :
    (scan source).diagnostics =
      ((lineTexts input).zipIdx 1).flatMap fun (t, i) => (scan t).diagnostics.map (Diagnostic.setLine i) := by
  have placed (line : Nat) (s : Segment) : s.findings line = (s.findings 1).map (Finding.setLine line) := by
    cases s <;> rfl
  have hfindings := alongLines_lineTexts skipsBlanks_findings placed 1 hsource hclosed
  simp only [diagnostics_scan, findingsFrom, hfindings, List.map_flatMap, List.map_map]
  rfl

end source

/-- Scanning a well-formed input whole and scanning its lines one by one give the same tokens and diagnostics,
those of a line moved to its number, so the same displays, messages and codes. -/
theorem scan_eq_scan_lines (input : List UInt8) (source : String) (hsource : Utf8.decode? input = some source)
    (hends : ∀ t ∈ lineTexts input, EndsStrings t) :
    (lines input).map Utf8.decode? = (lineTexts input).map some ∧
      (scan source).sourceTokens =
        ((lineTexts input).zipIdx 1).flatMap (fun (t, i) => (scan t).sourceTokens.map (Token.setLine i)) ∧
      (scan source).diagnostics =
        ((lineTexts input).zipIdx 1).flatMap (fun (t, i) => (scan t).diagnostics.map (Diagnostic.setLine i)) ∧
      (scan source).sourceTokens.map Token.display =
        (lineTexts input).flatMap (fun t => (scan t).sourceTokens.map Token.display) ∧
      (scan source).diagnostics.map (fun d => (d.message, d.code)) =
        (lineTexts input).flatMap (fun t => (scan t).diagnostics.map fun d => (d.message, d.code)) := by
  have hclosed : ∀ t ∈ lineTexts input, Closed t.toList := fun t ht => endsStrings_iff.mp (hends t ht)
  have htokens := sourceTokens_eq_flatMap hsource hclosed
  have hdiagnostics := diagnostics_eq_flatMap hsource hclosed
  refine ⟨map_decode?_lines hsource, htokens, hdiagnostics, ?_, ?_⟩
  · rw [htokens]
    refine map_flatMap_zipIdx (fun t => (scan t).sourceTokens) ?_ 1 _
    intro i t
    rfl
  · rw [hdiagnostics]
    refine map_flatMap_zipIdx (fun t => (scan t).diagnostics) ?_ 1 _
    intro i d
    rfl

/-- The carriage return after the comment goes, the one at the very end stays. -/
theorem scan_eq_scan_lines_crlf :
    let input := "1 \\\\ '\r\n@\n\n'x'\r".toUTF8.data.toList
    Utf8.decode? input = some "1 \\\\ '\r\n@\n\n'x'\r" ∧ (∀ t ∈ lineTexts input, EndsStrings t) ∧
      (scan "1 \\\\ '\r\n@\n\n'x'\r").diagnostics =
        ((lineTexts input).zipIdx 1).flatMap fun (t, i) =>
          (scan t).diagnostics.map (Diagnostic.setLine i) := by
  intro input
  have hsource : Utf8.decode? input = some "1 \\\\ '\r\n@\n\n'x'\r" := by decide +kernel
  have hends : ∀ t ∈ lineTexts input, EndsStrings t := by
    unfold EndsStrings
    decide +kernel
  exact ⟨hsource, hends, (scan_eq_scan_lines input _ hsource hends).2.2.1⟩

end ScriptScan
