-- SUMMARY: The diagnostics of a scan are those of an automaton that reads one character after the other.
import ScriptScan.Proofs.Scan.Run
import ScriptScan.Proofs.Report.Filling

/-!
# Errors by automaton

An automaton with four modes finds the errors of a source without knowing its tokens. It steps by characters
and a scan by segments. Between two segments the automaton is in a mode in which it treats the next character
as if it had just started; that it is so again after each segment is what the proof carries along.
-/

namespace ScriptScan

instance (c : Char) : Decidable (IsQuote c) := inferInstanceAs (Decidable (_ ∨ _))

instance (c : Char) : Decidable (Significant c) := inferInstanceAs (Decidable (_ ∨ _))

/-! ## The automaton -/

inductive Mode where
  | normal
  /-- A backslash stands before, and it may begin a comment. -/
  | afterBackslash
  | comment
  | inString
  deriving DecidableEq

namespace Mode

/-- What a character leads to where nothing has begun. -/
def opening (c : Char) : Mode :=
  if c = '\\' then .afterBackslash else if IsQuote c then .inString else .normal

/-- What a character leads to. -/
def next (m : Mode) (c : Char) : Mode :=
  match m with
  | .normal => opening c
  | .afterBackslash => if c = '\\' then .comment else opening c
  | .comment => if c = '\n' then .normal else .comment
  | .inString => if IsQuote c then .normal else .inString

/-- The mode after some text. -/
def after (text : List Char) : Mode := text.foldl next .normal

/-- The character is an error where it stands. -/
def Rejects (m : Mode) (c : Char) : Prop := (m = .normal ∨ m = .afterBackslash) ∧ ¬Significant c

instance (m : Mode) (c : Char) : Decidable (m.Rejects c) := inferInstanceAs (Decidable (_ ∧ _))

end Mode

def strayReport (line : Nat) (c : Char) : Diagnostic :=
  ⟨some line, "", "Unexpected character: " ++ String.singleton c, 1001, .error⟩

def openReport (line : Nat) : Diagnostic := ⟨some line, "", "Unterminated string.", 1002, .error⟩

/-- A report for each character of a text that is an error, `before` standing before the text. -/
def strayReports (before : List Char) : List Char → List Diagnostic
  | [] => []
  | c :: cs =>
    (if (Mode.after before).Rejects c then [strayReport (1 + before.count '\n') c] else []) ++
      strayReports (before ++ [c]) cs

/-- The report for a text that ends in a string. -/
def openReports (text : List Char) : List Diagnostic :=
  if Mode.after text = .inString then [openReport (1 + text.count '\n')] else []

/-! ## Walks -/

/-- After `before`, the automaton goes through `text` to a mode and makes some reports on the way. -/
structure Walks (before text : List Char) (m : Mode) (reports : List Diagnostic) : Prop where
  after : Mode.after (before ++ text) = m
  reports : strayReports before text = reports

section walks

variable {before text rest : List Char} {c : Char} {m : Mode}

theorem walks_char (h : Mode.after before = m) :
    Walks before [c] (m.next c) (if m.Rejects c then [strayReport (1 + before.count '\n') c] else []) where
  after := by rw [Mode.after, List.foldl_append, ← Mode.after, h]; rfl
  reports := by rw [strayReports, strayReports, List.append_nil, h]

theorem strayReports_append (before xs ys : List Char) :
    strayReports before (xs ++ ys) = strayReports before xs ++ strayReports (before ++ xs) ys := by
  induction xs generalizing before with
  | nil => simp [strayReports]
  | cons x xs ih => simp only [List.cons_append, strayReports, ih, List.append_assoc, List.nil_append]

theorem Walks.append {ys : List Char} {m' : Mode} {reports others : List Diagnostic}
    (first : Walks before text m reports) (second : Walks (before ++ text) ys m' others) :
    Walks before (text ++ ys) m' (reports ++ others) where
  after := by rw [← List.append_assoc, second.after]
  reports := by rw [strayReports_append, first.reports, second.reports]

/-- Characters that leave a mode as it is, and are no errors in it. -/
theorem walks_steady (h : Mode.after before = m) (steady : ∀ c ∈ text, m.next c = m ∧ ¬m.Rejects c) :
    Walks before text m [] := by
  induction text generalizing before with
  | nil => exact ⟨by rw [List.append_nil, h], rfl⟩
  | cons c text ih =>
    obtain ⟨⟨hnext, hfine⟩, hrest⟩ := List.forall_mem_cons.mp steady
    have hfirst := walks_char (c := c) h
    rw [hnext, if_neg hfine] at hfirst
    exact hfirst.append (ih hfirst.after hrest)

/-! ## Between two segments -/

/-- Nothing has begun that reaches into `rest`, so its first character is treated as at the start. -/
structure Mode.Boundary (m : Mode) (rest : List Char) : Prop where
  closed : m ≠ .inString
  alike : ∀ c, rest.head? = some c → m.next c = Mode.normal.next c ∧ (m.Rejects c ↔ Mode.normal.Rejects c)

theorem boundary_normal : Mode.normal.Boundary rest := ⟨nofun, fun _ _ => ⟨rfl, Iff.rfl⟩⟩

theorem boundary_afterBackslash (single : rest.head? ≠ some '\\') : Mode.afterBackslash.Boundary rest where
  closed := nofun
  alike c hc := by
    have hne : c ≠ '\\' := by
      rintro rfl
      exact single hc
    simp [Mode.next, hne, Mode.Rejects]

theorem boundary_comment (lineEnd : rest = [] ∨ rest.head? = some '\n') : Mode.comment.Boundary rest where
  closed := nofun
  alike c hc := by
    rcases lineEnd with rfl | hrest
    · cases hc
    · obtain rfl : '\n' = c := Option.some.inj (hrest.symm.trans hc)
      decide

theorem Mode.Boundary.walks_first (h : (Mode.after before).Boundary (c :: rest)) :
    Walks before [c] (Mode.normal.next c)
      (if Mode.normal.Rejects c then [strayReport (1 + before.count '\n') c] else []) := by
  obtain ⟨hnext, hrejects⟩ := h.alike c rfl
  have hfirst := walks_char (c := c) (rfl : Mode.after before = Mode.after before)
  simp only [hrejects] at hfirst
  rwa [hnext] at hfirst

/-- A run of characters that begin nothing. -/
theorem Mode.Boundary.walks_normal (h : (Mode.after before).Boundary (text ++ rest)) (hne : text ≠ [])
    (steady : ∀ c ∈ text, Mode.normal.next c = .normal ∧ ¬Mode.normal.Rejects c) :
    Walks before text .normal [] := by
  obtain ⟨c, text, rfl⟩ := List.exists_cons_of_ne_nil hne
  obtain ⟨⟨hnext, hfine⟩, hrest⟩ := List.forall_mem_cons.mp steady
  have hfirst := h.walks_first
  rw [hnext, if_neg hfine] at hfirst
  exact hfirst.append (walks_steady hfirst.after hrest)

theorem Mode.Boundary.walks_backslash (h : (Mode.after before).Boundary ('\\' :: rest)) :
    Walks before ['\\'] .afterBackslash [] := h.walks_first

theorem Mode.Boundary.walks_string (h : (Mode.after before).Boundary (c :: rest)) (opens : IsQuote c)
    (inside : ∀ c ∈ text, ¬IsQuote c) : Walks before (c :: text) .inString [] := by
  have hfirst := h.walks_first
  have hnext : Mode.normal.next c = .inString ∧ ¬Mode.normal.Rejects c := by
    rcases opens with rfl | rfl <;> decide
  rw [hnext.1, if_neg hnext.2] at hfirst
  refine hfirst.append (walks_steady hfirst.after ?_)
  intro d hd
  simp [Mode.next, inside d hd, Mode.Rejects]

end walks

/-! ## Reports of segments -/

theorem diagnostic_unexpectedCharacter (line : Nat) (c : Char) :
    (LexicalError.unexpectedCharacter c).diagnostic line = strayReport line c := by
  have htext : Template.unexpectedCharacter.text = "Unexpected character: " ++ String.ofList (hole 0) := by
    decide
  have hblank : '{' ∉ "Unexpected character: ".toList := by decide
  simp only [LexicalError.diagnostic, LexicalError.template, LexicalError.arguments, Diagnostic.onLine,
    Diagnostic.ofTemplate, htext, fill_append_hole hblank]
  rfl

theorem diagnostic_unterminatedString (line : Nat) :
    LexicalError.unterminatedString.diagnostic line = openReport line := rfl

/-- Only the backslash begins something among the fixed tokens. -/
theorem steady_symbol {kind : Kind} (h : kind ≠ .slash) :
    ∀ c ∈ kind.symbol, Mode.normal.next c = .normal ∧ ¬Mode.normal.Rejects c := by
  have hall : kind.symbol.all fun c => decide (Mode.normal.next c = .normal ∧ ¬Mode.normal.Rejects c) := by
    cases kind
    case slash => exact absurd rfl h
    all_goals decide
  exact fun c hc => of_decide_eq_true (List.all_eq_true.mp hall c hc)

theorem steady_digit {c : Char} (h : c.isDigit) : Mode.normal.next c = .normal ∧ ¬Mode.normal.Rejects c := by
  have hclass := CharClass.ofChar_of_isDigit h
  have hbackslash : c ≠ '\\' := by
    rintro rfl
    cases hclass
  have hquote : ¬IsQuote c := by
    intro hquote
    rw [CharClass.ofChar_of_isQuote hquote] at hclass
    cases hclass
  simp [Mode.next, Mode.opening, hbackslash, hquote, Mode.Rejects, Significant, h]

theorem steady_number {whole fraction : List Char} (digits : ∀ c ∈ whole, c.isDigit)
    (places : ∀ c ∈ fraction, c.isDigit) :
    ∀ c ∈ (Segment.number whole fraction).text, Mode.normal.next c = .normal ∧ ¬Mode.normal.Rejects c := by
  intro c hc
  cases fraction with
  | nil => exact steady_digit (digits c hc)
  | cons d fraction =>
    rcases List.mem_append.mp hc with hc | hc
    · exact steady_digit (digits c hc)
    rcases List.mem_cons.mp hc with rfl | hc
    · decide
    · exact steady_digit (places c hc)

/-- The reports of a segment, and where it leaves the automaton: between two segments again, or in a string
at the end. -/
theorem walks_segment {s : Segment} {before rest : List Char} (fits : s.Fits rest)
    (h : (Mode.after before).Boundary (s.text ++ rest)) :
    ∃ m reports, Walks before s.text m reports ∧
      (m.Boundary rest ∧
          (s.findings (1 + (before ++ s.text).count '\n')).map Finding.diagnostic = reports ∨
        m = .inString ∧ rest = [] ∧ reports = [] ∧
          (s.findings (1 + (before ++ s.text).count '\n')).map Finding.diagnostic =
            [openReport (1 + (before ++ s.text).count '\n')]) := by
  cases fits with
  | @fixed kind _ symbol single =>
    by_cases hkind : kind = .slash
    · subst hkind
      exact ⟨_, _, h.walks_backslash, .inl ⟨boundary_afterBackslash (single rfl), rfl⟩⟩
    · exact ⟨_, _, h.walks_normal symbol (steady_symbol hkind), .inl ⟨boundary_normal, rfl⟩⟩
  | @blank c _ mem =>
    have hsteady : ∀ d ∈ (Segment.blank c).text, Mode.normal.next d = .normal ∧ ¬Mode.normal.Rejects d := by
      refine List.forall_mem_singleton.mpr ?_
      simp only [List.mem_cons, List.not_mem_nil, or_false] at mem
      rcases mem with rfl | rfl | rfl | rfl <;> decide
    exact ⟨_, _, h.walks_normal (List.cons_ne_nil _ _) hsteady, .inl ⟨boundary_normal, rfl⟩⟩
  | @comment body _ oneLine lineEnd =>
    have hfirst := h.walks_backslash
    have hsecond := walks_char (c := '\\') hfirst.after
    have hbody : ∀ c ∈ body, Mode.comment.next c = .comment ∧ ¬Mode.comment.Rejects c := by
      intro c hc
      have hne : c ≠ '\n' := ne_of_mem_of_not_mem hc oneLine
      simp [Mode.next, hne, Mode.Rejects]
    have hwalks := (hfirst.append hsecond).append (walks_steady (hfirst.append hsecond).after hbody)
    exact ⟨_, _, hwalks, .inl ⟨boundary_comment lineEnd, rfl⟩⟩
  | @string opening closing body _ opens inside closes =>
    have hbody : Walks before (opening :: body) .inString [] := h.walks_string opens inside
    have hclosing := walks_char (c := closing) hbody.after
    have hnext : Mode.inString.next closing = .normal := by simp [Mode.next, closes]
    rw [hnext] at hclosing
    exact ⟨_, _, hbody.append hclosing, .inl ⟨boundary_normal, rfl⟩⟩
  | @number whole fraction _ nonempty digits places =>
    have hne : (Segment.number whole fraction).text ≠ [] := by
      cases fraction <;> simp [Segment.text, nonempty]
    exact ⟨_, _, h.walks_normal hne (steady_number digits places), .inl ⟨boundary_normal, rfl⟩⟩
  | @unexpected c _ strange =>
    have hfirst : Walks before [c] _ _ := h.walks_first
    have hrejects : Mode.normal.Rejects c := ⟨.inl rfl, strange⟩
    have hnext : Mode.normal.next c = .normal := by
      simp only [Significant, List.mem_cons, not_or] at strange
      simp [Mode.next, Mode.opening, IsQuote, strange]
    have hcount : (before ++ [c]).count '\n' = before.count '\n' := by
      have hne : c ≠ '\n' := by
        rintro rfl
        exact strange (by decide)
      simp [List.count_append, hne]
    rw [hnext, if_pos hrejects] at hfirst
    refine ⟨_, _, hfirst, .inl ⟨boundary_normal, ?_⟩⟩
    simp only [Segment.text, hcount]
    exact congrArg (fun d => [d]) (diagnostic_unexpectedCharacter _ c)
  | @unterminated opening body opens inside =>
    refine ⟨.inString, [], h.walks_string opens inside, .inr ⟨rfl, rfl, rfl, ?_⟩⟩
    exact congrArg (fun d => [d]) (diagnostic_unterminatedString _)

/-! ## Reports of a source -/

theorem diagnostics_findingsFrom (before text : List Char) (h : (Mode.after before).Boundary text) :
    (findingsFrom (1 + before.count '\n') (segments text)).map Finding.diagnostic =
      strayReports before text ++ openReports (before ++ text) := by
  induction text using segments.induct generalizing before with
  | case1 => simp [segments, findingsFrom, alongLines, strayReports, openReports, h.closed]
  | case2 c cs ih =>
    obtain ⟨fits, htext⟩ := Segment.starts_read c cs
    rw [← htext] at h
    obtain ⟨m, reports, hwalks, hcases⟩ := walks_segment fits h
    have hline : 1 + before.count '\n' + (Segment.read c cs).1.lineFeeds =
        1 + (before ++ (Segment.read c cs).1.text).count '\n' := by
      rw [List.count_append, Segment.lineFeeds, Nat.add_assoc]
    have hreports : strayReports before (c :: cs) =
        reports ++ strayReports (before ++ (Segment.read c cs).1.text) (Segment.read c cs).2 := by
      rw [← htext, strayReports_append, hwalks.reports]
    rw [segments, findingsFrom, alongLines, hline, List.map_append, ← findingsFrom, hreports]
    rcases hcases with ⟨hboundary, hgive⟩ | ⟨rfl, hrest, rfl, hgive⟩
    · rw [← hwalks.after] at hboundary
      rw [hgive, ih _ hboundary, List.append_assoc, List.append_assoc, htext]
    · -- the string runs to the end
      have hopen : openReports (before ++ c :: cs) =
          [openReport (1 + (before ++ (Segment.read c cs).1.text).count '\n')] := by
        rw [hrest, List.append_nil] at htext
        rw [openReports, ← htext, if_pos hwalks.after]
      rw [hgive, hrest, hopen]
      simp [segments, findingsFrom, alongLines, strayReports]

theorem diagnostics_eq_reports (source : String) :
    (scan source).diagnostics = strayReports [] source.toList ++ openReports source.toList := by
  rw [diagnostics_scan]
  exact diagnostics_findingsFrom [] source.toList boundary_normal

/-- A scan reports what the automaton reports: each character that is an error where it stands, and at last a
string without an end. There has been an error if there is a report. -/
theorem diagnostics_eq_automaton (source : String) :
    (scan source).diagnostics = strayReports [] source.toList ++ openReports source.toList ∧
      ((scan source).erred = true ↔ (scan source).diagnostics ≠ []) :=
  ⟨diagnostics_eq_reports source, erred_scan_iff source⟩

end ScriptScan
