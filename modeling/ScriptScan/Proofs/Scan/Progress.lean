-- SUMMARY: Each turn of a scan goes forward within its text and adds at most one thing, so that every scan ends.
import ScriptScan.Proofs.Scan.Cursor

/-!
# The progress of a scan

The cursors at the head of the loop of a scan stay within the text. A turn from there has a result, goes forward and
adds nothing, or one token, or one report. From that follow the end of the scan, its agreement with the scan by
segments, and a bound on all that it adds.
-/

namespace ScriptScan

/-- Only strings give tokens of their kind. -/
theorem Segment.Fits.eq_string {s : Segment} {rest : List Char} {literal : Literal} (h : s.Fits rest)
    (hyield : s.yield = .token .string literal) :
    ∃ opening body closing, s = .string opening body closing ∧ literal = .text (String.ofList body) := by
  cases h with
  | fixed symbol =>
    injection hyield with hkind
    exact absurd (by rw [hkind]; rfl) symbol
  | string =>
    cases hyield
    exact ⟨_, _, _, rfl, rfl⟩
  | number nonempty digits places =>
    rw [Segment.yield, read?_number nonempty digits places] at hyield
    cases hyield
  | blank | comment | unexpected | unterminated => cases hyield

namespace Cursor

variable {ρ : Type}

/-! ## What a turn does -/

/-- A cursor within its source. The line has a bound as well, so that no counter runs away. -/
structure Within (source : String) (s : Cursor ρ) : Prop where
  text : s.text = source.toList
  start_le : s.start ≤ s.current
  current_le : s.current ≤ s.text.length
  line_pos : 1 ≤ s.line
  line_le : s.line ≤ s.current + 1

variable [Reporter ρ]

/-- What is added between two cursors: nothing, one token behind the others, or one report. All texts for that are
cut out between positions in order and within the text. -/
inductive Adds (s t : Cursor ρ) : Prop
  | nothing (tokens : t.tokens = s.tokens) (erred : t.erred = s.erred) (reporter : t.reporter = s.reporter)
  | token (token : Token) (tokens : t.tokens = s.tokens.push token) (erred : t.erred = s.erred)
      (reporter : t.reporter = s.reporter) (lexeme : t.cut t.start t.current = .some token.lexeme)
      (body : token.kind = .string → ∃ body, t.start + 1 ≤ t.current - 1 ∧
        t.cut (t.start + 1) (t.current - 1) = .some body ∧ token.literal = .text body)
  | report (finding : Finding) (tokens : t.tokens = s.tokens) (erred : t.erred = true)
      (reporter : t.reporter = finding.tell s.reporter)
      (lexeme : t.cut t.start t.current = .some finding.lexeme)

/-- What a turn does to a cursor. -/
structure Progresses (s t : Cursor ρ) : Prop where
  text : t.text = s.text
  start : t.start = s.current
  forward : s.current < t.current
  current_le : t.current ≤ t.text.length
  line_mono : s.line ≤ t.line
  line_le : t.line + s.current ≤ s.line + t.current
  adds : s.Adds t

variable {source : String} {r : ρ} {s t : Cursor ρ} {c : Char} {cs : List Char}

/-- The body of a string is cut out between its quotes. -/
theorem cut_taken_string {opening closing : Char} {body rest : List Char}
    (h : s.ahead = (Segment.string opening body closing).text ++ rest) :
    let t := s.taken (.string opening body closing)
    t.start + 1 ≤ t.current - 1 ∧ t.cut (t.start + 1) (t.current - 1) = .some (String.ofList body) := by
  have hlast : (s.taken (.string opening body closing)).current - 1 = s.current + 1 + body.length := by
    simp only [taken, past, begun, Segment.text, List.length_cons, List.length_append, List.length_nil]
    omega
  intro t
  rw [hlast]
  exact ⟨Nat.le_add_right _ _, cut_body h⟩

theorem adds_taken (h : s.ahead = c :: cs) : s.Adds (s.taken (Segment.read c cs).1) := by
  obtain ⟨hfits, htext⟩ := Segment.starts_read c cs
  have hlexeme := cut_lexeme h htext
  generalize (Segment.read c cs).1 = segment at *
  generalize (Segment.read c cs).2 = rest at *
  cases hyield : segment.yield with
  | nothing =>
    rw [taken_of_nothing hyield]
    exact .nothing rfl rfl rfl
  | token kind literal =>
    have hstring : kind = .string → ∃ body, (s.taken segment).start + 1 ≤ (s.taken segment).current - 1 ∧
        (s.taken segment).cut ((s.taken segment).start + 1) ((s.taken segment).current - 1) = .some body ∧
        literal = .text body := by
      rintro rfl
      obtain ⟨opening, body, closing, rfl, rfl⟩ := hfits.eq_string hyield
      obtain ⟨hle, hbody⟩ := cut_taken_string (h.trans htext.symm)
      exact ⟨_, hle, hbody, rfl⟩
    rw [taken_of_token hyield] at hstring ⊢
    exact .token _ rfl rfl rfl hlexeme hstring
  | error e =>
    rw [taken_of_error hyield]
    exact .report ⟨e, _, segment.lexeme⟩ rfl rfl rfl hlexeme

theorem progresses_taken (h : s.ahead = c :: cs) : s.Progresses (s.taken (Segment.read c cs).1) := by
  have hadds := adds_taken h
  obtain ⟨hfits, htext⟩ := Segment.starts_read c cs
  generalize (Segment.read c cs).1 = segment at *
  have hcurrent : (s.taken segment).current = s.current + segment.text.length := rfl
  have hline : (s.taken segment).line = s.line + segment.text.count '\n' := rfl
  have hpos : 0 < segment.text.length := List.length_pos_iff.mpr hfits.text_ne_nil
  have hfeeds : segment.text.count '\n' ≤ segment.text.length := List.count_le_length
  have hbound : s.current + segment.text.length ≤ s.text.length := by
    have hlength := congrArg List.length (h.trans htext.symm)
    simp only [ahead, List.length_drop, List.length_append] at hlength
    omega
  exact ⟨rfl, rfl, by omega, hbound, by omega, by omega, hadds⟩

theorem exists_turn (h : s.isAtEnd = false) : ∃ t, s.turn = .some t ∧ s.Progresses t ∧ t.view = s.view.step := by
  rw [isAtEnd_eq, List.isEmpty_eq_false_iff] at h
  obtain ⟨c, cs, hahead⟩ := List.exists_cons_of_ne_nil h
  exact ⟨_, turn_eq_taken hahead, progresses_taken hahead, view_taken hahead⟩

/-! ## What a scan reaches -/

/-- The cursors at the head of the loop of a scan. -/
inductive Reached (source : String) (r : ρ) : Cursor ρ → Prop
  | initial : Reached source r (initial source r)
  | turn {s t : Cursor ρ} : Reached source r s → s.isAtEnd = false → s.turn = .some t → Reached source r t

theorem Within.progresses (h : s.Within source) (hturn : s.Progresses t) : t.Within source where
  text := hturn.text.trans h.text
  start_le := by
    rw [hturn.start]
    exact hturn.forward.le
  current_le := hturn.current_le
  line_pos := h.line_pos.trans hturn.line_mono
  line_le := by
    have hbefore := h.line_le
    have hadded := hturn.line_le
    omega

/-- Any two turns from one cursor are the same, so each of them makes progress. -/
theorem progresses_of_turn (h : s.isAtEnd = false) (hturn : s.turn = .some t) :
    s.Progresses t ∧ t.view = s.view.step := by
  obtain ⟨u, hu, hprogress⟩ := exists_turn h
  obtain rfl : u = t := Part.some_injective (hu.symm.trans hturn)
  exact hprogress

theorem Reached.within (h : Reached source r s) : s.Within source := by
  induction h with
  | initial => exact ⟨rfl, Nat.le_refl 0, Nat.zero_le _, Nat.le_refl 1, Nat.le_refl 1⟩
  | turn _ hend hturn ih => exact ih.progresses (progresses_of_turn hend hturn).1

/-- The scan by segments that goes on from a cursor is that of the whole source. -/
theorem Reached.run_view (h : Reached source r s) : s.view.run = (Scan.start source r).run := by
  induction h with
  | initial => rfl
  | turn _ hend hturn ih => rw [(progresses_of_turn hend hturn).2, Scan.run_step, ih]

theorem Adds.size_le {s t : Cursor Collection} (h : s.Adds t) :
    t.tokens.size + t.reporter.size ≤ s.tokens.size + s.reporter.size + 1 := by
  cases h with
  | nothing tokens _ reporter =>
    rw [tokens, reporter]
    exact Nat.le_succ _
  | token token tokens _ reporter =>
    rw [tokens, reporter, Array.size_push]
    omega
  | report finding tokens _ reporter =>
    have hsize : (finding.tell s.reporter).size = s.reporter.size + 1 := Array.size_push _
    rw [tokens, reporter, hsize]
    exact Nat.le_refl _

theorem Reached.size_le {r : Collection} {s : Cursor Collection} (h : Reached source r s) :
    s.tokens.size + s.reporter.size ≤ r.size + s.current := by
  induction h with
  | initial => exact (Nat.zero_add r.size).le
  | turn _ hend hturn ih =>
    have hprogress := (progresses_of_turn hend hturn).1
    have hadded := hprogress.adds.size_le
    have hforward := hprogress.forward
    omega

/-- The loop of a scan ends, and does so at the end of the text. -/
theorem exists_last (source : String) (r : ρ) :
    ∃ last, Reached source r last ∧ last.current = source.length ∧ run source r = .some last.finish := by
  have hturn (s : Cursor ρ) (hs : Reached source r s) (hgoing : (!s.isAtEnd) = true) :
      ∃ t, s.turn = .some t ∧ Reached source r t ∧ t.text.length - t.current < s.text.length - s.current := by
    have hend : s.isAtEnd = false := by simpa using hgoing
    obtain ⟨t, hturn, hprogress, -⟩ := exists_turn hend
    refine ⟨t, hturn, hs.turn hend hturn, ?_⟩
    have hforward := hprogress.forward
    have hbound := hprogress.current_le
    rw [hprogress.text] at hbound ⊢
    omega
  obtain ⟨last, hloop, hreached, hend⟩ := exists_whileDo hturn _ .initial
  refine ⟨last, hreached, ?_, ?_⟩
  · have hle := hreached.within.current_le
    have hge : last.text.length ≤ last.current := by simpa [isAtEnd] using hend
    rw [← String.length_toList, ← hreached.within.text]
    exact Nat.le_antisymm hle hge
  · rw [run, hloop, Part.bind_eq_bind, Part.bind_some]
    rfl

theorem view_finish {last : Cursor ρ} (h : Reached source r last) (hend : last.current = source.length) :
    last.finish.view = scanInto source r := by
  have hnil : last.view.rest = [] := by
    refine List.drop_eq_nil_of_le ?_
    rw [h.within.text, hend, String.length_toList]
  rw [scanInto, ← h.run_view, Scan.run_of_nil hnil]
  rfl

/-- A scan never adds more than there are characters in its source. -/
theorem size_le_length (source : String) (r : ρ) :
    (scanInto source r).sourceTokens.length + (scan source).diagnostics.length ≤ source.length := by
  obtain ⟨last, hreached, hend, -⟩ := exists_last source Collection.empty
  have hview : last.finish.view = scan source := view_finish hreached hend
  have htokens : (scanInto source r).sourceTokens.length = last.tokens.size := by
    have hpushed : (scan source).tokens.size = last.tokens.size + 1 := by
      rw [← hview]
      exact Array.size_push _
    have hlist := congrArg List.length (tokens_scanInto source Collection.empty)
    rw [List.length_append, List.length_singleton, Array.length_toList] at hlist
    rw [sourceTokens_scanInto]
    exact Nat.succ.inj (hlist.symm.trans hpushed)
  have hreports : (scan source).diagnostics.length = last.reporter.size := by
    rw [← hview]
    exact Array.length_toList
  rw [htokens, hreports, ← hend]
  exact hreached.size_le.trans (Nat.zero_add _).le

/-- Wherever the loop of a scan has got to, the cursor is within the source, and a turn from there has a result and
makes progress. Each loop within a turn ends from any cursor, and the loop over all turns ends with the tokens, the
error mark and the reporter of the scan by segments. There are no more tokens and diagnostics than characters. -/
theorem scan_progress (source : String) (r : ρ) :
    (∀ s, Reached source r s → s.Within source ∧
      (s.current < s.text.length → ∃ t, s.turn = .some t ∧ s.Progresses t ∧ t.view = s.view.step)) ∧
    (∀ s : Cursor ρ, s.skipComment.Dom ∧ s.skipBody.Dom ∧ s.skipDigits.Dom) ∧
    (∃ last, Reached source r last ∧ last.current = source.length ∧ run source r = .some last.finish ∧
      last.finish.view = scanInto source r) ∧
    (scanInto source r).sourceTokens.length + (scan source).diagnostics.length ≤ source.length := by
  refine ⟨fun s hs => ⟨hs.within, fun hlt => ?_⟩, fun s => ?_, ?_, size_le_length source r⟩
  · exact exists_turn (by simpa [isAtEnd] using hlt)
  · simp [skipComment_eq, skipBody_eq, skipDigits_eq]
  · obtain ⟨last, hreached, hend, hscan⟩ := exists_last source r
    exact ⟨last, hreached, hend, hscan, view_finish hreached hend⟩

/-- A string that nothing closes is before the cursor, and goes over two lines. -/
theorem scan_progress_open_string :
    ∃ s t : Cursor Collection, Reached "(\"a\nb" .empty s ∧ s.current = 1 ∧ s.turn = .some t ∧ s.Progresses t := by
  have hahead : (initial "(\"a\nb" Collection.empty).ahead = ['(', '"', 'a', '\n', 'b'] := by decide
  have hturn := turn_eq_taken hahead
  have hreached := Reached.turn .initial (by decide) hturn
  obtain ⟨t, hnext, hprogress, -⟩ := ((scan_progress "(\"a\nb" Collection.empty).1 _ hreached).2 (by decide)
  exact ⟨_, t, hreached, rfl, hnext, hprogress⟩

end Cursor

end ScriptScan
