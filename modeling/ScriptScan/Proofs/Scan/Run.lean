-- SUMMARY: What a whole scan yields, as a function of the segments of its source.
import ScriptScan.Scan
import ScriptScan.Proofs.Source.Grammar

/-!
# Whole scans

A scan that has taken some segments is told by those segments and the line it began on: each gives at most one
token or one finding, for the line on which it ends. `Scan.step` takes one segment more, and so `Scan.run`
takes all of them.
-/

namespace ScriptScan

/-! ## What segments give -/

/-- An error of a scan, the line it is found on and the text it is about. -/
structure Finding where
  error : LexicalError
  line : Nat
  lexeme : String

namespace Finding

def diagnostic (f : Finding) : Diagnostic := f.error.diagnostic f.line

def record (f : Finding) : Log.Record :=
  .lexicalError f.diagnostic.message f.line f.lexeme f.diagnostic.code

/-- Logs a finding and hands it to a reporter. -/
def tell {ρ : Type} [Reporter ρ] (r : ρ) (f : Finding) : ρ :=
  Reporter.receive (Reporter.log r f.record) f.diagnostic

end Finding

namespace Segment

/-- The token of a segment that ends on a line: one for a fixed token, a string or a number. -/
def tokens (line : Nat) (s : Segment) : List Token :=
  match s with
  | .fixed kind => [⟨kind, s.lexeme, .none, line⟩]
  | .string _ body _ => [⟨.string, s.lexeme, .text (String.ofList body), line⟩]
  | .number whole fraction => [⟨.number, s.lexeme, .number (Decimal.ofDigits whole fraction).nearest, line⟩]
  | .blank _ | .comment _ | .unexpected _ | .unterminated _ _ => []

/-- The finding of a segment that ends on a line. -/
def findings (line : Nat) (s : Segment) : List Finding :=
  match s with
  | .unexpected c => [⟨.unexpectedCharacter c, line, s.lexeme⟩]
  | .unterminated _ _ => [⟨.unterminatedString, line, s.lexeme⟩]
  | .fixed _ | .blank _ | .comment _ | .string .. | .number .. => []

end Segment

/-- The source that segments have been taken from. -/
def joined (ss : List Segment) : List Char := ss.flatMap Segment.text

/-- What segments give one after the other, from a line on; each gives it for the line on which it ends. -/
def alongLines {α : Type} (give : Nat → Segment → List α) (line : Nat) : List Segment → List α
  | [] => []
  | s :: ss => give (line + s.lineFeeds) s ++ alongLines give (line + s.lineFeeds) ss

/-- The tokens of segments, without an end mark. -/
def tokensFrom (line : Nat) (ss : List Segment) : List Token := alongLines Segment.tokens line ss

def findingsFrom (line : Nat) (ss : List Segment) : List Finding := alongLines Segment.findings line ss

section alongLines

variable {α : Type} {give : Nat → Segment → List α}

theorem count_joined_cons (s : Segment) (ss : List Segment) :
    (joined (s :: ss)).count '\n' = s.lineFeeds + (joined ss).count '\n' := by
  simp [joined, Segment.lineFeeds]

theorem alongLines_append (line : Nat) (xs ys : List Segment) :
    alongLines give line (xs ++ ys) =
      alongLines give line xs ++ alongLines give (line + (joined xs).count '\n') ys := by
  induction xs generalizing line with
  | nil => simp [alongLines, joined]
  | cons x xs ih =>
    rw [List.cons_append, alongLines, ih, alongLines, count_joined_cons, List.append_assoc, Nat.add_assoc]

/-- What is given does not depend on the line but for its number. -/
theorem alongLines_shift {move : α → α} {n : Nat} (h : ∀ line s, give (n + line) s = (give line s).map move)
    (line : Nat) (ss : List Segment) : alongLines give (n + line) ss = (alongLines give line ss).map move := by
  induction ss generalizing line with
  | nil => rfl
  | cons s ss ih => rw [alongLines, alongLines, List.map_append, Nat.add_assoc, h, ih]

theorem mem_alongLines {a : α} {line : Nat} {ss : List Segment} :
    a ∈ alongLines give line ss ↔
      ∃ xs s ys, ss = xs ++ s :: ys ∧ a ∈ give (line + (joined (xs ++ [s])).count '\n') s := by
  constructor
  · intro h
    induction ss generalizing line with
    | nil => simp [alongLines] at h
    | cons s ss ih =>
      rcases List.mem_append.mp h with h | h
      · exact ⟨[], s, ss, rfl, by simpa [joined, Segment.lineFeeds] using h⟩
      · obtain ⟨xs, t, ys, rfl, hgive⟩ := ih h
        refine ⟨s :: xs, t, ys, rfl, ?_⟩
        rwa [List.cons_append, count_joined_cons, ← Nat.add_assoc]
  · rintro ⟨xs, s, ys, rfl, hgive⟩
    rw [List.append_cons, alongLines_append, alongLines_append]
    refine List.mem_append_left _ (List.mem_append_right _ (List.mem_append_left _ ?_))
    have hjoined : (joined (xs ++ [s])).count '\n' = (joined xs).count '\n' + s.lineFeeds := by
      simp [joined, Segment.lineFeeds]
    rwa [hjoined, ← Nat.add_assoc] at hgive

end alongLines

/-! ## One step -/

/-- The text of a number is a numeral, so a number segment always has a value. -/
theorem read?_number {whole fraction : List Char} (nonempty : whole ≠ []) (digits : ∀ c ∈ whole, c.isDigit)
    (places : ∀ c ∈ fraction, c.isDigit) :
    Decimal.read? (Segment.number whole fraction).text = some (Decimal.ofDigits whole fraction) := by
  cases fraction with
  | nil =>
    have htake : whole.takeWhile Char.isDigit = whole := List.takeWhile_eq_self_iff.mpr digits
    have hdrop : whole.dropWhile Char.isDigit = [] := List.dropWhile_eq_nil_iff.mpr digits
    simp [Decimal.read?, Segment.text, htake, hdrop, nonempty]
  | cons d fraction =>
    have hall : (d :: fraction).all Char.isDigit = true := List.all_eq_true.mpr places
    simp [Decimal.read?, Segment.text, List.takeWhile_append_of_pos digits,
      List.dropWhile_append_of_pos digits, nonempty, hall]

namespace Scan

variable {ρ : Type} [Reporter ρ]

/-- A scan that has taken some segments more, and has `rest` before it. -/
def advance (s : Scan ρ) (ss : List Segment) (rest : List Char) : Scan ρ where
  rest := rest
  line := s.line + (joined ss).count '\n'
  tokens := s.tokens ++ (tokensFrom s.line ss).toArray
  erred := s.erred || !(findingsFrom s.line ss).isEmpty
  reporter := (findingsFrom s.line ss).foldl Finding.tell s.reporter

theorem advance_nil (s : Scan ρ) : s.advance [] s.rest = s := by
  simp [advance, joined, tokensFrom, findingsFrom, alongLines]

theorem advance_advance (s : Scan ρ) (xs ys : List Segment) (mid rest : List Char) :
    (s.advance xs mid).advance ys rest = s.advance (xs ++ ys) rest := by
  have hjoined : (joined (xs ++ ys)).count '\n' = (joined xs).count '\n' + (joined ys).count '\n' := by
    simp [joined]
  simp only [advance, hjoined, tokensFrom, findingsFrom, alongLines_append, List.foldl_append, mk.injEq,
    true_and, Nat.add_assoc, and_true]
  constructor
  · simp
  · cases alongLines Segment.findings s.line xs <;> simp

/-- Taking a segment adds what it gives, and nothing else. -/
theorem take_eq_advance (s : Scan ρ) {segment : Segment} {rest : List Char} (h : segment.Fits rest) :
    s.take segment rest = s.advance [segment] rest := by
  have hjoined : (joined [segment]).count '\n' = segment.lineFeeds := by
    simp [joined, Segment.lineFeeds]
  have htokens (f : Nat → Segment → List Token) :
      alongLines f s.line [segment] = f (s.line + segment.lineFeeds) segment := by
    simp [alongLines]
  have hfindings (f : Nat → Segment → List Finding) :
      alongLines f s.line [segment] = f (s.line + segment.lineFeeds) segment := by
    simp [alongLines]
  simp only [take, advance, hjoined, tokensFrom, findingsFrom, htokens, hfindings]
  cases h with
  | number nonempty digits places =>
    simp [Segment.yield, read?_number nonempty digits places, Segment.tokens, Segment.findings]
  | fixed | blank | comment | string | unexpected | unterminated =>
    simp [Segment.yield, Segment.tokens, Segment.findings, fail, Finding.tell, Finding.record,
      Finding.diagnostic]

theorem step_eq_advance (s : Scan ρ) {c : Char} {cs : List Char} (h : s.rest = c :: cs) :
    s.step = s.advance [(Segment.read c cs).1] (Segment.read c cs).2 := by
  simp only [step, h]
  exact take_eq_advance s (Segment.starts_read c cs).fits

/-! ## All steps -/

theorem run_eq_advance (s : Scan ρ) : s.run = s.advance (segments s.rest) [] := by
  induction s using run.induct with
  | case1 s hnil =>
    rw [run]
    split
    · rw [hnil, segments, ← hnil, advance_nil]
    · simp_all
  | case2 s c cs hcons ih =>
    have hstep := step_eq_advance s hcons
    rw [run]
    split
    · simp_all
    · rw [ih, hstep, advance_advance, hcons, segments]
      rfl

theorem run_of_nil {s : Scan ρ} (h : s.rest = []) : s.run = s := by
  rw [run_eq_advance, h, segments, ← h, advance_nil]

/-- A step is part of the run. -/
theorem run_step (s : Scan ρ) : s.step.run = s.run := by
  cases h : s.rest with
  | nil =>
    have hstep : s.step = s := by simp only [step, h]
    rw [hstep]
  | cons c cs =>
    rw [run_eq_advance s, run_eq_advance, step_eq_advance s h, advance_advance, h, segments]
    rfl

end Scan

/-! ## The shape of tokens -/

/-- A token as a source gives it, its kind, lexeme and literal in agreement. -/
inductive Token.Shaped : Token → Prop
  | fixed {kind : Kind} {line : Nat} (symbol : kind.symbol ≠ []) :
      Shaped ⟨kind, String.ofList kind.symbol, .none, line⟩
  | string {opening closing : Char} {body : List Char} {line : Nat} (opens : IsQuote opening)
      (inside : ∀ c ∈ body, ¬IsQuote c) (closes : IsQuote closing) :
      Shaped ⟨.string, String.ofList (opening :: (body ++ [closing])), .text (String.ofList body), line⟩
  | number {whole fraction : List Char} {line : Nat} (nonempty : whole ≠ []) (digits : ∀ c ∈ whole, c.isDigit)
      (places : ∀ c ∈ fraction, c.isDigit) :
      Shaped ⟨.number, String.ofList (Segment.number whole fraction).text,
        .number (Decimal.ofDigits whole fraction).nearest, line⟩

theorem Token.Shaped.kind_ne_endOfSource {t : Token} (h : t.Shaped) : t.kind ≠ .endOfSource := by
  cases h with
  | fixed symbol =>
    rintro rfl
    exact symbol rfl
  | string | number => nofun

theorem shaped_of_mem_tokensFrom {t : Token} {line : Nat} {text : List Char}
    (h : t ∈ tokensFrom line (segments text)) : t.Shaped := by
  obtain ⟨xs, s, ys, hss, hgive⟩ := mem_alongLines.mp h
  obtain ⟨rest, hfits⟩ := fits_of_mem_segments (hss ▸ List.mem_append_right xs List.mem_cons_self)
  cases hfits with
  | fixed symbol _ =>
    obtain rfl := List.mem_singleton.mp hgive
    exact .fixed symbol
  | string opens inside closes =>
    obtain rfl := List.mem_singleton.mp hgive
    exact .string opens inside closes
  | number nonempty digits places =>
    obtain rfl := List.mem_singleton.mp hgive
    exact .number nonempty digits places
  | blank | comment | unexpected | unterminated => cases hgive

/-! ## Whole scans -/

theorem joined_segments (cs : List Char) : joined (segments cs) = cs := by
  induction cs using segments.induct with
  | case1 => simp [segments, joined]
  | case2 c cs ih =>
    rw [segments, joined, List.flatMap_cons]
    rw [joined] at ih
    rw [ih, (Segment.starts_read c cs).text_append]

section scanInto

variable {ρ : Type} [Reporter ρ] (source : String) (r : ρ)

theorem tokens_scanInto :
    (scanInto source r).tokens.toList =
      tokensFrom 1 (segments source.toList) ++ [.endAt (1 + source.toList.count '\n')] := by
  simp [scanInto, Scan.finish, Scan.start, Scan.run_eq_advance, Scan.advance, joined_segments]

theorem erred_scanInto :
    (scanInto source r).erred = !(findingsFrom 1 (segments source.toList)).isEmpty := by
  simp [scanInto, Scan.finish, Scan.start, Scan.run_eq_advance, Scan.advance]

theorem reporter_scanInto :
    (scanInto source r).reporter =
      Reporter.log ((findingsFrom 1 (segments source.toList)).foldl Finding.tell r)
        (.scanFinished (scanInto source r).tokens.size (1 + source.toList.count '\n')
          (scanInto source r).erred) := by
  simp [scanInto, Scan.finish, Scan.start, Scan.run_eq_advance, Scan.advance, joined_segments]

/-- The reporter makes no difference to the tokens. -/
theorem tokens_scanInto_eq_scan : (scanInto source r).tokens = (scan source).tokens := by
  rw [← Array.toList_inj, scan, tokens_scanInto, tokens_scanInto]

theorem erred_scanInto_eq_scan : (scanInto source r).erred = (scan source).erred := by
  rw [scan, erred_scanInto, erred_scanInto]

end scanInto

/-- The tokens of a scan but for its end mark. -/
def Scan.sourceTokens {ρ : Type} (s : Scan ρ) : List Token := s.tokens.toList.filter (!·.isEnd)

theorem sourceTokens_scanInto {ρ : Type} [Reporter ρ] (source : String) (r : ρ) :
    (scanInto source r).sourceTokens = tokensFrom 1 (segments source.toList) := by
  have hend : ∀ t ∈ tokensFrom 1 (segments source.toList), (!t.isEnd) = true := by
    intro t ht
    simpa [Token.isEnd] using (shaped_of_mem_tokensFrom ht).kind_ne_endOfSource
  rw [Scan.sourceTokens, tokens_scanInto, List.filter_append, List.filter_eq_self.mpr hend]
  simp [Token.endAt, Token.isEnd]

/-- A collection keeps the diagnostics of all findings, in order. -/
theorem diagnostics_foldl_tell (fs : List Finding) (c : Collection) :
    (fs.foldl Finding.tell c).diagnostics.toList = c.diagnostics.toList ++ fs.map Finding.diagnostic := by
  induction fs generalizing c with
  | nil => simp
  | cons f fs ih =>
    have htell : (Finding.tell c f).diagnostics.toList = c.diagnostics.toList ++ [f.diagnostic] := by
      simp [Finding.tell, Reporter.receive, Reporter.log, Collection.add]
    rw [List.foldl_cons, ih, htell, List.map_cons, List.append_assoc, List.singleton_append]

theorem diagnostics_scan (source : String) :
    (scan source).diagnostics = (findingsFrom 1 (segments source.toList)).map Finding.diagnostic := by
  have hlog (c : Collection) (r : Log.Record) : Reporter.log c r = c := rfl
  rw [Scan.diagnostics, scan, reporter_scanInto, hlog, diagnostics_foldl_tell]
  simp [Collection.empty]

theorem erred_scan_iff (source : String) : (scan source).erred = true ↔ (scan source).diagnostics ≠ [] := by
  rw [diagnostics_scan, scan, erred_scanInto]
  simp

end ScriptScan
