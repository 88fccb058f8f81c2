-- SUMMARY: A collection, a console and a list of plain reports tell the same, whatever they are used for.
import ScriptScan.Report.Console
import ScriptScan.Report.Use
import ScriptScan.Proofs.Scan.Run
import ScriptScan.Proofs.Output.Sink

/-!
# Reporters in agreement

Each reporter is told by the diagnostics that it has received: `Records view` says that it is `view ds` after
`ds`, and one diagnostic more or a log record keeps it so. What a use does to a reporter is proved once for all
that have a view, and then read off each view.
-/

namespace ScriptScan

/-! ## Reporters told by their diagnostics -/

structure Records {ρ : Type} [Reporter ρ] (view : List Diagnostic → ρ) : Prop where
  report : ∀ ds line location message,
    Reporter.report (view ds) line location message = view (ds ++ [.ofReport line location message])
  receive : ∀ ds d, Reporter.receive (view ds) d = view (ds ++ [d])
  log : ∀ ds record, Reporter.log (view ds) record = view ds

section Records

variable {ρ : Type} [Reporter ρ] {view : List Diagnostic → ρ}

/-- A reporter on loan records what its owner would. -/
theorem Records.lent (h : Records view) : Records fun ds => Lent.mk (view ds) where
  report ds line location message := congrArg Lent.mk (h.report ds line location message)
  receive ds d := congrArg Lent.mk (h.receive ds d)
  log ds record := congrArg Lent.mk (h.log ds record)

theorem Records.foldl_tell (h : Records view) (ds : List Diagnostic) (fs : List Finding) :
    fs.foldl Finding.tell (view ds) = view (ds ++ fs.map Finding.diagnostic) := by
  induction fs generalizing ds with
  | nil => rw [List.map_nil, List.append_nil, List.foldl_nil]
  | cons f fs ih =>
    rw [List.foldl_cons, Finding.tell, h.log, h.receive, ih, List.map_cons, ← List.append_cons]

theorem Records.reporter_scanInto (h : Records view) (ds : List Diagnostic) (source : String) :
    (scanInto source (view ds)).reporter = view (ds ++ (scan source).diagnostics) := by
  rw [ScriptScan.reporter_scanInto, h.foldl_tell, h.log, diagnostics_scan]

end Records

/-! ## Uses -/

namespace Use

/-- The diagnostics that a use hands over. -/
def given : Use → List Diagnostic
  | .report line location message => [.ofReport line location message]
  | .receive d => [d]
  | .scan source => (ScriptScan.scan source).diagnostics

/-- What a use answers, whoever the reporter is. -/
def answer : Use → Option Answer
  | .scan source => some ⟨(ScriptScan.scan source).tokens, (ScriptScan.scan source).erred⟩
  | .report .. | .receive _ => none

end Use

section Records

variable {ρ : Type} [Reporter ρ] {view : List Diagnostic → ρ}

/-- One use hands its diagnostics over, and its answer does not depend on the reporter. -/
theorem Records.on (h : Records view) (ds : List Diagnostic) (u : Use) :
    u.on (view ds) = (view (ds ++ u.given), u.answer) := by
  cases u with
  | report line location message => exact Prod.ext (h.report ds line location message) rfl
  | receive d => exact Prod.ext (h.receive ds d) rfl
  | scan source =>
    rw [Use.on, h.lent.reporter_scanInto, tokens_scanInto_eq_scan, erred_scanInto_eq_scan]
    rfl

theorem Records.onAll (h : Records view) (ds : List Diagnostic) (us : List Use) :
    Use.onAll (view ds) us = view (ds ++ us.flatMap Use.given) := by
  induction us generalizing ds with
  | nil => rw [Use.onAll, List.foldl_nil, List.flatMap_nil, List.append_nil]
  | cons u us ih =>
    rw [Use.onAll, List.foldl_cons, h.on, ← Use.onAll, ih, List.flatMap_cons, List.append_assoc]

end Records

/-! ## The three views -/

def Collection.ofList (ds : List Diagnostic) : Collection := ⟨ds.toArray⟩

theorem errorCount_ofList (ds : List Diagnostic) : (Collection.ofList ds).errorCount = ds.countP (·.isError) := by
  simp [Collection.errorCount, Collection.ofList]

theorem hasErrors_ofList (ds : List Diagnostic) :
    (Collection.ofList ds).hasErrors = decide (0 < ds.countP (·.isError)) := by
  rw [Bool.eq_iff_iff, decide_eq_true_eq, List.countP_pos_iff]
  simp [Collection.hasErrors, Collection.ofList]

theorem records_collection : Records Collection.ofList where
  report ds line location message := by simp [Reporter.report, Collection.add, Collection.ofList]
  receive ds d := by simp [Reporter.receive, Collection.add, Collection.ofList]
  log _ _ := rfl

def PlainReport.ofDiagnostic (d : Diagnostic) : PlainReport := ⟨d.line.getD 0, d.location, d.message⟩

def PlainReports.ofList (ds : List Diagnostic) : PlainReports := ⟨(ds.map PlainReport.ofDiagnostic).toArray⟩

theorem records_plainReports : Records PlainReports.ofList where
  report ds line location message := by
    simp [Reporter.report, PlainReports.ofList, PlainReport.ofDiagnostic, Diagnostic.ofReport]
  receive ds d := by simp [Reporter.receive, PlainReports.ofList, PlainReport.ofDiagnostic]
  log _ _ := rfl

/-- The lines of some reports, one after the other. -/
def reportText (color : Bool) (ds : List Diagnostic) : String := String.join (ds.map (·.reportLine color))

theorem bytes_reportText_concat (color : Bool) (ds : List Diagnostic) (d : Diagnostic) :
    bytes (reportText color (ds ++ [d])) = bytes (reportText color ds) ++ bytes (d.reportLine color) := by
  simp [reportText, String.join_append, String.join_cons, bytes_append]

/-- A console over a stream without a limit. -/
def Console.ofList (color flushes : Bool) (ds : List Diagnostic) : Console Sink where
  stream := .after none flushes (bytes (reportText color ds))
  color := color
  errorCount := ds.countP (·.isError)
  fault := none

theorem take_console_ofList (color flushes : Bool) (ds : List Diagnostic) (d : Diagnostic) :
    (Console.ofList color flushes ds).take d = Console.ofList color flushes (ds ++ [d]) := by
  have hwrite : ErrorStream.write (Sink.after none flushes (bytes (reportText color ds))) (d.reportLine color) =
      (Sink.after none flushes (bytes (reportText color (ds ++ [d]))), none) := by
    rw [bytes_reportText_concat]
    exact Sink.write_after none flushes _ _
  simp only [Console.take, Console.ofList, hwrite, List.countP_append, List.countP_singleton]
  cases d.isError <;> rfl

theorem records_console (color flushes : Bool) : Records (Console.ofList color flushes) where
  report ds line location message := take_console_ofList color flushes ds (.ofReport line location message)
  receive ds d := take_console_ofList color flushes ds d
  log _ _ := rfl

/-! ## Agreement -/

/-- After any uses, one use more answers the same whatever the reporter is: for a scan its tokens, and whether it
adds a diagnostic. The collection takes the diagnostics of the use after those it has, the console counts the
errors among all of them and has written their lines, and the plain reports are what is left of them without
codes and categories. -/
theorem reporters_agree (color flushes : Bool) (earlier : List Use) (u : Use) :
    let collection := Use.onAll Collection.empty earlier
    let console := Use.onAll (Console.on (Sink.empty none flushes) color) earlier
    let reports := Use.onAll PlainReports.empty earlier
    let (collection', answer) := u.on collection
    let (console', consoleAnswer) := u.on console
    let (reports', reportsAnswer) := u.on reports
    let ds := collection'.diagnostics.toList
    (answer = u.answer ∧ consoleAnswer = u.answer ∧ reportsAnswer = u.answer) ∧
      (∀ source, u = .scan source → ((scan source).erred = true ↔ collection.size < collection'.size)) ∧
      ds = collection.diagnostics.toList ++ u.given ∧
      collection'.errorCount = (ds.filter (·.isError)).length ∧
      console'.errorCount = collection'.errorCount ∧
      console'.erred = collection'.hasErrors ∧
      console'.stream.kept.toList = bytes (String.join (ds.map (·.reportLine color))) ∧
      reports'.reports.toList = ds.map fun d => ⟨d.line.getD 0, d.location, d.message⟩ := by
  have hcollection : Use.onAll Collection.empty earlier = .ofList (earlier.flatMap Use.given) :=
    records_collection.onAll [] earlier
  have hconsole : Use.onAll (Console.on (Sink.empty none flushes) color) earlier =
      .ofList color flushes (earlier.flatMap Use.given) := by
    rw [Sink.empty_eq_after]
    exact (records_console color flushes).onAll [] earlier
  have hreports : Use.onAll PlainReports.empty earlier = .ofList (earlier.flatMap Use.given) :=
    records_plainReports.onAll [] earlier
  rw [hcollection, hconsole, hreports]
  intro collection console reports
  rw [records_collection.on, (records_console color flushes).on, records_plainReports.on]
  refine ⟨⟨rfl, rfl, rfl⟩, ?_, rfl, ?_, ?_, ?_, rfl, rfl⟩
  · rintro source rfl
    rw [erred_scan_iff]
    simp [collection, Collection.size, Collection.ofList, Use.given, List.length_pos_iff]
  · rw [errorCount_ofList, List.countP_eq_length_filter]
    rfl
  · rw [errorCount_ofList]
    rfl
  · rw [hasErrors_ofList]
    rfl

end ScriptScan
