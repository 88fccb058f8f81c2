-- SUMMARY: A console after any operations: what its stream holds, what it has counted and which fault it gives up.
import Mathlib.Data.List.DropRight
import ScriptScan.Proofs.Report.Agreement

/-!
# Consoles and faults

Whatever a console is used for, it attempts lines and lets log records pass. Its stream and its count are told by all
of them, its fault by those since one was last taken. Over a sink a line has a fault if some of it does not fit.
-/

namespace ScriptScan

namespace Console

variable {ε : Type} [ErrorStream ε]

/-! ## Entries -/

/-- What a console places on its stream. -/
inductive Entry where
  | line (d : Diagnostic)
  | record (r : Log.Record)

namespace Entry

def given : Entry → List Diagnostic
  | .line d => [d]
  | .record _ => []

/-- The stream after an entry, and the fault of it. A log record has none. -/
def onto (color : Bool) (stream : ε) : Entry → ε × Option SinkFault
  | .line d => ErrorStream.write stream (d.reportLine color)
  | .record r => (ErrorStream.log stream r, none)

end Entry

/-- The diagnostics of the lines. -/
def reports (es : List Entry) : List Diagnostic := es.flatMap Entry.given

theorem reports_append (xs ys : List Entry) : reports (xs ++ ys) = reports xs ++ reports ys := List.flatMap_append

/-- The stream after some entries. -/
def placed (color : Bool) (stream : ε) (es : List Entry) : ε := es.foldl (fun s e => (e.onto color s).1) stream

/-- The fault of the first entry that has one. -/
def firstFault (color : Bool) (stream : ε) : List Entry → Option SinkFault
  | [] => none
  | e :: es => (e.onto color stream).2.or (firstFault color (e.onto color stream).1 es)

theorem placed_append (color : Bool) (stream : ε) (xs ys : List Entry) :
    placed color stream (xs ++ ys) = placed color (placed color stream xs) ys := List.foldl_append

theorem firstFault_append (color : Bool) (stream : ε) (xs ys : List Entry) :
    firstFault color stream (xs ++ ys) =
      (firstFault color stream xs).or (firstFault color (placed color stream xs) ys) := by
  induction xs generalizing stream with
  | nil => rfl
  | cons x xs ih => rw [List.cons_append, firstFault, ih, firstFault, Option.or_assoc, placed, placed, List.foldl_cons]

/-- A console set up on `start`. Its fault was last taken after the entries `settled`. -/
def since (color : Bool) (start : ε) (settled pending : List Entry) : Console ε where
  stream := placed color start (settled ++ pending)
  color
  errorCount := (reports (settled ++ pending)).countP (·.isError)
  fault := firstFault color (placed color start settled) pending

section since

variable (color : Bool) (start : ε) (settled pending : List Entry)

theorem take_since (d : Diagnostic) :
    (since color start settled pending).take d = since color start settled (pending ++ [.line d]) := by
  have hstream : placed color start (settled ++ (pending ++ [.line d])) =
      (ErrorStream.write (placed color start (settled ++ pending)) (d.reportLine color)).1 := by
    rw [← List.append_assoc, placed_append]
    rfl
  have hfault : firstFault color (placed color start settled) (pending ++ [.line d]) =
      (firstFault color (placed color start settled) pending).or
        (ErrorStream.write (placed color start (settled ++ pending)) (d.reportLine color)).2 := by
    rw [firstFault_append, ← placed_append, firstFault, firstFault, Option.or_none]
    rfl
  have hcount : (reports (settled ++ (pending ++ [.line d]))).countP (·.isError) =
      if d.isError then (reports (settled ++ pending)).countP (·.isError) + 1
      else (reports (settled ++ pending)).countP (·.isError) := by
    have hone : reports [.line d] = [d] := rfl
    rw [← List.append_assoc, reports_append, hone, List.countP_append, List.countP_singleton]
    split <;> rfl
  simp only [take, since, hstream, hfault, hcount]

theorem log_since (r : Log.Record) :
    Reporter.log (since color start settled pending) r = since color start settled (pending ++ [.record r]) := by
  have hstream : placed color start (settled ++ (pending ++ [.record r])) =
      ErrorStream.log (placed color start (settled ++ pending)) r := by
    rw [← List.append_assoc, placed_append]
    rfl
  have hfault : firstFault color (placed color start settled) (pending ++ [.record r]) =
      firstFault color (placed color start settled) pending := by
    rw [firstFault_append, firstFault, firstFault, Entry.onto, Option.or_none, Option.or_none]
  have hgiven : reports (settled ++ (pending ++ [.record r])) = reports (settled ++ pending) := by
    have hnone : reports [.record r] = [] := rfl
    rw [← List.append_assoc, reports_append, hnone, List.append_nil]
  simp only [Reporter.log, since, hstream, hfault, hgiven]

/-- What was pending is settled when the fault is taken. -/
theorem takeFault_since :
    (since color start settled pending).takeFault =
      (since color start (settled ++ pending) [], firstFault color (placed color start settled) pending) := by
  simp only [takeFault, since, List.append_nil, firstFault]

/-- A scan logs every error and then attempts its line. -/
theorem foldl_tell_since (fs : List Finding) :
    fs.foldl Finding.tell (since color start settled pending) =
      since color start settled (pending ++ fs.flatMap fun f => [.record f.record, .line f.diagnostic]) := by
  induction fs generalizing pending with
  | nil => rw [List.foldl_nil, List.flatMap_nil, List.append_nil]
  | cons f fs ih =>
    have htell : Finding.tell (since color start settled pending) f =
        since color start settled (pending ++ [.record f.record, .line f.diagnostic]) := by
      have hline := take_since color start settled (pending ++ [.record f.record]) f.diagnostic
      rw [List.append_assoc] at hline
      rw [Finding.tell, log_since]
      exact hline
    rw [List.foldl_cons, htell, ih, List.flatMap_cons, List.append_assoc]

end since

end Console

/-! ## Uses -/

open Console

/-- A scan tells a reporter on loan what it would tell the owner. -/
theorem foldl_tell_lent {ρ : Type} [Reporter ρ] (r : ρ) (fs : List Finding) :
    fs.foldl Finding.tell (Lent.mk r) = Lent.mk (fs.foldl Finding.tell r) := by
  induction fs generalizing r with
  | nil => rfl
  | cons f fs ih => exact ih (Finding.tell r f)

theorem reporter_scanInto_lent {ρ : Type} [Reporter ρ] (source : String) (r : ρ) :
    (scanInto source (Lent.mk r)).reporter = Lent.mk (scanInto source r).reporter := by
  have hlog (r : ρ) (record : Log.Record) : Reporter.log (Lent.mk r) record = Lent.mk (Reporter.log r record) := rfl
  rw [reporter_scanInto, reporter_scanInto, foldl_tell_lent, hlog]
  simp only [tokens_scanInto_eq_scan, erred_scanInto_eq_scan]

namespace Use

/-- What a console places on its stream in a use. -/
def entries : Use → List Entry
  | .report line location message => [.line (.ofReport line location message)]
  | .receive d => [.line d]
  | .scan source =>
    let s := ScriptScan.scan source
    (findingsFrom 1 (segments source.toList)).flatMap (fun f => [.record f.record, .line f.diagnostic]) ++
      [.record (.scanFinished s.tokens.size (1 + source.toList.count '\n') s.erred)]

theorem reports_entries (u : Use) : reports u.entries = u.given := by
  cases u with
  | report | receive => rfl
  | scan source =>
    have hrecord (r : Log.Record) : reports [.record r] = [] := rfl
    have hfindings (fs : List Finding) :
        reports (fs.flatMap fun f => [.record f.record, .line f.diagnostic]) = fs.map Finding.diagnostic := by
      induction fs with
      | nil => rfl
      | cons f fs ih =>
        rw [List.flatMap_cons, reports_append, ih]
        rfl
    rw [entries, reports_append, hrecord, List.append_nil, hfindings, given, diagnostics_scan]

section since

variable {ε : Type} [ErrorStream ε] (color : Bool) (start : ε) (settled pending : List Entry)

theorem reporter_scanInto_since (source : String) :
    (scanInto source (since color start settled pending)).reporter =
      since color start settled (pending ++ (Use.scan source).entries) := by
  rw [reporter_scanInto, foldl_tell_since, log_since, entries, List.append_assoc, tokens_scanInto_eq_scan,
    erred_scanInto_eq_scan]

theorem on_since (u : Use) :
    (u.on (since color start settled pending)).1 = since color start settled (pending ++ u.entries) := by
  cases u with
  | report line location message => exact take_since color start settled pending (.ofReport line location message)
  | receive d => exact take_since color start settled pending d
  | scan source => rw [on, reporter_scanInto_lent, reporter_scanInto_since]

end since

end Use

/-! ## Operations -/

namespace Console

/-- What may be done with a console. -/
inductive Operation where
  | use (u : Use)
  | takeFault

namespace Operation

def isUse : Operation → Bool
  | .use _ => true
  | .takeFault => false

/-- The diagnostics that an operation hands over. -/
def given : Operation → List Diagnostic
  | .use u => u.given
  | .takeFault => []

def entries : Operation → List Entry
  | .use u => u.entries
  | .takeFault => []

theorem reports_flatMap_entries (ops : List Operation) : reports (ops.flatMap entries) = ops.flatMap given := by
  induction ops with
  | nil => rfl
  | cons op ops ih =>
    rw [List.flatMap_cons, reports_append, ih, List.flatMap_cons]
    cases op with
    | use u => rw [entries, Use.reports_entries, given]
    | takeFault => rfl

section run

variable {ε : Type} [ErrorStream ε]

/-- The console after an operation. -/
def on (c : Console ε) : Operation → Console ε
  | .use u => (u.on c).1
  | .takeFault => c.takeFault.1

def onAll (c : Console ε) (ops : List Operation) : Console ε := ops.foldl on c

/-- Whatever was done before, the fault depends on what has been done since one was last taken. -/
theorem onAll_eq_since (color : Bool) (start : ε) (ops : List Operation) :
    onAll (Console.on start color) ops =
      since color start ((ops.rdropWhile isUse).flatMap entries) ((ops.rtakeWhile isUse).flatMap entries) := by
  induction ops using List.reverseRecOn with
  | nil => rfl
  | append_singleton ops op ih =>
    rw [onAll, List.foldl_concat, ← onAll, ih]
    cases op with
    | use u =>
      rw [List.rdropWhile_concat_pos _ _ _ rfl, List.rtakeWhile_concat_pos _ _ _ rfl, on, Use.on_since,
        List.flatMap_append, List.flatMap_singleton, entries]
    | takeFault =>
      rw [List.rdropWhile_concat_neg _ _ _ Bool.false_ne_true, List.rtakeWhile_concat_neg _ _ _ Bool.false_ne_true,
        on, takeFault_since, ← List.flatMap_append, List.rdropWhile_append_rtakeWhile, List.flatMap_append,
        List.flatMap_singleton, entries, List.append_nil, List.flatMap_nil]

variable (color : Bool) (start : ε) (ops : List Operation)

theorem flatMap_entries_split :
    (ops.rdropWhile isUse).flatMap entries ++ (ops.rtakeWhile isUse).flatMap entries = ops.flatMap entries := by
  rw [← List.flatMap_append, List.rdropWhile_append_rtakeWhile]

theorem stream_onAll : (onAll (Console.on start color) ops).stream = placed color start (ops.flatMap entries) := by
  rw [onAll_eq_since, since, flatMap_entries_split]

theorem errorCount_onAll :
    (onAll (Console.on start color) ops).errorCount = ((ops.flatMap given).filter (·.isError)).length := by
  rw [onAll_eq_since, since, flatMap_entries_split, reports_flatMap_entries, List.countP_eq_length_filter]

theorem fault_onAll :
    (onAll (Console.on start color) ops).fault =
      firstFault color (placed color start ((ops.rdropWhile isUse).flatMap entries))
        ((ops.rtakeWhile isUse).flatMap entries) := by
  rw [onAll_eq_since, since]

/-- An error once counted stays. -/
theorem erred_onAll_onAll (h : (onAll (Console.on start color) ops).erred = true) (more : List Operation) :
    (onAll (onAll (Console.on start color) ops) more).erred = true := by
  have hmore : onAll (onAll (Console.on start color) ops) more = onAll (Console.on start color) (ops ++ more) :=
    List.foldl_append.symm
  rw [erred, decide_eq_true_eq, errorCount_onAll] at h
  rw [hmore, erred, decide_eq_true_eq, errorCount_onAll, List.flatMap_append, List.filter_append, List.length_append]
  omega

end run

end Operation

/-! ## Sinks -/

/-- The lines of some reports fit under a capacity. -/
def Fits (capacity : Option Nat) (color : Bool) (ds : List Diagnostic) : Prop :=
  ∀ room, capacity = some room → (bytes (reportText color ds)).length ≤ room

/-- A line is never empty, so that it overruns a capacity that is used up. -/
theorem overruns_iff_not_fits (capacity : Option Nat) (color : Bool) (ds : List Diagnostic) (d : Diagnostic) :
    overruns capacity (bytes (reportText color ds)) (bytes (d.reportLine color)) = true ↔
      ¬Fits capacity color (ds ++ [d]) := by
  have hline : 0 < (bytes (d.reportLine color)).length := by
    have hfeed : (bytes "\n").length = 1 := by decide
    rw [Diagnostic.reportLine, bytes_append, List.length_append, hfeed]
    omega
  cases capacity with
  | none => simp [overruns, Fits]
  | some room =>
    simp only [overruns, Fits, decide_eq_true_eq, Option.some.injEq, bytes_reportText_concat, List.length_append,
      forall_eq']
    omega

section Sink

variable (capacity : Option Nat) (flushes color : Bool)

/-- A sink that some reports have been written to. -/
def sinkAfter (ds : List Diagnostic) : Sink := .after capacity flushes (bytes (reportText color ds))

theorem write_sinkAfter (ds : List Diagnostic) (d : Diagnostic) :
    ErrorStream.write (sinkAfter capacity flushes color ds) (d.reportLine color) =
      (sinkAfter capacity flushes color (ds ++ [d]),
        if overruns capacity (bytes (reportText color ds)) (bytes (d.reportLine color)) then some .closed else none) := by
  rw [sinkAfter, sinkAfter, bytes_reportText_concat]
  exact Sink.write_after ..

theorem placed_sinkAfter (ds : List Diagnostic) (es : List Entry) :
    placed color (sinkAfter capacity flushes color ds) es = sinkAfter capacity flushes color (ds ++ reports es) := by
  induction es generalizing ds with
  | nil =>
    rw [reports, List.flatMap_nil, List.append_nil]
    rfl
  | cons e es ih =>
    rw [placed, List.foldl_cons, ← placed]
    cases e with
    | line d =>
      have hcons : reports (.line d :: es) = d :: reports es := rfl
      rw [Entry.onto, write_sinkAfter, ih, hcons, ← List.append_cons]
    | record r => exact ih ds

/-- Over a sink there is a fault from the first report on that does not fit. -/
theorem isSome_firstFault_iff (ds : List Diagnostic) (es : List Entry) :
    (firstFault color (sinkAfter capacity flushes color ds) es).isSome ↔
      ∃ before d behind, reports es = before ++ d :: behind ∧ ¬Fits capacity color (ds ++ before ++ [d]) := by
  induction es generalizing ds with
  | nil =>
    refine ⟨nofun, ?_⟩
    rintro ⟨before, d, behind, hnil, -⟩
    cases before <;> cases hnil
  | cons e es ih =>
    cases e with
    | record r => exact ih ds
    | line d =>
      have hcons : reports (.line d :: es) = d :: reports es := rfl
      rw [firstFault, Entry.onto, write_sinkAfter, Option.isSome_or, Bool.or_eq_true, ih, hcons]
      constructor
      · rintro (hfault | ⟨before, e, behind, hreports, hfits⟩)
        · refine ⟨[], d, reports es, rfl, ?_⟩
          rw [List.append_nil, ← overruns_iff_not_fits]
          by_contra hno
          rw [if_neg hno] at hfault
          cases hfault
        · refine ⟨d :: before, e, behind, by rw [hreports, List.cons_append], ?_⟩
          rwa [List.append_cons ds]
      · rintro ⟨before, e, behind, hreports, hfits⟩
        cases before with
        | nil =>
          obtain ⟨rfl, -⟩ := List.cons.inj hreports
          rw [List.append_nil, ← overruns_iff_not_fits] at hfits
          rw [if_pos hfits]
          exact .inl rfl
        | cons f before =>
          obtain ⟨rfl, hrest⟩ := List.cons.inj hreports
          rw [List.append_cons ds] at hfits
          exact .inr ⟨before, e, behind, hrest, hfits⟩

end Sink

/-! ## Whole runs -/

namespace Operation

section Sink

variable (capacity : Option Nat) (flushes color : Bool) (ops : List Operation)

theorem stream_onAll_sink :
    (onAll (Console.on (Sink.empty capacity flushes) color) ops).stream =
      sinkAfter capacity flushes color (ops.flatMap given) := by
  have hempty : Sink.empty capacity flushes = sinkAfter capacity flushes color [] := Sink.empty_eq_after ..
  rw [stream_onAll, hempty, placed_sinkAfter, List.nil_append, reports_flatMap_entries]

theorem isSome_fault_onAll_sink :
    (onAll (Console.on (Sink.empty capacity flushes) color) ops).fault.isSome ↔
      ∃ before d behind, (ops.rtakeWhile isUse).flatMap given = before ++ d :: behind ∧
        ¬Fits capacity color ((ops.rdropWhile isUse).flatMap given ++ before ++ [d]) := by
  have hempty : Sink.empty capacity flushes = sinkAfter capacity flushes color [] := Sink.empty_eq_after ..
  rw [fault_onAll, hempty, placed_sinkAfter, isSome_firstFault_iff, List.nil_append, reports_flatMap_entries,
    reports_flatMap_entries]

end Sink

/-- A console after any operations. Over any stream it has counted all errors, whether their lines were written or not,
and an error once counted stays; the fault that it gives up is that of the first line since the last time that had one,
and then there is none. Over a sink it has written all lines up to the capacity, and there is a fault to give up if some
report since the last time does not fit. -/
theorem console_run (color : Bool) (ops : List Operation) :
    (∀ {ε : Type} [ErrorStream ε] (start : ε),
      let console := onAll (Console.on start color) ops
      let settled := (ops.rdropWhile isUse).flatMap entries
      let pending := (ops.rtakeWhile isUse).flatMap entries
      console.errorCount = ((ops.flatMap given).filter (·.isError)).length ∧
        console.erred = decide (0 < console.errorCount) ∧
        (console.erred = true → ∀ more, (onAll console more).erred = true) ∧
        console.takeFault.2 = firstFault color (placed color start settled) pending ∧
        console.takeFault.1 = { console with fault := none }) ∧
      ∀ (capacity : Option Nat) (flushes : Bool),
        let console := onAll (Console.on (Sink.empty capacity flushes) color) ops
        let settled := (ops.rdropWhile isUse).flatMap given
        let pending := (ops.rtakeWhile isUse).flatMap given
        console.stream.kept.toList = limited capacity (bytes (reportText color (ops.flatMap given))) ∧
          (console.takeFault.2.isSome ↔
            ∃ before d behind, pending = before ++ d :: behind ∧
              ¬Fits capacity color (settled ++ before ++ [d])) := by
  constructor
  · intro ε _ start console settled pending
    exact ⟨errorCount_onAll color start ops, rfl, erred_onAll_onAll color start ops, fault_onAll color start ops, rfl⟩
  · intro capacity flushes console settled pending
    refine ⟨?_, isSome_fault_onAll_sink capacity flushes color ops⟩
    have hstream : console.stream = _ := stream_onAll_sink capacity flushes color ops
    rw [hstream]
    exact List.toList_toArray

/-- The line takes eighteen bytes, so that the second one is lost, and the third one again. -/
example :
    let report := Operation.use (.report 1 "" "a")
    let console := Console.on (Sink.empty (some 18) true) false
    (onAll console [report]).fault = none ∧ (onAll console [report, report]).fault = some .closed ∧
      (onAll console [report, report, .takeFault]).fault = none ∧
      (onAll console [report, report, .takeFault, report]).fault = some .closed := by
  decide +kernel

end Operation

end Console

end ScriptScan
