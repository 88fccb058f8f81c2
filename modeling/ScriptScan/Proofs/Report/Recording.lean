-- SUMMARY: Error streams that take everything, told by the entries placed on them.
import ScriptScan.Proofs.Report.Faults

/-!
# Recordings

An error stream that takes everything is told by the entries placed on it, whichever way it shows them: in color or
not, with all log records or with some. A console does the same on every such stream, and never has a fault.
-/

namespace ScriptScan

open Console

/-- An error stream that takes every entry, and the look of the reports on it. -/
structure Recording where
  Stream : Type
  [stream : ErrorStream Stream]
  color : Bool
  /-- The stream that some entries have been placed on. -/
  holding : List Entry → Stream
  write_line : ∀ es d, ErrorStream.write (holding es) (d.reportLine color) = (holding (es ++ [.line d]), none)
  log_record : ∀ es r, ErrorStream.log (holding es) r = holding (es ++ [.record r])

attribute [instance] Recording.stream

namespace Recording

/-- A sink without a limit. It forgets the log records. -/
def sink (flushes color : Bool) : Recording where
  Stream := Sink
  color
  holding es := sinkAfter none flushes color (reports es)
  write_line es d := by
    rw [reports_append]
    exact write_sinkAfter none flushes color (reports es) d
  log_record es r := by
    have hnone : reports [.record r] = [] := rfl
    rw [reports_append, hnone, List.append_nil]
    rfl

variable (R : Recording) (earlier : List Entry)

theorem onto_holding (e : Entry) : e.onto R.color (R.holding earlier) = (R.holding (earlier ++ [e]), none) := by
  cases e with
  | line d => exact R.write_line earlier d
  | record r => exact Prod.ext (R.log_record earlier r) rfl

theorem placed_holding (es : List Entry) : placed R.color (R.holding earlier) es = R.holding (earlier ++ es) := by
  induction es generalizing earlier with
  | nil =>
    rw [List.append_nil]
    rfl
  | cons e es ih => rw [placed, List.foldl_cons, ← placed, onto_holding, ih, ← List.append_cons]

theorem firstFault_holding (es : List Entry) : firstFault R.color (R.holding earlier) es = none := by
  induction es generalizing earlier with
  | nil => rfl
  | cons e es ih => rw [firstFault, onto_holding, ih, Option.or_none]

end Recording

/-! ## Scans -/

theorem Recording.reporter_scanInto (R : Recording) (earlier : List Entry) (source : String) :
    let console := (scanInto source (Console.on (R.holding earlier) R.color)).reporter
    console.stream = R.holding (earlier ++ (Use.scan source).entries) ∧ console.fault = none := by
  have hconsole : (scanInto source (Console.on (R.holding earlier) R.color)).reporter =
      since R.color (R.holding earlier) [] ([] ++ (Use.scan source).entries) :=
    Use.reporter_scanInto_since R.color (R.holding earlier) [] [] source
  rw [List.nil_append] at hconsole
  rw [hconsole]
  exact ⟨R.placed_holding earlier _, R.firstFault_holding earlier _⟩

end ScriptScan
