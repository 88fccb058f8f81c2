-- SUMMARY: Reporters, which receive diagnostics: the collection, the plain list, the journal and one on loan.
import ScriptScan.Diagnostic
import ScriptScan.Log.Record

/-! # Reporters

A scan hands each lexical error to a reporter as soon as it is found. Some reporters know no more than lines,
locations and messages; those that keep codes and categories take whole diagnostics. A reporter also sees the
log records of the scan, in the place where they belong between the reports. -/

namespace ScriptScan

class Reporter (ρ : Type) where
  /-- Takes a plain report. -/
  report : ρ → Nat → String → String → ρ
  /-- Takes a diagnostic, by default as a plain report. One without a line is reported on line 0. -/
  receive : ρ → Diagnostic → ρ := fun r d => report r (d.line.getD 0) d.location d.message
  /-- Sees a log record, and by default forgets it. -/
  log : ρ → Log.Record → ρ := fun r _ => r

/-! ## Collections -/

/-- All diagnostics so far. -/
structure Collection where
  diagnostics : Array Diagnostic
  deriving DecidableEq

namespace Collection

def empty : Collection := ⟨#[]⟩

def add (c : Collection) (d : Diagnostic) : Collection := ⟨c.diagnostics.push d⟩

def size (c : Collection) : Nat := c.diagnostics.size

/-- How many of the diagnostics are errors. -/
def errorCount (c : Collection) : Nat := c.diagnostics.countP (·.isError)

def hasErrors (c : Collection) : Bool := c.diagnostics.any (·.isError)

instance : Reporter Collection where
  report c line location message := c.add (.ofReport line location message)
  receive := add

end Collection

/-! ## Plain reports -/

/-- A report without code and category. -/
structure PlainReport where
  line : Nat
  location : String
  message : String
  deriving DecidableEq

/-- A reporter that knows plain reports only. -/
structure PlainReports where
  reports : Array PlainReport
  deriving DecidableEq

namespace PlainReports

def empty : PlainReports := ⟨#[]⟩

instance : Reporter PlainReports where
  report r line location message := ⟨r.reports.push ⟨line, location, message⟩⟩

end PlainReports

/-! ## Journals -/

/-- A reporter that keeps the log records and no diagnostics. -/
structure Journal where
  records : Array Log.Record
  deriving DecidableEq

namespace Journal

def empty : Journal := ⟨#[]⟩

instance : Reporter Journal where
  report j _ _ _ := j
  log j r := ⟨j.records.push r⟩

end Journal

/-! ## Reporters on loan -/

/-- A reporter lent to a scan. It hands everything on to the reporter that it stands for. -/
structure Lent (ρ : Type) where
  owned : ρ
  deriving DecidableEq

namespace Lent

instance {ρ : Type} [Reporter ρ] : Reporter (Lent ρ) where
  report l line location message := ⟨Reporter.report l.owned line location message⟩
  receive l d := ⟨Reporter.receive l.owned d⟩
  log l r := ⟨Reporter.log l.owned r⟩

end Lent

end ScriptScan
