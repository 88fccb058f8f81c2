-- SUMMARY: What a process writes to its error output: report lines, and the log records that its filter lets pass.
import ScriptScan.Log.Filter
import ScriptScan.Report.Console

/-! # Transcripts -/

namespace ScriptScan.Command

/-- One thing written to the error output. -/
inductive Notice where
  | log (r : Log.Record)
  | line (text : String)
  deriving DecidableEq

namespace Notice

def render (stamp : String) : Notice → String
  | .log r => r.line stamp
  | .line text => text

end Notice

/-- An error output that never fails. -/
structure Transcript where
  filter : Log.Filter
  notices : Array Notice

namespace Transcript

def empty (filter : Log.Filter) : Transcript := ⟨filter, #[]⟩

def write (t : Transcript) (text : String) : Transcript :=
  { t with notices := t.notices.push (.line text) }

def log (t : Transcript) (r : Log.Record) : Transcript :=
  if t.filter.enables r then { t with notices := t.notices.push (.log r) } else t

instance : ErrorStream Transcript where
  write t text := (t.write text, none)
  log := log

end Transcript

end ScriptScan.Command
