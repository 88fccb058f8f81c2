-- SUMMARY: The console reporter, which writes each report as a line to an error stream.
import ScriptScan.Report.Reporter
import ScriptScan.Output.Sink

/-! # The console

Reports become lines on an error stream. A line that cannot be written is lost but counted, and the first
fault is kept until it is taken. -/

namespace ScriptScan

/-- A stream for report lines, which log records may share. -/
class ErrorStream (ε : Type) where
  write : ε → String → ε × Option SinkFault
  /-- Places a log record on the stream, and by default forgets it. -/
  log : ε → Log.Record → ε := fun s _ => s

instance : ErrorStream Sink where
  write := Sink.write

structure Console (ε : Type) where
  stream : ε
  color : Bool
  errorCount : Nat
  /-- The first fault since one was taken. -/
  fault : Option SinkFault
  deriving DecidableEq

namespace Console

variable {ε : Type} [ErrorStream ε]

def on (stream : ε) (color : Bool) : Console ε := ⟨stream, color, 0, none⟩

def erred (c : Console ε) : Bool := 0 < c.errorCount

/-- Takes a diagnostic. Warnings are written and not counted. -/
def take (c : Console ε) (d : Diagnostic) : Console ε :=
  let (stream, fault) := ErrorStream.write c.stream (d.reportLine c.color)
  { c with
    stream
    errorCount := if d.isError then c.errorCount + 1 else c.errorCount
    fault := c.fault.or fault }

/-- The first fault since the last time, which is then forgotten. -/
def takeFault (c : Console ε) : Console ε × Option SinkFault :=
  ({ c with fault := none }, c.fault)

instance : Reporter (Console ε) where
  report c line location message := c.take (.ofReport line location message)
  receive := take
  log c r := { c with stream := ErrorStream.log c.stream r }

end Console

end ScriptScan
