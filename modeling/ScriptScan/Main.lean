-- SUMMARY: The program itself: it reads the command line, the script or the lines of the prompt, and prints.
import Std.Time.Format
import ScriptScan.Command.Run

/-! # The program

Everything that is decided is decided by the library. Here bytes are read and written, and nothing else. A
prompt session is run turn by turn, so that each answer appears before the next line is awaited. -/

namespace ScriptScan.Main

open ScriptScan.Command

/-- The time of a log record. -/
def timeStamp : IO String := do
  let now ← Std.Time.Timestamp.now
  let time := Std.Time.DateTime.ofTimestamp now Std.Time.TimeZone.ZoneRules.UTC
  return time.format "uuuu-MM-dd'T'HH:mm:ss.SSSSSS'Z'"

def readFault : IO.Error → ReadFault
  | .noFileOrDirectory .. => .notFound
  | .inappropriateType _ code _ => if code = 21 ∨ code = -21 then .isDirectory else .notDirectory
  | .invalidArgument _ code _ =>
    if code = 36 ∨ code = -36 then .nameTooLong else .other "Invalid argument (os error 22)"
  | e => .other (toString e)

def readScript (path : String) : IO (Except ReadFault (List UInt8)) := do
  try
    return .ok (← IO.FS.readBinFile path).data.toList
  catch e =>
    return .error (readFault e)

def writeNotices (t : Transcript) : IO Unit := do
  let err ← IO.getStderr
  for notice in t.notices do
    err.putStr (notice.render (← timeStamp))

/-- Prints what was kept. The text, if any, says why that failed. -/
def writeKept (out : Sink) : IO (Option String) := do
  let stdout ← IO.getStdout
  try
    stdout.write ⟨out.kept⟩
    stdout.flush
    return none
  catch e =>
    return some (toString e)

def fail (color : Bool) (f : Failure) : IO UInt32 := do
  (← IO.getStderr).putStr (f.reportLine color)
  return UInt32.ofNat f.exitStatus

/-- Prints an outcome, reports before tokens. -/
def finish (color : Bool) (o : Outcome) : IO UInt32 := do
  writeNotices o.err
  match ← writeKept o.out with
  | some cause => fail color (.output cause)
  | none => return UInt32.ofNat o.exitStatus

/-- Runs a part of a prompt session and prints what comes of it. -/
def perform (filter : Log.Filter) (session : Session Transcript Unit) : IO (Option Failure) := do
  let (failure, s) := session.runOn ⟨.empty none true, .empty filter⟩
  writeNotices s.err
  return (← writeKept s.out).map Failure.output <|> failure

partial def converse (look : Look) (filter : Log.Filter) : IO (Option Failure) := do
  let line ← try Except.ok <$> (← IO.getStdin).getLine catch _ => pure (.error ())
  match line with
  | .error () => return some (.input invalidText)
  | .ok line =>
    if line.isEmpty then perform filter (Session.say "\n")
    else
      match ← perform filter ((lines line.toUTF8.data.toList).forM (Session.turn look)) with
      | some failure => return some failure
      | none => converse look filter

end ScriptScan.Main

open ScriptScan ScriptScan.Command ScriptScan.Main in
def main (line : List String) : IO UInt32 := do
  let surroundings : Surroundings := {
    files := []
    input := []
    logSetting := ← IO.getEnv "XOLOG_LOG"
    terminal := ← (← IO.getStderr).isTty
    out := .empty none true
  }
  match Plan.ofLine line with
  | .script path a =>
    let look := surroundings.look a
    finish look.color
      (runScript look path (← readScript path) surroundings.out (surroundings.transcript a))
  | .prompt a =>
    let look := surroundings.look a
    let filter := (surroundings.transcript a).filter
    let failure ← match ← perform filter Session.greet with
      | some failure => pure (some failure)
      | none => converse look filter
    match failure with
    | some failure => fail look.color failure
    | none => return 0
  | plan => finish false (plan.run surroundings)
