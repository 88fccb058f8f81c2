-- SUMMARY: Prompt sessions: each line of an input is scanned by itself and answered with its tokens.
import ScriptScan.Listing
import ScriptScan.Report.Console
import ScriptScan.Text.Lines
import ScriptScan.Text.Utf8

/-! # Prompt sessions

A session greets, asks for a line, answers it, and asks again until its input ends. Errors in a line go to the
error stream and the session goes on; the first failure ends it. -/

namespace ScriptScan

/-- How tokens and reports look. -/
structure Look where
  json : Bool
  color : Bool
  deriving DecidableEq

/-- The cause of a failure to decode. -/
def invalidText : String := "stream did not contain valid UTF-8"

/-- The two streams of a session. -/
structure Streams (ε : Type) where
  out : Sink
  err : ε

/-- A part of a session, which may fail. -/
abbrev Session (ε : Type) := ExceptT Failure (StateM (Streams ε))

namespace Session

variable {ε : Type} [ErrorStream ε]

/-- Writes a text. -/
def say (text : String) : Session ε Unit := fun s =>
  match s.out.put text .output with
  | (out, some failure) => (.error failure, { s with out })
  | (out, none) => (.ok (), { s with out })

/-- Asks for a line. -/
def ask : Session ε Unit := do
  say "> "
  if let some fault := (← get).out.flush then
    throw (.output fault.message)

/-- Scans a line, reports its errors and lists its tokens. A fault of the error stream comes second. -/
def answer (look : Look) (source : String) : Session ε Bool := fun s =>
  let listing := listSource look.json source s.out (Console.on s.err look.color)
  let s := ⟨listing.out, listing.reporter.stream⟩
  match listing.result, listing.reporter.fault with
  | .error failure, _ => (.error failure, s)
  | .ok _, some fault => (.error (.output fault.message), s)
  | .ok erred, none => (.ok erred, s)

/-- Logs that a line has been scanned. -/
def logScanned (erred : Bool) : Session ε Unit :=
  modify fun s => { s with err := ErrorStream.log s.err (.scannedLine erred) }

/-- The greeting and the first question. -/
def greet : Session ε Unit := do
  say "Xolog REPL\n"
  say "------------------\n"
  ask

/-- Answers one line of the input and asks for the next. -/
def turn (look : Look) (line : List UInt8) : Session ε Unit := do
  match Utf8.decode? line with
  | none => throw (.input invalidText)
  | some source =>
    let erred ← answer look source
    logScanned erred
    ask

/-- A whole session. -/
def converse (look : Look) (input : List UInt8) : Session ε Unit := do
  greet
  (lines input).forM (turn look)
  say "\n"

/-- Runs a session on streams. Nothing is wrong unless a failure comes back. -/
def runOn (session : Session ε Unit) (s : Streams ε) : Option Failure × Streams ε :=
  match session s with
  | (.error failure, s) => (some failure, s)
  | (.ok (), s) => (none, s)

end Session

end ScriptScan
