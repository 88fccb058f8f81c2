-- SUMMARY: Runs of the program: what a command line makes it do, and what it leaves behind.
import ScriptScan.Command.Arguments
import ScriptScan.Command.FileTree
import ScriptScan.Command.Transcript
import ScriptScan.Prompt

/-! # Runs

A command line is first read into a plan. A script is read whole, scanned, and its tokens listed; without a
script a prompt session runs over the input. A failure is the last thing to be reported. -/

namespace ScriptScan.Command

/-! ## Plans -/

/-- What a command line makes the program do. -/
inductive Plan where
  /-- Prints a text, and nothing else. -/
  | print (text : String)
  | reject (m : Misuse)
  /-- Reminds of the usage when there is more than one script. -/
  | remind
  | script (path : String) (a : Arguments)
  | prompt (a : Arguments)
  deriving DecidableEq

def helpText : String :=
  "Xolog - scan scripts into tokens\n\n" ++
  "Usage: xolog [OPTIONS] [SCRIPT]...\n\n" ++
  "Arguments:\n" ++
  "  [SCRIPT]...  Script to scan. Starts the interactive prompt when omitted\n\n" ++
  "Options:\n" ++
  "      --json      Print tokens as JSON, one object per line\n" ++
  "  -v, --verbose   Enable debug logging\n" ++
  "      --no-color  Disable colored error output\n" ++
  "  -h, --help      Print help\n" ++
  "  -V, --version   Print version\n"

def versionText : String := "xolog 0.1.0\n"

def usageText : String := "Usage: xolog [script]\n"

/-- The plan for a command line. -/
def Plan.ofLine (line : List String) : Plan :=
  match Arguments.read line with
  | .error .help => .print helpText
  | .error .version => .print versionText
  | .error (.misuse m) => .reject m
  | .ok a =>
    match a.scripts with
    | [] => .prompt a
    | [path] => .script path a
    | _ :: _ :: _ => .remind

/-! ## Outcomes -/

/-- What a run leaves behind. -/
structure Outcome where
  exitStatus : Nat
  out : Sink
  err : Transcript

namespace Outcome

def misused : Nat := 2

def tooManyScripts : Nat := 64

def scriptErred : Nat := 65

/-- A run that fails reports its failure. -/
def ofFailure (color : Bool) (out : Sink) (err : Transcript) (f : Failure) : Outcome :=
  ⟨f.exitStatus, out, err.write (f.reportLine color)⟩

end Outcome

/-- Scans a script of the given content. -/
def runScript (look : Look) (path : String) (content : Except ReadFault (List UInt8)) (out : Sink)
    (err : Transcript) : Outcome :=
  let err := err.log (.runningScript path)
  match content with
  | .error fault => .ofFailure look.color out err (.script path fault.message)
  | .ok bytes =>
    match Utf8.decode? bytes with
    | none => .ofFailure look.color out err (.script path invalidText)
    | some source =>
      let listing := listSource look.json source out (Console.on err look.color)
      let (console, fault) := listing.reporter.takeFault
      match listing.result, fault with
      | .error failure, _ => .ofFailure look.color listing.out console.stream failure
      | .ok _, some fault => .ofFailure look.color listing.out console.stream (.output fault.message)
      | .ok erred, none =>
        ⟨if erred then Outcome.scriptErred else 0, listing.out, console.stream⟩

/-- Runs a prompt session over an input. -/
def runSession (look : Look) (input : List UInt8) (out : Sink) (err : Transcript) : Outcome :=
  match (Session.converse look input).runOn ⟨out, err⟩ with
  | (none, s) => ⟨0, s.out, s.err⟩
  | (some failure, s) => .ofFailure look.color s.out s.err failure

/-! ## Runs -/

/-- What surrounds a run. -/
structure Surroundings where
  files : FileTree
  input : List UInt8
  /-- The setting of the log filter, if there is one. -/
  logSetting : Option String
  /-- Whether the error output is a terminal. -/
  terminal : Bool
  out : Sink

namespace Surroundings

/-- Reports are colored on a terminal unless the command line forbids it. -/
def look (s : Surroundings) (a : Arguments) : Look := ⟨a.json, s.terminal && !a.noColor⟩

def transcript (s : Surroundings) (a : Arguments) : Transcript :=
  .empty (Log.Filter.ofSetting s.logSetting a.verbose)

end Surroundings

/-- Carries out a plan. -/
def Plan.run (plan : Plan) (s : Surroundings) : Outcome :=
  match plan with
  | .print text => ⟨0, (s.out.write text).1, .empty []⟩
  | .reject m => ⟨Outcome.misused, s.out, (Transcript.empty []).write (m.message ++ "\n")⟩
  | .remind => ⟨Outcome.tooManyScripts, (s.out.write usageText).1, .empty []⟩
  | .script path a => runScript (s.look a) path ((s.files.onSystem s.input).read path) s.out (s.transcript a)
  | .prompt a => runSession (s.look a) s.input s.out (s.transcript a)

/-- A whole run of the program. -/
def run (line : List String) (s : Surroundings) : Outcome := (Plan.ofLine line).run s

end ScriptScan.Command
