-- SUMMARY: Failures that end a run, with their codes, messages and exit statuses.

/-! # Failures

Lexical errors are no failures: a run reports them and goes on. -/

namespace ScriptScan

/-- Why a run ended early. The cause is the text of the underlying fault. -/
inductive Failure where
  | script (path cause : String)
  | input (cause : String)
  | output (cause : String)
  | json (cause : String)
  deriving DecidableEq

namespace Failure

def code : Failure → String
  | .script .. => "xolog::read_script"
  | .input _ => "xolog::stdin"
  | .output _ => "xolog::output"
  | .json _ => "xolog::json"

def message : Failure → String
  | .script path cause => "could not read script '" ++ path ++ "': " ++ cause
  | .input cause => "failed to read from stdin: " ++ cause
  | .output cause => "failed to write output: " ++ cause
  | .json cause => "failed to serialize token: " ++ cause

/-- The exit status of a process that fails so. -/
def exitStatus : Failure → Nat
  | .script .. => 66
  | .input _ => 1
  | .output _ => 74
  | .json _ => 70

/-- The line that reports a failure, in color up to the message. -/
def reportLine (color : Bool) (f : Failure) : String :=
  if color then "\x1b[1m\x1b[31merror[" ++ f.code ++ "]\x1b[0m: " ++ f.message ++ "\n"
  else "error[" ++ f.code ++ "]: " ++ f.message ++ "\n"

end Failure

end ScriptScan
