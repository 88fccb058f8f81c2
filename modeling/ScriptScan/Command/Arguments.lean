-- SUMMARY: The command line: flags, script names, and what is wrong with a line that cannot be used.
import ScriptScan.Output.Terminal

/-! # Command lines

A line is read from left to right. Flags have a long name, and some a letter that may stand in a cluster;
everything else is the name of a script, as is every argument after `--`. Asking for help or the version
ends the reading, and so does the first misuse. Script names are looked at only when the next flag, or the
end, has been reached. -/

namespace ScriptScan.Command

/-! ## Flags -/

inductive Flag where
  | json
  | verbose
  | noColor
  | help
  | version
  deriving DecidableEq

namespace Flag

/-- The long name, with its dashes. -/
def name : Flag → String
  | .json => "--json"
  | .verbose => "--verbose"
  | .noColor => "--no-color"
  | .help => "--help"
  | .version => "--version"

def ofName? (name : String) : Option Flag :=
  [json, verbose, noColor, help, version].find? (·.name == name)

def ofLetter? : Char → Option Flag
  | 'v' => some .verbose
  | 'h' => some .help
  | 'V' => some .version
  | _ => none

end Flag

/-! ## Misuse -/

inductive Misuse where
  | unexpectedArgument (argument : String)
  | unexpectedValue (value : String) (flag : Flag)
  | repeated (flag : Flag)
  | emptyScript
  deriving DecidableEq

/-- An argument as a message shows it: set off by color, of which its own control sequences are no part, and then
without any control sequence. The reset at the end of the color breaks off what the argument has begun. -/
def shown (argument : String) : String := Terminal.plain (argument ++ "\x1b[0m")

def Misuse.message : Misuse → String
  | .unexpectedArgument argument => "error: unexpected argument '" ++ shown argument ++ "' found"
  | .unexpectedValue value flag =>
    "error: unexpected value '" ++ shown value ++ "' for '" ++ flag.name ++ "' found; no more were expected"
  | .repeated flag => "error: the argument '" ++ flag.name ++ "' cannot be used multiple times"
  | .emptyScript => "error: a value is required for '[SCRIPT]...' but none was supplied"

/-- What ends the reading before the end of the line. -/
inductive Halt where
  | help
  | version
  | misuse (m : Misuse)
  deriving DecidableEq

/-! ## Reading -/

/-- What a command line asks for. -/
structure Arguments where
  json : Bool
  verbose : Bool
  noColor : Bool
  scripts : List String
  deriving DecidableEq

namespace Arguments

def empty : Arguments := ⟨false, false, false, []⟩

/-- Refuses an empty script name. -/
def checkScripts (a : Arguments) : Except Halt Arguments :=
  if a.scripts.contains "" then .error (.misuse .emptyScript) else .ok a

/-- Sets a flag, which may be set only once. -/
def set (a : Arguments) (flag : Flag) : Except Halt Arguments := do
  let a ← a.checkScripts
  match flag with
  | .help => .error .help
  | .version => .error .version
  | .json => if a.json then .error (.misuse (.repeated flag)) else .ok { a with json := true }
  | .verbose => if a.verbose then .error (.misuse (.repeated flag)) else .ok { a with verbose := true }
  | .noColor => if a.noColor then .error (.misuse (.repeated flag)) else .ok { a with noColor := true }

/-- Reads the letters of a cluster. -/
def readCluster (a : Arguments) : List Char → Except Halt Arguments
  | [] => .ok a
  | c :: cs =>
    match Flag.ofLetter? c with
    | some flag => do (← a.set flag).readCluster cs
    | none => .error (.misuse (.unexpectedArgument (String.ofList ['-', c])))

/-- Reads a flag by its long name. None takes a value. -/
def readLong (a : Arguments) (argument : List Char) : Except Halt Arguments :=
  let name := String.ofList (argument.takeWhile (· != '='))
  match Flag.ofName? name, argument.dropWhile (· != '=') with
  | none, _ => .error (.misuse (.unexpectedArgument name))
  | some flag, [] => a.set flag
  | some flag, _ :: value => .error (.misuse (.unexpectedValue (String.ofList value) flag))

/-- Reads the arguments from left to right. -/
def readFrom (a : Arguments) : List String → Except Halt Arguments
  | [] => a.checkScripts
  | argument :: others =>
    match argument.toList with
    | ['-', '-'] => { a with scripts := a.scripts ++ others }.checkScripts
    | '-' :: '-' :: _ => do (← a.readLong argument.toList).readFrom others
    | '-' :: c :: cs => do (← a.readCluster (c :: cs)).readFrom others
    | _ => { a with scripts := a.scripts ++ [argument] }.readFrom others

/-- Reads a command line. -/
def read (line : List String) : Except Halt Arguments := empty.readFrom line

end Arguments

end ScriptScan.Command
