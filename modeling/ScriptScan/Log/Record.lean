-- SUMMARY: Log records: what they tell, their level and target, and their written form.

/-! # Log records

Four things are worth a record: a lexical error, the end of a scan, a script about to be read, and a line of
the prompt that has been scanned. A record is written as its level, its target, its message and then its
fields, each with a name. -/

namespace ScriptScan.Log

/-- How much is told, from nothing to everything. -/
inductive Level where
  | off
  | error
  | warn
  | info
  | debug
  | trace
  deriving DecidableEq

namespace Level

def rank : Level → Nat
  | .off => 0
  | .error => 1
  | .warn => 2
  | .info => 3
  | .debug => 4
  | .trace => 5

/-- The name in a filter. -/
def name : Level → String
  | .off => "off"
  | .error => "error"
  | .warn => "warn"
  | .info => "info"
  | .debug => "debug"
  | .trace => "trace"

/-- The name in a record, five characters wide. -/
def label : Level → String
  | .off => "  OFF"
  | .error => "ERROR"
  | .warn => " WARN"
  | .info => " INFO"
  | .debug => "DEBUG"
  | .trace => "TRACE"

end Level

inductive Record where
  | lexicalError (message : String) (line : Nat) (lexeme : String) (code : Nat)
  | scanFinished (tokens lines : Nat) (erred : Bool)
  | runningScript (path : String)
  | scannedLine (erred : Bool)
  deriving DecidableEq

/-- The value of a field. -/
inductive Value where
  | nat (n : Nat)
  | flag (b : Bool)
  | text (s : String)
  deriving DecidableEq

def Value.render : Value → String
  | .nat n => n.repr
  | .flag b => if b then "true" else "false"
  | .text s => s

namespace Record

def level : Record → Level
  | .scanFinished .. => .trace
  | _ => .debug

/-- The part of the program that a record comes from. -/
def target : Record → String
  | .lexicalError .. | .scanFinished .. => "xolog_scanner::scanner"
  | .runningScript _ | .scannedLine _ => "xolog"

def message : Record → String
  | .lexicalError message .. => "lexer error: " ++ message
  | .scanFinished .. => "scan finished"
  | .runningScript _ => "running script"
  | .scannedLine _ => "scanned prompt line"

def fields : Record → List (String × Value)
  | .lexicalError _ line lexeme code =>
    [("line", .nat line), ("lexeme", .text lexeme), ("code", .nat code)]
  | .scanFinished tokens lines erred =>
    [("tokens", .nat tokens), ("lines", .nat lines), ("had_error", .flag erred)]
  | .runningScript path => [("path", .text path)]
  | .scannedLine erred => [("had_error", .flag erred)]

/-- The names of all fields. The message is one of them. -/
def fieldNames (r : Record) : List String := "message" :: r.fields.map (·.1)

/-! ## Written records -/

/-- A character of a message. Those that could begin or end a sequence of terminal control are escaped. -/
def escape (c : Char) : List Char :=
  match c with
  | '\x07' => ['\\', 'x', '0', '7']
  | '\x08' => ['\\', 'x', '0', '8']
  | '\x0c' => ['\\', 'x', '0', 'c']
  | '\x1b' => ['\\', 'x', '1', 'b']
  | '\x7f' => ['\\', 'x', '7', 'f']
  | c =>
    if 0x80 ≤ c.toNat ∧ c.toNat < 0xA0 then '\\' :: 'u' :: '{' :: (Nat.toDigits 16 c.toNat ++ ['}'])
    else [c]

/-- The record on a line of its own, after a time stamp. The texts of fields are written as they are. -/
def line (stamp : String) (r : Record) : String :=
  let message := String.ofList (r.message.toList.flatMap escape)
  let fields := r.fields.map fun (name, value) => " " ++ name ++ "=" ++ value.render
  stamp ++ " " ++ r.level.label ++ " " ++ r.target ++ ": " ++ message ++ String.join fields ++ "\n"

end Record

end ScriptScan.Log
