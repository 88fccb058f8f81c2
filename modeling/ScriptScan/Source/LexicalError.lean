-- SUMMARY: What is wrong with a segment, and the diagnostic that says so.
import ScriptScan.Diagnostic

/-! # Lexical errors -/

namespace ScriptScan

inductive LexicalError where
  | unexpectedCharacter (c : Char)
  | unterminatedString
  | invalidNumber (lexeme : String)
  deriving DecidableEq

namespace LexicalError

def template : LexicalError → Template
  | .unexpectedCharacter _ => .unexpectedCharacter
  | .unterminatedString => .unterminatedString
  | .invalidNumber _ => .invalidNumber

/-- What fills the template. -/
def arguments : LexicalError → List String
  | .unexpectedCharacter c => [String.singleton c]
  | .unterminatedString => []
  | .invalidNumber lexeme => [lexeme]

/-- The diagnostic of an error on a line. -/
def diagnostic (e : LexicalError) (line : Nat) : Diagnostic :=
  .onLine line e.template e.arguments

end LexicalError

end ScriptScan
