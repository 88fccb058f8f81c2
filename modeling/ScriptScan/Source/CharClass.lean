-- SUMMARY: The part that a character plays at the start of a segment.
import ScriptScan.Token

/-! # Character classes

A character's class fixes which segments may start with it. Only ASCII characters have a class of their own;
every other character, the null character included, is unexpected outside strings and comments. -/

namespace ScriptScan

inductive CharClass where
  /-- A token by itself. -/
  | mark (kind : Kind)
  /-- A token by itself, and another one before an equals sign. -/
  | operator (alone beforeEquals : Kind)
  | backslash
  | blank
  | quote
  | digit
  | unexpected
  deriving DecidableEq

namespace CharClass

def ofChar (c : Char) : CharClass :=
  match c with
  | '(' => .mark .leftParen
  | ')' => .mark .rightParen
  | '{' => .mark .leftBrace
  | '}' => .mark .rightBrace
  | ',' => .mark .comma
  | '.' => .mark .dot
  | '-' => .mark .minus
  | '+' => .mark .plus
  | ';' => .mark .semicolon
  | '*' => .mark .star
  | '!' => .operator .bang .bangEqual
  | '=' => .operator .equal .equalEqual
  | '<' => .operator .less .lessEqual
  | '>' => .operator .greater .greaterEqual
  | '\\' => .backslash
  | ' ' | '\t' | '\r' | '\n' => .blank
  | '"' | '\'' => .quote
  | c => if c.isDigit then .digit else .unexpected

end CharClass

/-- Either quote. A string may end in another one than it starts with. -/
def isQuote (c : Char) : Bool := CharClass.ofChar c == .quote

end ScriptScan
