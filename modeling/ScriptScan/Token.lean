-- SUMMARY: Token kinds, literals and tokens, with their two written forms.
import ScriptScan.Number.Format
import ScriptScan.Text.Json

/-! # Tokens

A token has a kind, the lexeme it was read from, a literal for strings and numbers, and the line on which
it was completed. It is written either for display, as three fields with blanks between them, or as one
JSON object. -/

namespace ScriptScan

/-! ## Kinds -/

inductive Kind where
  | leftParen | rightParen | leftBrace | rightBrace
  | comma | dot | minus | plus | semicolon | star | slash
  | bang | bangEqual | equal | equalEqual | less | lessEqual | greater | greaterEqual
  | string | number
  | endOfSource
  deriving DecidableEq

namespace Kind

/-- Every kind, in the order of the language's description. -/
def all : List Kind :=
  [.leftParen, .rightParen, .leftBrace, .rightBrace, .comma, .dot, .minus, .plus, .semicolon, .star, .slash,
    .bang, .bangEqual, .equal, .equalEqual, .less, .lessEqual, .greater, .greaterEqual,
    .string, .number, .endOfSource]

theorem mem_all (k : Kind) : k ∈ all := by
  cases k <;> decide

/-- The name under which a kind is written. -/
def name : Kind → String
  | .leftParen => "LEFT_PAREN"
  | .rightParen => "RIGHT_PAREN"
  | .leftBrace => "LEFT_BRACE"
  | .rightBrace => "RIGHT_BRACE"
  | .comma => "COMMA"
  | .dot => "DOT"
  | .minus => "MINUS"
  | .plus => "PLUS"
  | .semicolon => "SEMICOLON"
  | .star => "STAR"
  | .slash => "SLASH"
  | .bang => "BANG"
  | .bangEqual => "BANG_EQUAL"
  | .equal => "EQUAL"
  | .equalEqual => "EQUAL_EQUAL"
  | .less => "LESS"
  | .lessEqual => "LESS_EQUAL"
  | .greater => "GREATER"
  | .greaterEqual => "GREATER_EQUAL"
  | .string => "STRING"
  | .number => "NUMBER"
  | .endOfSource => "END"

/-- Tokens of this kind carry a literal. -/
def isLiteral : Kind → Bool
  | .string | .number => true
  | _ => false

/-- The one text of a punctuation mark or operator. The other kinds have none. -/
def symbol : Kind → List Char
  | .leftParen => ['(']
  | .rightParen => [')']
  | .leftBrace => ['{']
  | .rightBrace => ['}']
  | .comma => [',']
  | .dot => ['.']
  | .minus => ['-']
  | .plus => ['+']
  | .semicolon => [';']
  | .star => ['*']
  | .slash => ['\\']
  | .bang => ['!']
  | .bangEqual => ['!', '=']
  | .equal => ['=']
  | .equalEqual => ['=', '=']
  | .less => ['<']
  | .lessEqual => ['<', '=']
  | .greater => ['>']
  | .greaterEqual => ['>', '=']
  | .string | .number | .endOfSource => []

/-- Reads a kind's name. -/
def ofName? (text : String) : Option Kind := all.find? (·.name == text)

end Kind

/-! ## Literals -/

/-- What a token stands for. An empty text is a literal, and not the same as none. -/
inductive Literal where
  | none
  | text (value : String)
  | number (value : Binary64)
  deriving DecidableEq

namespace Literal

/-- For display a number is written positionally, with no point unless it has a fraction. -/
def displayFormat : NumberFormat where
  tie := .up
  positional _ := true
  keepsPoint := false
  nan := "NaN"
  infinity := "inf"
  negativeInfinity := "-inf"

/-- In JSON a number keeps its point, and has an exponent from `10 ^ 16` up and below `10 ^ -5`. What is not
finite becomes null. -/
def jsonFormat : NumberFormat where
  tie := .toEven
  positional leading := decide (-5 ≤ leading ∧ leading ≤ 15)
  keepsPoint := true
  nan := "null"
  infinity := "null"
  negativeInfinity := "null"

def isNone : Literal → Bool
  | .none => true
  | _ => false

def display : Literal → String
  | .none => "nil"
  | .text value => value
  | .number value => displayFormat.render value

def json : Literal → String
  | .none => "null"
  | .text value => Json.quote value
  | .number value => jsonFormat.render value

/-- Equality of literals, that of numbers being numerical. -/
def agrees : Literal → Literal → Bool
  | .none, .none => true
  | .text a, .text b => a == b
  | .number a, .number b => a.agrees b
  | _, _ => false

end Literal

/-! ## Tokens -/

structure Token where
  kind : Kind
  /-- The exact text of the token. -/
  lexeme : String
  literal : Literal
  /-- The line of the token's last character, counted from 1. -/
  line : Nat
  deriving DecidableEq

namespace Token

/-- The mark at the end of every scan. -/
def endAt (line : Nat) : Token := ⟨.endOfSource, "", .none, line⟩

def isEnd (t : Token) : Bool := t.kind == .endOfSource

/-- Kind, lexeme and literal, with a blank between each two. -/
def display (t : Token) : String :=
  t.kind.name ++ " " ++ t.lexeme ++ " " ++ t.literal.display

/-- The token as a JSON object on one line. -/
def json (t : Token) : String :=
  "\x7b\"kind\":" ++ Json.quote t.kind.name ++ ",\"lexeme\":" ++ Json.quote t.lexeme ++
    ",\"literal\":" ++ t.literal.json ++ ",\"line\":" ++ t.line.repr ++ "\x7d"

/-- Equality in all fields, that of numbers being numerical. -/
def agrees (t u : Token) : Bool :=
  t.kind == u.kind && t.lexeme == u.lexeme && t.literal.agrees u.literal && t.line == u.line

end Token

end ScriptScan
