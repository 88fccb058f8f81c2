-- SUMMARY: Filter directives: what they are about, and how they are read.
import ScriptScan.Log.Condition
import ScriptScan.Log.Record

/-! # Directives

A directive is a level, or a target with optional brackets and an optional level. The brackets hold the name of
a span and a field in braces, with the value that it is to have. Blanks around a directive are passed over when
its marks are found, but its parts are cut from the whole text at the places where the marks were found. Places
are counted in bytes. So a directive behind blanks, if it can be read at all, is about something with blanks in
its name, and it cannot be read if a place falls inside a character. -/

namespace ScriptScan.Log

/-- Reads a level: its number, or its name in letters of either case. -/
def Level.read? (text : List Char) : Option Level :=
  let digits := if text.head? = some '+' then text.drop 1 else text
  let levels := [Level.off, .error, .warn, .info, .debug, .trace]
  if !digits.isEmpty && digits.all Char.isDigit then
    levels.find? (·.rank == Nat.ofDigitChars 10 digits 0)
  else
    levels.find? (·.name == String.ofList (text.map Char.toLower))

/-- What a directive asks of a field. -/
structure Field where
  name : String
  value : Option (List Char)
  deriving DecidableEq

/-- Reads a field. What follows a second equals sign is of no account. -/
def Field.read? (text : List Char) : Option Field :=
  let name := text.takeWhile (· != '=')
  match text.dropWhile (· != '=') with
  | [] => if name.isEmpty then none else some ⟨String.ofList name, none⟩
  | _ :: others =>
    let value := others.takeWhile (· != '=')
    if Condition.isWellFormed value then some ⟨String.ofList name, some value⟩ else none

structure Directive where
  /-- How a target begins. -/
  target : List Char
  span : Option (List Char)
  field : Option Field
  level : Level
  deriving DecidableEq

namespace Directive

/-! ## Reading -/

/-- The length of a text in bytes. -/
def byteLength : List Char → Nat
  | [] => 0
  | c :: cs => c.utf8Size + byteLength cs

/-- Divides a text after so many bytes, if a character ends there. -/
def divide? (place : Nat) : List Char → Option (List Char × List Char)
  | [] => if place = 0 then some ([], []) else none
  | c :: cs =>
    if place = 0 then some ([], c :: cs)
    else if place < c.utf8Size then none
    else (divide? (place - c.utf8Size) cs).map fun (before, after) => (c :: before, after)

/-- The part of a text between two places. -/
def cut? (text : List Char) (start stop : Nat) : Option (List Char) := do
  let (_, rest) ← divide? start text
  let (part, _) ← divide? (stop - start) rest
  return part

/-- Reads the level of a directive from the place after its target and brackets on. Without one, or with an
empty one, everything is written. -/
def readLevel (text : List Char) (place : Nat) (d : Directive) : List Char → Option Directive
  | [] => some d
  | '=' :: _ => do
    let (_, level) ← divide? (place + 1) text
    if level.isEmpty then some d else (Level.read? level).map ({ d with level := · })
  | _ => none

/-- Reads brackets and what follows them. The text inside begins at `place`. -/
def readBrackets (text : List Char) (place : Nat) (target inside : List Char) : Option Directive := do
  let afterSpan := place + byteLength (inside.takeWhile fun c => c != ']' && c != '{')
  let span ← cut? text place afterSpan
  match inside.dropWhile fun c => c != ']' && c != '{' with
  | ']' :: rest => readLevel text (afterSpan + 1) ⟨target, some span, none, .trace⟩ rest
  | '{' :: inside =>
    let afterField := afterSpan + 1 + byteLength (inside.takeWhile (· != '}'))
    match inside.dropWhile (· != '}') with
    | '}' :: ']' :: rest => do
      let field ← Field.read? (← cut? text (afterSpan + 1) afterField)
      readLevel text (afterField + 2)
        ⟨target, if span.isEmpty then none else some span, some field, .trace⟩ rest
    | _ => none
  | _ => none

/-- A character that a target may begin with. -/
def startsTarget (c : Char) : Bool := c == '-' || c == ':' || c == '_' || Text.isAlphanumeric c

/-- Reads a directive. -/
def read? (text : List Char) : Option Directive :=
  match Text.trim text with
  | [] => none
  | '[' :: inside => readBrackets text 1 [] inside
  | c :: cs => do
    if !startsTarget c then failure
    let place := byteLength ((c :: cs).takeWhile fun c => c != '=' && c != '[')
    match (c :: cs).dropWhile fun c => c != '=' && c != '[' with
    | [] =>
      match Level.read? text with
      | some level => some ⟨[], none, none, level⟩
      | none => some ⟨text, none, none, .trace⟩
    | '[' :: inside => readBrackets text (place + 1) (← cut? text 0 place) inside
    | rest => readLevel text place ⟨← cut? text 0 place, none, none, .trace⟩ rest

/-! ## Meaning -/

/-- Whether a directive is about a record. Records belong to no span, and values are asked of spans only. -/
def covers (d : Directive) (r : Record) : Bool :=
  d.span.isNone && d.target.isPrefixOf r.target.toList &&
    match d.field with
    | none => true
    | some field => field.value.isNone && r.fieldNames.contains field.name

/-- The name of the field, empty if there is none. -/
def fieldName (d : Directive) : String := (d.field.map (·.name)).getD ""

/-- Whether a directive says at least as much about its records as another one: its target is longer, or is as
long and its field comes no earlier in the order of names. -/
def isAsSpecific (d other : Directive) : Bool :=
  if d.target.length = other.target.length then decide (other.fieldName ≤ d.fieldName)
  else other.target.length < d.target.length

end Directive

end ScriptScan.Log
