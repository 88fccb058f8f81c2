-- SUMMARY: Diagnostics, the message templates they are made from, and their written forms.

/-! # Diagnostics

A template has numbered holes, written as a number between braces. Filling it replaces the holes one number
at a time in the text as it then stands, so that a hole inside an argument is filled by the arguments after
it. A diagnostic is a filled template, or a plain report, with the line it is about. -/

namespace ScriptScan

/-! ## Templates -/

/-- How much a diagnostic weighs. -/
inductive Category where
  | warning
  | error
  deriving DecidableEq

def Category.label : Category → String
  | .warning => "Warning"
  | .error => "Error"

/-- A numbered hole, as it stands in a template. -/
def hole (i : Nat) : List Char := '{' :: (Nat.toDigits 10 i ++ ['}'])

/-- Replaces each occurrence of `mark`, from left to right and without overlap. -/
def replaceAll (mark value : List Char) : List Char → List Char
  | [] => []
  | c :: cs =>
    if mark.isPrefixOf (c :: cs) then value ++ replaceAll mark value (cs.drop (mark.length - 1))
    else c :: replaceAll mark value cs
termination_by text => text.length
decreasing_by
  · simp only [List.length_drop, List.length_cons]
    omega
  · simp

/-- Fills the holes numbered from `i` on with the arguments, one after the other. -/
def fillFrom (i : Nat) (text : List Char) : List (List Char) → List Char
  | [] => text
  | a :: as => fillFrom (i + 1) (replaceAll (hole i) a text) as

/-- Fills the holes of a text. -/
def fill (text : String) (args : List String) : String :=
  String.ofList (fillFrom 0 text.toList (args.map String.toList))

/-- A message with holes, its code and its category. -/
structure Template where
  code : Nat
  category : Category
  text : String

namespace Template

def unexpectedCharacter : Template := ⟨1001, .error, "Unexpected character: \x7b0\x7d"⟩

def unterminatedString : Template := ⟨1002, .error, "Unterminated string."⟩

def invalidNumber : Template := ⟨1003, .error, "Invalid number literal: \x7b0\x7d"⟩

end Template

/-! ## Diagnostics -/

structure Diagnostic where
  /-- The line it is about, counted from 1. -/
  line : Option Nat
  /-- Where on the line, in words. Empty for lexical errors. -/
  location : String
  message : String
  /-- The code of the template, 0 for a plain report. -/
  code : Nat
  category : Category
  deriving DecidableEq

namespace Diagnostic

/-- A filled template, about no line. -/
def ofTemplate (t : Template) (args : List String) : Diagnostic :=
  ⟨.none, "", fill t.text args, t.code, t.category⟩

/-- A filled template, about a line. -/
def onLine (line : Nat) (t : Template) (args : List String) : Diagnostic :=
  { ofTemplate t args with line := some line }

/-- A plain report is an error without a code. -/
def ofReport (line : Nat) (location message : String) : Diagnostic :=
  ⟨some line, location, message, 0, .error⟩

def isError (d : Diagnostic) : Bool := d.category == .error

/-- One line of text, without its line feed. -/
def display (d : Diagnostic) : String :=
  let place := match d.line with
    | some n => "[line " ++ n.repr ++ "] "
    | none => ""
  let location := if d.location.isEmpty then "" else " " ++ d.location
  place ++ d.category.label ++ location ++ ": " ++ d.message

/-- The same line for a terminal, bold and red up to the label. -/
def colored (d : Diagnostic) : String :=
  let bold := "\x1b[1m"
  let red := "\x1b[31m"
  let reset := "\x1b[0m"
  let place := match d.line with
    | some n => "[line " ++ n.repr ++ "] "
    | none => ""
  let location := if d.location.isEmpty then "" else " " ++ d.location
  bold ++ red ++ place ++ d.category.label ++ reset ++ location ++ ": " ++ d.message

/-- The line that a report in the given look takes, with its line feed. -/
def reportLine (color : Bool) (d : Diagnostic) : String :=
  (if color then d.colored else d.display) ++ "\n"

end Diagnostic

end ScriptScan
