-- SUMMARY: Dividing the bytes of an input into lines.
import ScriptScan.Text.Pieces

/-! # Lines

A line ends at a line feed, and a carriage return directly before it belongs to the ending. What follows the
last line feed is a line if it is not empty, and keeps a carriage return. -/

namespace ScriptScan

def lineFeed : UInt8 := 10

def carriageReturn : UInt8 := 13

/-- A line without the carriage return at its end. -/
def chomp (line : List UInt8) : List UInt8 :=
  if line.getLast? = some carriageReturn then line.dropLast else line

/-- The lines among the pieces between line feeds. -/
def linesOfPieces : List (List UInt8) → List (List UInt8)
  | [] => []
  | [last] => if last.isEmpty then [] else [last]
  | line :: next :: others => chomp line :: linesOfPieces (next :: others)

/-- The lines of an input. -/
def lines (input : List UInt8) : List (List UInt8) := linesOfPieces (pieces lineFeed input)

end ScriptScan
