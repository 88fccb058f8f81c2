-- SUMMARY: Escapes in patterns, and what they stand for.
import ScriptScan.Log.Pattern.Mode

/-! # Atoms

An atom is a character, or an escape: a backslash and what belongs to it. Backward references and the classes
of characters by category are not understood. -/

namespace ScriptScan.Log.Pattern

/-- What a character or an escape stands for. -/
inductive Atom where
  /-- A character; `code` says that it is given by the number of a byte. -/
  | character (c : Char) (code : Bool)
  /-- Digits, blanks or letters, or all but them. -/
  | set (negated : Bool)
  /-- The beginning or the end. -/
  | position
  /-- A bound of a word, or all but the bounds. -/
  | bound
  deriving DecidableEq

namespace Atom

/-- An atom may stand in a pattern. -/
def isAdmitted (m : Mode) : Atom → Bool
  | character c code => m.admitsCharacter c code
  | set negated => m.admitsSet negated
  | position => true
  | bound => m.admitsBound

/-- An atom may be an item of a class. -/
def isListed (m : Mode) : Atom → Bool
  | character c _ => m.lists c
  | set negated => m.admitsSet negated
  | position | bound => false

/-! ## Reading -/

/-- The value of a hexadecimal digit. -/
def hexDigit? (c : Char) : Option Nat :=
  if c.isDigit then some (c.toNat - 48)
  else if 'a' ≤ c.toLower ∧ c.toLower ≤ 'f' then some (c.toLower.toNat - 87)
  else none

/-- Reads so many more hexadecimal digits of a number. What may be passed over may also stand before each of
them. -/
def readNumber (m : Mode) : (count : Nat) → (number : Nat) → List Char → Option (Nat × List Char)
  | 0, n, cs => some (n, cs)
  | count + 1, n, cs =>
    match m.pass cs with
    | [] => none
    | c :: cs => do readNumber m count (16 * n + (← hexDigit? c)) cs

/-- Reads a character by its number. -/
def readCode (m : Mode) (count : Nat) (cs : List Char) : Option (Atom × List Char) := do
  let (n, rest) ← readNumber m count 0 cs
  if n.isValidChar then some (character (Char.ofNat n) (count == 2), rest) else none

/-- The control characters that have a letter. -/
def control? : Char → Option Char
  | 'a' => some '\x07'
  | 'f' => some '\x0C'
  | 'n' => some '\n'
  | 'r' => some '\r'
  | 't' => some '\t'
  | 'v' => some '\x0B'
  | _ => none

/-- Reads what follows a backslash. -/
def readEscape (m : Mode) : List Char → Option (Atom × List Char)
  | [] => none
  | 'x' :: cs => readCode m 2 cs
  | 'u' :: cs => readCode m 4 cs
  | 'U' :: cs => readCode m 8 cs
  | c :: cs =>
    if ['d', 's', 'w'].contains c then some (set false, cs)
    else if ['D', 'S', 'W'].contains c then some (set true, cs)
    else if ['A', 'z'].contains c then some (position, cs)
    else if ['b', 'B', '<', '>'].contains c then some (bound, cs)
    else if c.toNat < 128 && !c.isAlphanum then some (character c false, cs)
    else (control? c).map fun c => (character c false, cs)

/-- Reads an atom. -/
def read (m : Mode) : List Char → Option (Atom × List Char)
  | [] => none
  | '\\' :: cs => readEscape m cs
  | c :: cs => some (character c false, cs)

end Atom

end ScriptScan.Log.Pattern
