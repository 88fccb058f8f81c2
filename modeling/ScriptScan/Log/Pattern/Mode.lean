-- SUMMARY: How a pattern is read, and what it may hold under each way.
import ScriptScan.Text.Blank

/-! # Modes

Flags say how the pattern after them is read. It is about characters or about bytes, letters may stand for both
of their cases, and blanks and comments may be passed over.

No tables of characters are at hand. So a pattern about characters cannot ask for digits, blanks and letters, or
for the bounds of words, and cannot join the two cases of a letter. A pattern about bytes can, since there only
ASCII counts; but what it matches has to be whole characters, so what stands for a single byte may not go beyond
ASCII. -/

namespace ScriptScan.Log.Pattern

structure Mode where
  /-- Letters stand for both of their cases. -/
  caseless : Bool
  /-- The pattern is about bytes, not about characters. -/
  bytes : Bool
  /-- Blanks and comments are passed over. -/
  spaced : Bool
  deriving DecidableEq

namespace Mode

/-- How a pattern without flags is read. -/
def plain : Mode := ⟨false, false, false⟩

/-- The mode after a flag. The other flags change nothing about what is well formed. -/
def set (m : Mode) (flag : Char) (on : Bool) : Mode :=
  match flag with
  | 'i' => { m with caseless := on }
  | 'u' => { m with bytes := !on }
  | 'x' => { m with spaced := on }
  | _ => m

/-! ## Blanks and comments -/

/-- What follows blanks and comments. A comment goes from a number sign to the end of its line. -/
def skip : (comment : Bool) → List Char → List Char
  | _, [] => []
  | true, c :: cs => skip (c != '\n') cs
  | false, c :: cs => if Text.isBlank c then skip false cs else if c = '#' then skip true cs else c :: cs

/-- What follows blanks and comments, if they are passed over. -/
def pass (m : Mode) (cs : List Char) : List Char := if m.spaced then skip false cs else cs

/-! ## What may be asked for -/

/-- A character may stand in a pattern; `code` says that it is given by the number of a byte. -/
def admitsCharacter (m : Mode) (c : Char) (code : Bool) : Bool :=
  if m.bytes then !code || c.toNat < 128 else !m.caseless

/-- A character may be an item of a class, or an end of a range. -/
def lists (m : Mode) (c : Char) : Bool := if m.bytes then c.toNat < 128 else !m.caseless

/-- A class may hold one that has a name, or all but it. -/
def listsNamed (m : Mode) (negated : Bool) : Bool := if m.bytes then !negated else !m.caseless

/-- There may be digits, blanks or letters, or all but them. -/
def admitsSet (m : Mode) (negated : Bool) : Bool := m.bytes && !negated

/-- There may be a class of all but its items. -/
def admitsNegation (m : Mode) : Bool := !m.bytes

/-- There may be a sign for any character. -/
def admitsAny (m : Mode) : Bool := !m.bytes

/-- There may be bounds of words. -/
def admitsBound (m : Mode) : Bool := m.bytes

end Mode

end ScriptScan.Log.Pattern
