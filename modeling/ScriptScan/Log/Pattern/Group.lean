-- SUMMARY: How groups in patterns begin: names and flags.
import ScriptScan.Log.Pattern.Mode
import ScriptScan.Text.Numeric

/-! # Groups

A bracket opens a group, which may have a name or flags of its own, or gives flags for the rest of the group that
it stands in. Assertions about what lies around are not understood. -/

namespace ScriptScan.Log.Pattern.Group

/-- What an opening bracket starts. -/
inductive Opening where
  /-- A group. -/
  | group (mode : Mode) (name : Option (List Char))
  /-- Flags for the rest of the group around. -/
  | flags (mode : Mode)
  deriving DecidableEq

/-- Reads flags up to a colon or a closing bracket, which is left. A flag is given once, and those after a
hyphen are taken back. -/
def readFlags (mode : Mode) (seen : List Char) : List Char → Option (Mode × List Char)
  | [] => none
  | c :: cs =>
    if c = ':' then if seen.head? = some '-' then none else some (mode, c :: cs)
    else if c = ')' then if seen.isEmpty || seen.head? = some '-' then none else some (mode, c :: cs)
    else if !seen.contains c && ['-', 'i', 'm', 's', 'U', 'u', 'x', 'R'].contains c then
      readFlags (mode.set c (!seen.contains '-')) (c :: seen) cs
    else none

/-- The name of a group. -/
def isName : List Char → Bool
  | [] => false
  | c :: cs =>
    (c == '_' || Text.isAlphabetic c) && cs.all fun c => Text.isAlphanumeric c || ['_', '.', '[', ']'].contains c

/-- Reads the name of a group and what closes it. -/
def readName (mode : Mode) (cs : List Char) : Option (Opening × List Char) :=
  let name := cs.takeWhile (· != '>')
  match cs.dropWhile (· != '>') with
  | _ :: rest => if isName name then some (.group mode (some name), rest) else none
  | [] => none

/-- Reads what follows an opening bracket. -/
def readOpening (mode : Mode) (cs : List Char) : Option (Opening × List Char) :=
  match mode.pass cs with
  | '?' :: '=' :: _ | '?' :: '!' :: _ | '?' :: '<' :: '=' :: _ | '?' :: '<' :: '!' :: _ => none
  | '?' :: 'P' :: '<' :: cs | '?' :: '<' :: cs => readName mode cs
  | '?' :: cs => do
    match ← readFlags mode [] cs with
    | (mode, ':' :: rest) => some (.group mode none, rest)
    | (mode, rest) => some (.flags mode, rest.drop 1)
  | cs => some (.group mode none, cs)

end ScriptScan.Log.Pattern.Group
