-- SUMMARY: Which patterns for the value of a field are well formed.
import ScriptScan.Log.Pattern.Class
import ScriptScan.Log.Pattern.Group

/-! # Patterns

A pattern is a regular expression: groups, alternatives, classes, escapes and repetitions. Only its form is
checked here. A brace would have to be closed to count a repetition, and no brace can be closed inside a
pattern, so an opening one is always a fault. -/

namespace ScriptScan.Log.Pattern

/-- What is known inside a group that is still open. -/
structure Context where
  /-- How the rest of the group is read. -/
  mode : Mode
  /-- The alternatives that are finished. -/
  alternatives : Row
  /-- The items of the alternative that is not. -/
  items : Row
  /-- The depth of what comes directly before, if it can be repeated. -/
  last : Option Nat
  deriving DecidableEq

namespace Context

/-- A context in which nothing has been read. -/
def start (mode : Mode) : Context := ⟨mode, .empty, .empty, none⟩

def push (c : Context) (depth : Nat) : Context :=
  { c with items := c.items.push depth, last := some depth }

/-- Repeats what comes directly before. -/
def repeated? (c : Context) : Option Context :=
  c.last.map fun depth => { c with items := c.items.deepen (depth + 1), last := some (depth + 1) }

/-- Flags count as an item, but cannot be repeated. -/
def pushFlags (c : Context) (mode : Mode) : Context :=
  { c with mode, items := c.items.push 0, last := none }

/-- Finishes an alternative. -/
def alternate (c : Context) : Context :=
  { c with alternatives := c.alternatives.push c.items.depth, items := .empty, last := none }

/-- The depth of what has been read. -/
def depth (c : Context) : Nat := c.alternate.alternatives.depth

end Context

/-- Reads one sign of a pattern and what belongs to it, or one atom. Brackets of groups are not read here. -/
def readPiece (c : Context) : List Char → Option (Context × List Char)
  | '|' :: cs => some (c.alternate, cs)
  | '?' :: cs | '*' :: cs | '+' :: cs => do
    let c ← c.repeated?
    return (c, if cs.head? = some '?' then cs.drop 1 else cs)
  | '{' :: _ => none
  | '[' :: cs => do
    let (depth, cs) ← Class.read c.mode cs
    return (c.push depth, cs)
  | '.' :: cs => if c.mode.admitsAny then some (c.push 0, cs) else none
  | '^' :: cs | '$' :: cs => some (c.push 0, cs)
  | cs => do
    let (atom, cs) ← Atom.read c.mode cs
    if atom.isAdmitted c.mode then some (c.push 0, cs) else none

/-- Checks a pattern from somewhere on, in the contexts of the groups that are open, the innermost by itself. No
two groups have one name. -/
def check : (fuel : Nat) → (names : List (List Char)) → (outer : List Context) → Context → List Char → Bool
  | 0, _, _, _, _ => false
  | fuel + 1, names, outer, inner, cs =>
    match inner.mode.pass cs with
    | [] => outer.isEmpty && inner.depth ≤ depthLimit
    | '(' :: cs =>
      match Group.readOpening inner.mode cs with
      | none => false
      | some (.flags mode, cs) => check fuel names outer (inner.pushFlags mode) cs
      | some (.group mode none, cs) => check fuel names (inner :: outer) (.start mode) cs
      | some (.group mode (some name), cs) =>
        !names.contains name && check fuel (name :: names) (inner :: outer) (.start mode) cs
    | ')' :: cs =>
      match outer with
      | [] => false
      | c :: outer => check fuel names outer (c.push (inner.depth + 1)) cs
    | cs =>
      match readPiece inner cs with
      | none => false
      | some (inner, cs) => check fuel names outer inner cs

/-- The form of a pattern is right. -/
def isWellFormed (pattern : List Char) : Bool :=
  check (pattern.length + 1) [] [] (.start .plain) pattern

end ScriptScan.Log.Pattern
