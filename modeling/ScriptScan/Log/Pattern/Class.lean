-- SUMMARY: Classes of characters in patterns.
import ScriptScan.Log.Pattern.Atom
import ScriptScan.Log.Pattern.Nesting

/-! # Classes

A class holds characters, ranges, and other classes, in brackets or by name. Two classes without brackets of
their own are joined by a double sign: what is in both, in the first alone, or in just one of them. Such signs
are read from left to right. -/

namespace ScriptScan.Log.Pattern.Class

/-! ## Items -/

def names : List String :=
  ["alnum", "alpha", "ascii", "blank", "cntrl", "digit", "graph", "lower", "print", "punct", "space", "upper",
    "word", "xdigit"]

/-- Reads a named class from the colon after its bracket on, and tells whether it is negated. -/
def readNamed? : List Char → Option (Bool × List Char)
  | ':' :: cs =>
    let negated := cs.head? == some '^'
    let cs := if negated then cs.drop 1 else cs
    match cs.dropWhile (· != ':') with
    | ':' :: ']' :: rest =>
      if names.contains (String.ofList (cs.takeWhile (· != ':'))) then some (negated, rest) else none
    | _ => none
  | _ => none

/-- The first character that counts after a hyphen. What may be passed over is, but one number sign is passed
over like a blank. -/
def ahead (m : Mode) (cs : List Char) : Option Char :=
  if m.spaced then
    match cs.dropWhile Text.isBlank with
    | '#' :: cs => (cs.dropWhile Text.isBlank).head?
    | cs => cs.head?
  else cs.head?

/-- Reads an item, which may be a range. A hyphen before another one, or before a closing bracket, stands for
itself. -/
def readItem (m : Mode) (cs : List Char) : Option (List Char) := do
  let (first, rest) ← Atom.read m cs
  let single := if first.isListed m then some rest else none
  match m.pass rest with
  | '-' :: rest =>
    if ahead m rest = some ']' ∨ ahead m rest = some '-' then single else
    match first, ← Atom.read m (m.pass rest) with
    | .character low _, (.character high _, rest) =>
      if low ≤ high && m.lists low && m.lists high then some rest else none
    | _, _ => none
  | _ => single

/-! ## Classes inside classes -/

/-- What is known of a class that is still open. -/
structure Frame where
  /-- The items since the last double sign. -/
  items : Row
  /-- The depth of what comes before it. -/
  left : Option Nat
  deriving DecidableEq

namespace Frame

def empty : Frame := ⟨.empty, none⟩

def push (f : Frame) (depth : Nat) : Frame := { f with items := f.items.push depth }

def depth (f : Frame) : Nat :=
  match f.left with
  | none => f.items.depth
  | some left => max left f.items.depth + 1

/-- A class after a double sign. -/
def operate (f : Frame) : Frame := ⟨.empty, some f.depth⟩

end Frame

/-- Passes over hyphens, which are items. -/
def readHyphens (m : Mode) : (fuel : Nat) → Frame → List Char → Frame × List Char
  | 0, f, cs => (f, cs)
  | fuel + 1, f, cs =>
    match m.pass cs with
    | '-' :: cs => readHyphens m fuel (f.push 0) cs
    | cs => (f, cs)

/-- Reads what follows an opening bracket: a sign of negation, then hyphens that stand for themselves, or else
a closing bracket that does. -/
def readOpening (m : Mode) (cs : List Char) : Option (Frame × List Char) := do
  let cs ← match m.pass cs with
    | '^' :: cs => if m.admitsNegation then some cs else none
    | cs => some cs
  match readHyphens m cs.length .empty cs with
  | (⟨⟨0, _⟩, _⟩, ']' :: cs) => if m.lists ']' then some (Frame.empty.push 0, cs) else none
  | (f, cs) => if f.items.count == 0 || m.lists '-' then some (f, cs) else none

/-- Reads up to the closing bracket of the outermost class, and tells the depth of that class. The classes that
are open are given, the innermost by itself. -/
def readClasses (m : Mode) : (fuel : Nat) → (outer : List Frame) → Frame → List Char → Option (Nat × List Char)
  | 0, _, _, _ => none
  | fuel + 1, outer, inner, cs =>
    match m.pass cs with
    | [] => none
    | '[' :: cs =>
      match readNamed? cs with
      | some (negated, cs) => if m.listsNamed negated then readClasses m fuel outer (inner.push 0) cs else none
      | none => do
        let (frame, cs) ← readOpening m cs
        readClasses m fuel (inner :: outer) frame cs
    | ']' :: cs =>
      match outer with
      | [] => some (inner.depth + 1, cs)
      | frame :: outer => readClasses m fuel outer (frame.push (inner.depth + 1)) cs
    | '&' :: '&' :: cs | '-' :: '-' :: cs | '~' :: '~' :: cs => readClasses m fuel outer inner.operate cs
    | cs => do readClasses m fuel outer (inner.push 0) (← readItem m cs)

/-- Reads a class from after its opening bracket on, and tells its depth. -/
def read (m : Mode) (cs : List Char) : Option (Nat × List Char) := do
  let (frame, cs) ← readOpening m cs
  readClasses m (cs.length + 1) [] frame cs

end ScriptScan.Log.Pattern.Class
