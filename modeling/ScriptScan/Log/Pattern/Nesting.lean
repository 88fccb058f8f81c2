-- SUMMARY: How deep a pattern is nested.

/-! # Nesting

The depth of a pattern is counted in the parts that have parts: groups, repetitions, classes, and rows. A row is
a sequence of items, a choice between alternatives, or the items of a class; a row of one item is that item. -/

namespace ScriptScan.Log.Pattern

/-- The depths of the items of a row. -/
structure Row where
  count : Nat
  deepest : Nat
  deriving DecidableEq

namespace Row

def empty : Row := ⟨0, 0⟩

/-- A row with one more item, of the given depth. -/
def push (r : Row) (depth : Nat) : Row := ⟨r.count + 1, max r.deepest depth⟩

/-- A row whose last item has become deeper. -/
def deepen (r : Row) (depth : Nat) : Row := { r with deepest := max r.deepest depth }

def depth (r : Row) : Nat := if r.count ≤ 1 then r.deepest else r.deepest + 1

end Row

/-- The greatest depth of a pattern. -/
def depthLimit : Nat := 250

end ScriptScan.Log.Pattern
