-- SUMMARY: The decimal with the fewest digits that rounds to a given binary64 magnitude.
import ScriptScan.Number.Decimal

/-! # Shortest decimals

Every finite magnitude has a finite decimal expansion. Dropping trailing digits of the expansion gives
coarser and coarser grids, and on each grid the two neighbours of the value are tried. The coarsest grid with
a neighbour that rounds to the same magnitude wins. Dropping no digit at all always succeeds, so the search
never comes back empty. -/

namespace ScriptScan.Binary64

/-- Which of two equally near decimals of the same length is taken. -/
inductive Tie where
  | up
  | toEven
  deriving DecidableEq

/-- How many digits an expansion has after the point. -/
def places (r : Nat) : Nat := 1074 - scale r

/-- The expansion of the finite rank `r` without its point: its value is `expansion r * 10 ^ -places r`. -/
def expansion (r : Nat) : Nat :=
  significand r * Nat.pow 2 (scale r - 1074) * Nat.pow 5 (places r)

/-- `count * 10 ^ -places r` rounds to rank `r`. -/
def readsBack (r count : Nat) : Bool := nearestRank count (Nat.pow 10 (places r)) == r

/-- Picks from two neighbours on the grid of `step`, the lower of them being `rest` below the value, the nearer
one that fits. -/
def Tie.pick (tie : Tie) (low rest step : Nat) (lowFits highFits : Bool) : Option Nat :=
  match lowFits, highFits with
  | false, false => none
  | true, false => some low
  | false, true => some (low + 1)
  | true, true =>
    let twice := 2 * rest
    if twice < step ∨ (twice = step ∧ tie = .toEven ∧ low % 2 = 0) then some low else some (low + 1)

/-- The neighbour of the expansion on the grid of `step` that rounds to rank `r`: of two, the nearer one. -/
def neighbour? (tie : Tie) (r step : Nat) : Option Nat :=
  let low := expansion r / step
  tie.pick low (expansion r % step) step (readsBack r (low * step)) (readsBack r ((low + 1) * step))

/-- Tries to drop `dropped` digits of the expansion, then one fewer, and so on. -/
def searchFrom (tie : Tie) (r : Nat) : Nat → Decimal
  | 0 => ⟨expansion r, -places r⟩
  | dropped + 1 =>
    let found := (neighbour? tie r (Nat.pow 10 (dropped + 1))).map fun c =>
      Decimal.mk c ((dropped + 1 : Nat) - (places r : Int))
    found.getD (searchFrom tie r dropped)

/-- The shortest decimal that rounds to the finite rank `r`. It may end in zeros. -/
def shortest (tie : Tie) (r : Nat) : Decimal :=
  searchFrom tie r ((Nat.toDigits 10 (expansion r)).length - 1)

end ScriptScan.Binary64

namespace ScriptScan.Decimal

/-- The same decimal without trailing zeros in its coefficient. -/
def trim (coefficient : Nat) (exponent : Int) : Decimal :=
  if h : 0 < coefficient ∧ coefficient % 10 = 0 then trim (coefficient / 10) (exponent + 1)
  else ⟨coefficient, exponent⟩
termination_by coefficient
decreasing_by exact Nat.div_lt_self h.1 (by decide)

end ScriptScan.Decimal
