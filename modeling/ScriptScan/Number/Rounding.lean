-- SUMMARY: The binary64 magnitude nearest to a ratio of natural numbers.
import ScriptScan.Number.Binary64

/-! # Rounding to nearest

A ratio is rounded once, exactly: to the nearest magnitude, a half to the even significand. Past the
largest finite magnitude by half a step it becomes infinity, below half the least one it becomes zero. -/

namespace ScriptScan

/-- The natural number nearest to `num / den`, a half going to the even one. -/
def roundDiv (num den : Nat) : Nat :=
  let quotient := num / den
  let twice := 2 * (num % den)
  if twice < den ∨ (twice = den ∧ quotient % 2 = 0) then quotient else quotient + 1

/-- The remainder decides between the quotient and its successor. -/
theorem roundDiv_eq_or (num den : Nat) :
    roundDiv num den = num / den ∨ roundDiv num den = num / den + 1 := by
  simp only [roundDiv]
  split <;> simp

namespace Binary64

/-- The rank nearest to `num / den`. A significand of 53 digits is kept, or fewer at the lower end of the
format. If the rounded significand overflows, the sum carries into the next scale. -/
def nearestRank (num den : Nat) : Nat :=
  let whole := num * unitsOfOne
  let scale := (whole / den).log2 - 52
  min infiniteRank (scale * fractions + roundDiv whole (den * Nat.pow 2 scale))

theorem nearestRank_le (num den : Nat) : nearestRank num den ≤ infiniteRank :=
  Nat.min_le_left ..

/-- The word nearest to `num / den`. -/
def nearest (num den : Nat) : Binary64 := ofRank (nearestRank num den)

theorem rank_nearest (num den : Nat) : (nearest num den).rank = nearestRank num den :=
  rank_ofRank (Nat.lt_of_le_of_lt (nearestRank_le num den) (by decide))

end Binary64

end ScriptScan
