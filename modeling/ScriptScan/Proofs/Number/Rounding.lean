-- SUMMARY: Rounding depends on the value of a ratio alone, and a magnitude rounds to itself.
import ScriptScan.Number.Rounding

/-! # Rounding ratios -/

namespace ScriptScan

/-- Powers of two, in the spelling of the definitions. -/
theorem two_pow_pos (k : Nat) : 0 < Nat.pow 2 k := Nat.two_pow_pos k

theorem roundDiv_mul_right (num den : Nat) {m : Nat} (hm : 0 < m) :
    roundDiv (num * m) (den * m) = roundDiv num den := by
  have htwice : 2 * (num % den * m) = 2 * (num % den) * m := (Nat.mul_assoc ..).symm
  simp only [roundDiv, Nat.mul_div_mul_right num den hm, Nat.mul_mod_mul_right, htwice,
    Nat.mul_lt_mul_right hm, Nat.mul_left_inj (Nat.ne_of_gt hm)]

theorem roundDiv_mul_self (n : Nat) {den : Nat} (hden : 0 < den) : roundDiv (n * den) den = n := by
  simp [roundDiv, Nat.mul_div_cancel n hden, Nat.mul_mod_left, hden]

namespace Binary64

/-! ## Ratios -/

theorem nearestRank_mul_right (num den : Nat) {m : Nat} (hm : 0 < m) :
    nearestRank (num * m) (den * m) = nearestRank num den := by
  have hwhole : num * m * unitsOfOne = num * unitsOfOne * m := Nat.mul_right_comm ..
  have hscaled (k : Nat) : den * m * k = den * k * m := Nat.mul_right_comm ..
  simp only [nearestRank, hwhole, Nat.mul_div_mul_right _ den hm, hscaled, roundDiv_mul_right _ _ hm]

/-- Equal ratios have the same nearest rank. -/
theorem nearestRank_congr {a b c d : Nat} (hb : 0 < b) (hd : 0 < d) (h : a * d = c * b) :
    nearestRank a b = nearestRank c d := by
  rw [← nearestRank_mul_right a b hd, h, Nat.mul_comm b d, nearestRank_mul_right c d hb]

/-! ## Magnitudes -/

theorem fractions_pos : 0 < fractions := by decide

/-- The significand of a rank that is not subnormal has its leading digit. -/
theorem significand_bounds (r : Nat) :
    scale r * fractions + significand r = r ∧ significand r < 2 * fractions ∧
      (scale r ≠ 0 → fractions ≤ significand r) := by
  have hdiv := Nat.div_add_mod r fractions
  have hmod := Nat.mod_lt r fractions_pos
  rw [significand, scale]
  rcases Nat.eq_zero_or_pos (r / fractions) with hzero | hpos
  · rw [hzero, Nat.mul_zero, Nat.zero_add] at hdiv
    rw [hzero]
    omega
  · obtain ⟨q, hq⟩ := Nat.exists_eq_succ_of_ne_zero (Nat.ne_of_gt hpos)
    rw [hq, Nat.succ_eq_add_one, Nat.mul_add, Nat.mul_one, Nat.mul_comm fractions q] at hdiv
    rw [hq, Nat.succ_eq_add_one, Nat.add_sub_cancel]
    omega

theorem units_pos {r : Nat} (h : 0 < r) : 0 < units r := by
  obtain ⟨hsum, -, hlead⟩ := significand_bounds r
  have hsignificand : 0 < significand r := by
    by_cases hscale : scale r = 0
    · rw [hscale, Nat.zero_mul, Nat.zero_add] at hsum
      omega
    · exact Nat.lt_of_lt_of_le fractions_pos (hlead hscale)
  exact Nat.mul_pos hsignificand (two_pow_pos _)

/-- The scale of a magnitude is read off the binary length of its units. -/
theorem log2_units (r : Nat) : (units r).log2 - 52 = scale r := by
  obtain ⟨-, hless, hlead⟩ := significand_bounds r
  by_cases hscale : scale r = 0
  · have hunits : units r < 2 ^ 53 := by
      rw [units, hscale]
      simpa [fractions] using hless
    rw [hscale, Nat.sub_eq_zero_iff_le]
    by_cases hzero : units r = 0
    · simp [hzero]
    · exact Nat.le_of_lt_succ ((Nat.log2_lt hzero).mpr hunits)
  · have hlow : 2 ^ (52 + scale r) ≤ units r := by
      rw [Nat.pow_add]
      exact Nat.mul_le_mul_right _ (hlead hscale)
    have hhigh : units r < 2 ^ (52 + scale r + 1) := by
      rw [Nat.add_right_comm, Nat.pow_add]
      exact Nat.mul_lt_mul_of_pos_right hless (two_pow_pos _)
    have hne : units r ≠ 0 := Nat.ne_of_gt (Nat.lt_of_lt_of_le (Nat.two_pow_pos _) hlow)
    rw [(Nat.log2_eq_iff hne).mpr ⟨hlow, hhigh⟩, Nat.add_sub_cancel_left]

theorem roundDiv_units (r : Nat) {den : Nat} (hden : 0 < den) :
    roundDiv (units r * den) (den * Nat.pow 2 (scale r)) = significand r := by
  rw [units, Nat.mul_assoc, Nat.mul_comm (Nat.pow 2 (scale r))]
  exact roundDiv_mul_self _ (Nat.mul_pos hden (two_pow_pos _))

theorem unitsOfOne_pos : 0 < unitsOfOne := two_pow_pos 1074

/-- A finite magnitude is the nearest one to itself. -/
theorem nearestRank_units {r : Nat} (h : r < infiniteRank) : nearestRank (units r) unitsOfOne = r := by
  have hwhole := Nat.mul_div_cancel (units r) unitsOfOne_pos
  have hround := roundDiv_units r unitsOfOne_pos
  simp only [nearestRank, hwhole, log2_units, hround, (significand_bounds r).1, Nat.min_eq_right (Nat.le_of_lt h)]

theorem nearestRank_zero {den : Nat} (h : 0 < den) : nearestRank 0 den = 0 := by
  have hratio : 0 * unitsOfOne = units 0 * den := by simp [units, significand]
  rw [nearestRank_congr h unitsOfOne_pos hratio, nearestRank_units (by decide)]

end Binary64

end ScriptScan
