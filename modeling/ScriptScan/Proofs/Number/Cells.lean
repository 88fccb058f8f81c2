-- SUMMARY: Rounding goes to the nearest binary64 word, and from the middle of two to the even one.
import Mathlib.Algebra.Order.Field.Rat
import Mathlib.Data.Rat.Cast.Order
import Mathlib.Order.Monotone.Basic
import Mathlib.Tactic.Linarith
import Mathlib.Tactic.Positivity
import Mathlib.Tactic.Ring
import ScriptScan.Proofs.Number.Shortest

/-!
# Nearest words

The ranks divide the numbers into cells. That of a rank reaches from the middle between it and the rank below to the
middle between it and the rank above, and holds its ends if the rank is even. A ratio is rounded to the rank in
whose cell it lies, and that is what rounding to nearest asks for, with ties to even.
-/

namespace ScriptScan

/-! ## Quotients -/

/-- The rounded quotient is at most half from the exact one, and half only if it is even. -/
theorem roundDiv_near (num : Nat) {den : Nat} (hden : 0 < den) :
    (2 * num < den * (2 * roundDiv num den + 1) ∨
        2 * num = den * (2 * roundDiv num den + 1) ∧ roundDiv num den % 2 = 0) ∧
      (den * (2 * roundDiv num den) < 2 * num + den ∨
        den * (2 * roundDiv num den) = 2 * num + den ∧ roundDiv num den % 2 = 0) := by
  have hdiv := Nat.div_add_mod num den
  have hmod := Nat.mod_lt num hden
  have hdouble (q : Nat) : den * (2 * q) = 2 * (den * q) := Nat.mul_left_comm ..
  simp only [roundDiv]
  split
  · rw [Nat.mul_add, hdouble]
    omega
  · rw [Nat.mul_add, hdouble, Nat.mul_add]
    omega

namespace Binary64

/-! ## Gaps -/

/-- The ranks of one scale are evenly spaced, up to and including the first rank of the next scale. -/
theorem units_add {k m : Nat} (hlead : k ≠ 0 → fractions ≤ m) (hless : m ≤ 2 * fractions) :
    units (k * fractions + m) = m * Nat.pow 2 k := by
  have hfractions := fractions_pos
  rcases Nat.lt_or_eq_of_le hless with hless | rfl
  · have hscale : scale (k * fractions + m) = k := by
      rw [scale, Nat.add_comm, Nat.add_mul_div_right m k hfractions]
      by_cases hk : k = 0
      · have : m / fractions < 2 := Nat.div_lt_of_lt_mul (by rwa [Nat.mul_comm])
        omega
      · have : m / fractions = 1 := Nat.div_eq_of_lt_le (by simpa using hlead hk) (by simpa using hless)
        omega
    rw [units, significand, hscale, Nat.add_sub_cancel_left]
  · have hscale : scale (k * fractions + 2 * fractions) = k + 1 := by
      rw [scale, ← Nat.add_mul, Nat.mul_div_cancel _ hfractions]
      rfl
    have hsignificand : k * fractions + 2 * fractions - (k + 1) * fractions = fractions := by
      rw [← Nat.add_mul, ← Nat.sub_mul]
      have : k + 2 - (k + 1) = 1 := by omega
      rw [this, Nat.one_mul]
    have hpow : Nat.pow 2 (k + 1) = 2 * Nat.pow 2 k := Nat.pow_succ' ..
    rw [units, significand, hscale, hsignificand, hpow]
    rw [Nat.mul_left_comm, Nat.mul_assoc]

/-- The gap above a rank is that of its scale. -/
theorem units_succ (r : Nat) : units (r + 1) = units r + Nat.pow 2 (scale r) := by
  obtain ⟨hsum, hless, hlead⟩ := significand_bounds r
  have hnext := units_add (m := significand r + 1) (fun h => Nat.le_succ_of_le (hlead h)) hless
  rw [← Nat.add_assoc, hsum] at hnext
  rw [hnext, units, Nat.succ_mul]

theorem strictMono_units : StrictMono units :=
  strictMono_nat_of_lt_succ fun r => by
    rw [units_succ]
    exact Nat.lt_add_of_pos_right (two_pow_pos _)

/-- The next rank is one step of the scale further, or more. -/
theorem units_add_succ {k m : Nat} (hlead : k ≠ 0 → fractions ≤ m) :
    units (k * fractions + m) + Nat.pow 2 k ≤ units (k * fractions + m + 1) := by
  have hscale : k ≤ scale (k * fractions + m) := by
    by_cases hk : k = 0
    · omega
    · apply Nat.le_sub_of_add_le
      rw [Nat.le_div_iff_mul_le fractions_pos, Nat.succ_mul]
      exact Nat.add_le_add_left (hlead hk) _
  rw [units_succ]
  exact Nat.add_le_add_left (Nat.pow_le_pow_right (by decide) hscale) _

/-- So is the rank before, unless it belongs to the scale below. -/
theorem units_pred {k m s : Nat} (hlead : k ≠ 0 → fractions < m) (hless : m ≤ 2 * fractions)
    (hs : k * fractions + m = s + 1) : units s + Nat.pow 2 k = units (k * fractions + m) := by
  have hm : m ≠ 0 := by
    rintro rfl
    have hk : k = 0 := by
      by_contra hk
      exact Nat.not_lt_zero _ (hlead hk)
    rw [hk, Nat.zero_mul] at hs
    cases hs
  obtain ⟨n, rfl⟩ := Nat.exists_eq_succ_of_ne_zero hm
  have hpred : s = k * fractions + n := by omega
  have hbefore := units_add (fun h => Nat.le_of_lt_succ (hlead h)) (Nat.le_of_succ_le hless)
  rw [hpred, hbefore, units_add (fun h => Nat.le_of_lt (hlead h)) hless, Nat.succ_mul]

/-! ## Cells -/

/-- Twice the number in the middle between a rank and the next one. -/
def middle (r : Nat) : Nat := units r + units (r + 1)

/-- `u` units lie in the cell of rank `r`. -/
structure Cell (u : ℚ) (r : Nat) : Prop where
  above : 2 * u < middle r ∨ 2 * u = middle r ∧ r % 2 = 0
  below : ∀ s, r = s + 1 → middle s < 2 * u ∨ middle s = 2 * u ∧ r % 2 = 0

/-- The quotient that is rounded is a significand. -/
theorem quotient_bounds (num den : Nat) :
    num / (den * Nat.pow 2 ((num / den).log2 - 52)) < 2 * fractions ∧
      ((num / den).log2 - 52 ≠ 0 → fractions ≤ num / (den * Nat.pow 2 ((num / den).log2 - 52))) := by
  rw [← Nat.div_div_eq_div_mul]
  generalize num / den = n
  constructor
  · apply Nat.div_lt_of_lt_mul
    have hpow : Nat.pow 2 (n.log2 - 52) * (2 * fractions) = 2 ^ (n.log2 - 52 + 53) := (Nat.pow_add 2 _ 53).symm
    rw [hpow]
    exact Nat.lt_of_lt_of_le Nat.lt_log2_self (Nat.pow_le_pow_right (by decide) (by omega))
  · intro hscale
    have hne : n ≠ 0 := by
      rintro rfl
      exact hscale rfl
    have hpow : fractions * Nat.pow 2 (n.log2 - 52) = 2 ^ (52 + (n.log2 - 52)) := (Nat.pow_add 2 _ _).symm
    have hsum : 52 + (n.log2 - 52) = n.log2 := by omega
    rw [Nat.le_div_iff_mul_le (two_pow_pos _), hpow, hsum]
    exact Nat.log2_self_le hne

theorem add_mod_two (k m : Nat) : (k * fractions + m) % 2 = m % 2 := by
  have hfractions : fractions = 2 * Nat.pow 2 51 := rfl
  rw [hfractions, Nat.mul_left_comm, Nat.mul_add_mod]

section

variable {num den k m : Nat} (hden : 0 < den) (hround : roundDiv num (den * Nat.pow 2 k) = m)
  (hlead : k ≠ 0 → fractions ≤ m) (hless : m ≤ 2 * fractions)

include hden hround hlead hless

theorem le_middle :
    2 * num < den * middle (k * fractions + m) ∨
      2 * num = den * middle (k * fractions + m) ∧ (k * fractions + m) % 2 = 0 := by
  have hmiddle : den * Nat.pow 2 k * (2 * m + 1) ≤ den * middle (k * fractions + m) := by
    rw [Nat.mul_assoc]
    apply Nat.mul_le_mul_left
    have hunits := units_add hlead hless
    have hnext := units_add_succ hlead
    have hsteps : Nat.pow 2 k * (2 * m + 1) = m * Nat.pow 2 k + (m * Nat.pow 2 k + Nat.pow 2 k) := by ring
    rw [middle, hsteps]
    omega
  rw [add_mod_two]
  rcases (roundDiv_near num (Nat.mul_pos hden (two_pow_pos k))).1 with hnear | ⟨hnear, heven⟩
  · rw [hround] at hnear
    exact .inl (Nat.lt_of_lt_of_le hnear hmiddle)
  · rw [hround] at hnear heven
    rw [← hnear] at hmiddle
    exact (Nat.lt_or_eq_of_le hmiddle).imp_right fun h => ⟨h, heven⟩

theorem middle_le {s : Nat} (hs : k * fractions + m = s + 1)
    (hfloor : k ≠ 0 → den * (fractions * Nat.pow 2 k) ≤ num) :
    den * middle s < 2 * num ∨ den * middle s = 2 * num ∧ (k * fractions + m) % 2 = 0 := by
  have hunits := units_add hlead hless
  by_cases hedge : k ≠ 0 ∧ m = fractions
  · -- the gap below is that of the scale below, but nothing has been rounded up
    obtain ⟨hk, rfl⟩ := hedge
    have hstrict : den * units s < den * units (s + 1) :=
      (Nat.mul_lt_mul_left hden).mpr (strictMono_units (Nat.lt_succ_self s))
    have hle := hfloor hk
    rw [← hunits, hs] at hle
    rw [middle, Nat.mul_add]
    omega
  · have hpred := units_pred (fun hk => Nat.lt_of_le_of_ne (hlead hk) fun h => hedge ⟨hk, h.symm⟩) hless hs
    have hmiddle : den * Nat.pow 2 k * (2 * m) = den * middle s + den * Nat.pow 2 k := by
      have hsteps : Nat.pow 2 k * (2 * m) = units (s + 1) + units (s + 1) := by
        rw [← hs, hunits]
        ring
      rw [hs] at hpred
      rw [Nat.mul_assoc, hsteps, ← Nat.mul_add, middle]
      congr 1
      omega
    rw [add_mod_two]
    rcases (roundDiv_near num (Nat.mul_pos hden (two_pow_pos k))).2 with hnear | ⟨hnear, heven⟩
    · rw [hround, hmiddle] at hnear
      exact .inl (Nat.lt_of_add_lt_add_right hnear)
    · rw [hround, hmiddle] at hnear
      rw [hround] at heven
      exact .inr ⟨Nat.add_right_cancel hnear, heven⟩

end

/-- A ratio lies in the cell of the rank to which it is rounded, as long as the ranks have no limit. -/
theorem exists_cell (num : Nat) {den : Nat} (hden : 0 < den) :
    ∃ r, Cell ((num * unitsOfOne : Nat) / den) r ∧ nearestRank num den = min infiniteRank r := by
  refine ⟨_, ?_, rfl⟩
  generalize num * unitsOfOne = whole
  obtain ⟨hless, hlead⟩ := quotient_bounds whole den
  generalize (whole / den).log2 - 52 = k at *
  have hquotient := roundDiv_eq_or whole (den * Nat.pow 2 k)
  have hfloor : k ≠ 0 → den * (fractions * Nat.pow 2 k) ≤ whole := by
    intro hk
    rw [Nat.mul_left_comm, ← Nat.le_div_iff_mul_le (Nat.mul_pos hden (two_pow_pos k))]
    exact hlead hk
  have hlead' : k ≠ 0 → fractions ≤ roundDiv whole (den * Nat.pow 2 k) := by
    intro hk
    have := hlead hk
    omega
  have hless' : roundDiv whole (den * Nat.pow 2 k) ≤ 2 * fractions := by omega
  have hpos : (0 : ℚ) < den := Nat.cast_pos.mpr hden
  constructor
  · rw [← mul_div_assoc, div_lt_iff₀' hpos, div_eq_iff_mul_eq hpos.ne', mul_comm _ (den : ℚ), eq_comm]
    exact_mod_cast le_middle hden rfl hlead' hless'
  · intro s hs
    rw [← mul_div_assoc, lt_div_iff₀' hpos, eq_div_iff hpos.ne', mul_comm _ (den : ℚ)]
    exact_mod_cast middle_le hden rfl hlead' hless' hs hfloor

theorem strictMono_middle : StrictMono middle := fun _ _ h =>
  Nat.add_lt_add (strictMono_units h) (strictMono_units (Nat.succ_lt_succ h))

namespace Cell

variable {u v : ℚ} {r s : Nat}

/-- A greater number lies in no lower cell. -/
theorem mono (hu : Cell u r) (hv : Cell v s) (h : u ≤ v) : r ≤ s := by
  by_contra hlt
  obtain ⟨t, rfl⟩ := Nat.exists_eq_succ_of_ne_zero (Nat.ne_zero_of_lt (Nat.lt_of_not_le hlt))
  have hst : s ≤ t := by omega
  have hmiddle : (middle s : ℚ) ≤ middle t := Nat.cast_le.mpr (strictMono_middle.monotone hst)
  rcases hu.below t rfl with hbelow | ⟨hbelow, hodd⟩
  · rcases hv.above with habove | ⟨habove, -⟩ <;> linarith
  · rcases hv.above with habove | ⟨habove, heven⟩
    · linarith
    · -- both numbers are the middle between the two ranks, of which one is odd
      have hequal : (middle s : ℚ) = middle t := by linarith
      obtain rfl := strictMono_middle.injective (Nat.cast_injective hequal)
      omega

/-- What lies beyond the middle between two numbers is nearer to the one on its side. -/
theorem nearer {a b : ℚ} (hab : a < b) :
    (a + b ≤ 2 * u → |b - u| ≤ |a - u| ∧ (|a - u| = |b - u| → a + b = 2 * u)) ∧
      (2 * u ≤ a + b → |a - u| ≤ |b - u| ∧ (|b - u| = |a - u| → 2 * u = a + b)) := by
  constructor
  · intro h
    rw [abs_of_neg (by linarith : a - u < 0)]
    refine ⟨abs_le.mpr ⟨by linarith, by linarith⟩, fun heq => ?_⟩
    rcases abs_choice (b - u) with habs | habs <;> rw [habs] at heq <;> linarith
  · intro h
    rw [abs_of_pos (by linarith : 0 < b - u)]
    refine ⟨abs_le.mpr ⟨by linarith, by linarith⟩, fun heq => ?_⟩
    rcases abs_choice (a - u) with habs | habs <;> rw [habs] at heq <;> linarith

/-- No magnitude is nearer to a number than that of its cell, and one of another rank is as near only if the rank of
the cell is even. -/
theorem nearest (h : Cell u r) (hsr : s ≠ r) :
    |(units r : ℚ) - u| ≤ |units s - u| ∧ (|(units s : ℚ) - u| = |units r - u| → r % 2 = 0) := by
  rcases Nat.lt_or_gt_of_ne hsr with hlt | hgt
  · obtain ⟨t, rfl⟩ := Nat.exists_eq_succ_of_ne_zero (Nat.ne_zero_of_lt hlt)
    have hstrict : (units s : ℚ) < units (t + 1) := Nat.cast_lt.mpr (strictMono_units hlt)
    have hmiddle : (units s : ℚ) + units (t + 1) ≤ middle t := by
      rw [middle, Nat.cast_add]
      exact add_le_add_left (Nat.cast_le.mpr (strictMono_units.monotone (Nat.le_of_lt_succ hlt))) _
    have hbelow : (middle t : ℚ) ≤ 2 * u := (h.below t rfl).elim le_of_lt fun h => le_of_eq h.1
    obtain ⟨hle, htie⟩ := (nearer hstrict).1 (hmiddle.trans hbelow)
    refine ⟨hle, fun heq => ?_⟩
    rcases h.below t rfl with hless | ⟨-, heven⟩
    · have := htie heq
      linarith
    · exact heven
  · have hstrict : (units r : ℚ) < units s := Nat.cast_lt.mpr (strictMono_units hgt)
    have hmiddle : (middle r : ℚ) ≤ units r + units s := by
      rw [middle, Nat.cast_add]
      exact add_le_add_right (Nat.cast_le.mpr (strictMono_units.monotone hgt)) _
    have habove : 2 * u ≤ middle r := h.above.elim le_of_lt fun h => le_of_eq h.1
    obtain ⟨hle, htie⟩ := (nearer hstrict).2 (habove.trans hmiddle)
    refine ⟨hle, fun heq => ?_⟩
    rcases h.above with hless | ⟨-, heven⟩
    · have := htie heq
      linarith
    · exact heven

end Cell

end Binary64

end ScriptScan
