-- SUMMARY: A decimal is rounded to the nearest binary64 word, a tie to the even one, and to no other.
import ScriptScan.Proofs.Number.Cells

/-!
# Nearest words

The number of a finite word is read off its sign, exponent and fraction fields. `IsNearest v x` says in these terms
what rounding `v` to nearest with ties to even asks of `x`. One word meets it, and rounding finds that one.
-/

namespace ScriptScan

namespace Binary64

/-! ## Fields -/

def exponentField (x : Binary64) : Nat := x.bits.toNat / 2 ^ 52 % 2 ^ 11

def fractionField (x : Binary64) : Nat := x.bits.toNat % 2 ^ 52

def IsFinite (x : Binary64) : Prop := x.exponentField ≠ 2047

/-- The significand as a whole number. The leading digit is not written, and is zero in a subnormal word. -/
def coefficient (x : Binary64) : Nat :=
  if x.exponentField = 0 then x.fractionField else 2 ^ 52 + x.fractionField

/-- The number that a finite word stands for. -/
def value (x : Binary64) : ℚ :=
  (if x.negative then -1 else 1) * x.coefficient * 2 ^ ((max x.exponentField 1 : ℤ) - 1075)

def infinity : Binary64 := ⟨0x7ff0000000000000⟩

/-- Half a step past the largest finite number, which is `2 ^ 1024 - 2 ^ 971`. -/
def overflow : ℚ := 2 ^ 1024 - 2 ^ 970

/-- `x` is the word to which `v` is rounded if no finite word is nearer, and `x` has an even significand if one
of another value is as near. What is too large is rounded to infinity. -/
structure IsNearest (v : ℚ) (x : Binary64) : Prop where
  positive : x.negative = false
  finite : v < overflow → x.IsFinite
  infinite : overflow ≤ v → x = infinity
  closest : v < overflow → ∀ y : Binary64, y.IsFinite → |x.value - v| ≤ |y.value - v|
  even : v < overflow → ∀ y : Binary64, y.IsFinite → y.value ≠ x.value →
    |y.value - v| = |x.value - v| → x.coefficient % 2 = 0

/-! ## Ranks of fields -/

theorem exponentField_eq (x : Binary64) : x.exponentField = x.rank / fractions := by
  have hfractions : fractions = 4503599627370496 := rfl
  have hweight : signWeight = 9223372036854775808 := rfl
  rw [exponentField, rank, hfractions, hweight]
  omega

theorem fractionField_eq (x : Binary64) : x.fractionField = x.rank % fractions := by
  have hfractions : fractions = 4503599627370496 := rfl
  have hweight : signWeight = 9223372036854775808 := rfl
  rw [fractionField, rank, hfractions, hweight]
  omega

theorem rank_lt (x : Binary64) : x.rank < signWeight := Nat.mod_lt _ (by decide)

theorem isFinite_iff (x : Binary64) : x.IsFinite ↔ x.rank < infiniteRank := by
  have hrank := x.rank_lt
  have hweight : signWeight = 2048 * fractions := rfl
  have hinfinite : infiniteRank = 2047 * fractions := rfl
  rw [hweight] at hrank
  have hfield : x.rank / fractions < 2048 := Nat.div_lt_of_lt_mul (by rwa [Nat.mul_comm])
  rw [IsFinite, exponentField_eq, hinfinite, ← Nat.div_lt_iff_lt_mul fractions_pos]
  omega

theorem coefficient_eq (x : Binary64) : x.coefficient = significand x.rank := by
  have hpow : 2 ^ 52 = fractions := rfl
  have hdiv := Nat.div_add_mod x.rank fractions
  rw [coefficient, exponentField_eq, fractionField_eq, hpow, significand, scale]
  split
  · rename_i hzero
    rw [hzero, Nat.mul_zero, Nat.zero_add] at hdiv
    rw [hzero, hdiv, Nat.zero_sub, Nat.zero_mul, Nat.sub_zero]
  · rename_i hnormal
    obtain ⟨e, he⟩ := Nat.exists_eq_succ_of_ne_zero hnormal
    rw [he, Nat.succ_eq_add_one, Nat.mul_succ, Nat.mul_comm] at hdiv
    rw [he, Nat.succ_eq_add_one, Nat.add_sub_cancel]
    omega

theorem coefficient_mod_two (x : Binary64) : x.coefficient % 2 = x.rank % 2 := by
  rw [coefficient_eq, ← add_mod_two (scale x.rank), (significand_bounds x.rank).1]

theorem cast_two_pow {n k : Nat} (h : n = Nat.pow 2 k) : (n : ℚ) = 2 ^ k := by
  rw [h]
  exact Nat.cast_pow 2 k

theorem cast_unitsOfOne : (unitsOfOne : ℚ) = 2 ^ 1074 := cast_two_pow rfl

theorem unitsOfOne_cast_pos : (0 : ℚ) < unitsOfOne := Nat.cast_pos.mpr unitsOfOne_pos

/-- The sign, and the magnitude of the rank. -/
theorem value_eq (x : Binary64) :
    x.value = (if x.negative then -1 else 1) * (units x.rank / unitsOfOne) := by
  have hexponent : (max x.exponentField 1 : ℤ) - 1075 = scale x.rank - (1074 : ℕ) := by
    rw [exponentField_eq, scale]
    omega
  rw [value, coefficient_eq, hexponent, zpow_sub₀ two_ne_zero, zpow_natCast, zpow_natCast, units, Nat.cast_mul,
    cast_two_pow rfl, cast_unitsOfOne, mul_assoc, mul_div_assoc]

theorem value_of_positive {x : Binary64} (h : x.negative = false) : x.value = units x.rank / unitsOfOne := by
  rw [value_eq, h, if_neg Bool.false_ne_true, one_mul]

theorem negative_ofRank {r : Nat} (h : r < signWeight) : (ofRank r).negative = false := by
  have hweight : signWeight = 9223372036854775808 := rfl
  rw [hweight] at h
  simp only [ofRank, negative, UInt64.toNat_ofNat', hweight, decide_eq_false_iff_not]
  omega

/-- A word without a sign is told by its rank. -/
theorem ofRank_rank {x : Binary64} (h : x.negative = false) : ofRank x.rank = x := by
  have hrank : x.rank = x.bits.toNat := by
    apply Nat.mod_eq_of_lt
    simpa [negative] using h
  rw [ofRank, hrank, UInt64.ofNat_toNat]

theorem value_ofRank {r : Nat} (h : r < signWeight) : (ofRank r).value = units r / unitsOfOne := by
  rw [value_of_positive (negative_ofRank h), rank_ofRank h]

theorem value_zero : (ofRank 0).value = 0 := by
  have hunits : units 0 = 0 := by simp [units, significand]
  rw [value_ofRank (by decide), hunits, Nat.cast_zero, zero_div]

/-! ## Rounding -/

/-- The magnitudes of a scale, as numbers. -/
theorem cast_units_add {k m r : Nat} (hr : r = k * fractions + m) (hlead : k ≠ 0 → fractions ≤ m)
    (hless : m ≤ 2 * fractions) : (units r : ℚ) = m * 2 ^ k := by
  rw [hr, units_add hlead hless, Nat.cast_mul, cast_two_pow rfl]

/-- The middle between the last finite rank and that of infinity. -/
theorem middle_last {t : Nat} (ht : infiniteRank = t + 1) : (middle t : ℚ) = 2 * (overflow * unitsOfOne) := by
  have hlast : (units t : ℚ) = (2 ^ 53 - 1 : Nat) * 2 ^ 2045 :=
    cast_units_add (Nat.succ_injective ht.symm) (by decide) (by decide)
  have hinfinite : (units (t + 1) : ℚ) = fractions * 2 ^ 2046 :=
    cast_units_add (ht.symm.trans rfl) (fun _ => le_refl _) (by decide)
  have hfractions : (fractions : ℚ) = 2 ^ 52 := cast_two_pow rfl
  have hsum (a b : Nat) : (((2 ^ 53 - 1 : Nat) : ℚ) * 2 ^ (a + b + 1) + 2 ^ 52 * 2 ^ (a + b + 2)) =
      2 * ((2 ^ (a + 54) - 2 ^ a) * 2 ^ b) := by
    push_cast
    ring
  rw [middle, Nat.cast_add, hlast, hinfinite, hfractions, cast_unitsOfOne, overflow]
  exact hsum 970 1074

/-- The ranks from that of infinity on are those of what is too large. -/
theorem Cell.infiniteRank_le_iff {u : ℚ} {r : Nat} (h : Cell u r) :
    infiniteRank ≤ r ↔ overflow * unitsOfOne ≤ u := by
  obtain ⟨t, ht⟩ : ∃ t, infiniteRank = t + 1 := ⟨infiniteRank - 1, rfl⟩
  have hlast := middle_last ht
  have hodd : t % 2 = 1 := by
    have : infiniteRank % 2 = 0 := rfl
    omega
  rw [ht]
  constructor
  · intro hr
    obtain ⟨s, rfl⟩ := Nat.exists_eq_succ_of_ne_zero (Nat.ne_zero_of_lt hr)
    have hmiddle : (middle t : ℚ) ≤ middle s := Nat.cast_le.mpr (strictMono_middle.monotone (Nat.le_of_succ_le_succ hr))
    rcases h.below s rfl with hbelow | ⟨hbelow, -⟩ <;> linarith
  · intro hu
    by_contra hr
    have hmiddle : (middle r : ℚ) ≤ middle t :=
      Nat.cast_le.mpr (strictMono_middle.monotone (Nat.le_of_lt_succ (Nat.lt_of_not_le hr)))
    rcases h.above with habove | ⟨habove, heven⟩
    · linarith
    · have hequal : (middle r : ℚ) = middle t := by linarith
      obtain rfl := strictMono_middle.injective (Nat.cast_injective hequal)
      omega

/-- A distance, counted in units. -/
theorem abs_div_sub (n : Nat) (v : ℚ) :
    |(n / unitsOfOne : ℚ) - v| = |(n : ℚ) - v * unitsOfOne| / unitsOfOne := by
  have hone := unitsOfOne_cast_pos
  rw [← abs_of_pos hone, ← abs_div, abs_of_pos hone, sub_div, mul_div_cancel_right₀ _ hone.ne']

/-- A sign brings a word no nearer to a number that has none. -/
theorem abs_sub_le_of_nonneg (y : Binary64) {v : ℚ} (hv : 0 ≤ v) :
    |(units y.rank / unitsOfOne : ℚ) - v| ≤ |y.value - v| := by
  have hunits : (0 : ℚ) ≤ units y.rank / unitsOfOne := div_nonneg (Nat.cast_nonneg _) unitsOfOne_cast_pos.le
  rw [value_eq]
  cases y.negative with
  | false => rw [if_neg Bool.false_ne_true, one_mul]
  | true =>
    rw [if_pos rfl, neg_one_mul, abs_of_nonpos (by linarith : -(units y.rank / unitsOfOne : ℚ) - v ≤ 0)]
    exact abs_le.mpr ⟨by linarith, by linarith⟩

namespace Cell

variable {v : ℚ} {r : Nat} (h : Cell (v * unitsOfOne) r)

include h

/-- No word is nearer than the magnitude of the cell, and a word of another rank as near only if the rank is even. -/
theorem closest (hv : 0 ≤ v) (y : Binary64) :
    |(units r / unitsOfOne : ℚ) - v| ≤ |y.value - v| ∧
      (y.rank ≠ r → |y.value - v| = |(units r / unitsOfOne : ℚ) - v| → r % 2 = 0) := by
  have hsign := abs_sub_le_of_nonneg y hv
  by_cases hrank : y.rank = r
  · rw [hrank] at hsign
    exact ⟨hsign, fun hne => absurd hrank hne⟩
  · obtain ⟨hle, htie⟩ := h.nearest hrank
    have hunits : |(units r / unitsOfOne : ℚ) - v| ≤ |units y.rank / unitsOfOne - v| := by
      rw [abs_div_sub, abs_div_sub]
      exact div_le_div_of_nonneg_right hle unitsOfOne_cast_pos.le
    refine ⟨hunits.trans hsign, fun _ heq => htie ?_⟩
    have hequal := le_antisymm hunits (hsign.trans (le_of_eq heq))
    rw [abs_div_sub, abs_div_sub, div_left_inj' unitsOfOne_cast_pos.ne'] at hequal
    exact hequal.symm

/-- With a sign, and another value, the word of the same rank is further away. -/
theorem lt_of_negative {y : Binary64} (hv : 0 ≤ v) (hrank : y.rank = r)
    (hne : y.value ≠ units r / unitsOfOne) : |(units r / unitsOfOne : ℚ) - v| < |y.value - v| := by
  have hunits : (0 : ℚ) ≤ units r / unitsOfOne := div_nonneg (Nat.cast_nonneg _) unitsOfOne_cast_pos.le
  have hvalue : y.value = -(units r / unitsOfOne) := by
    rw [value_eq, hrank] at hne ⊢
    cases hnegative : y.negative with
    | false =>
      rw [hnegative, if_neg Bool.false_ne_true, one_mul] at hne
      exact absurd rfl hne
    | true => rw [if_pos rfl, neg_one_mul]
  have hzero := (h.closest hv (ofRank 0)).1
  rw [value_zero, zero_sub, abs_neg, abs_of_nonneg hv] at hzero
  have hpos : (0 : ℚ) < units r / unitsOfOne := by
    refine hunits.lt_of_ne fun hnull => hne ?_
    rw [hvalue, ← hnull, neg_zero]
  rw [hvalue, abs_of_nonpos (by linarith : -(units r / unitsOfOne : ℚ) - v ≤ 0)]
  linarith

/-- The word of the cell is the nearest one. -/
theorem isNearest (hv : 0 ≤ v) : IsNearest v (ofRank (min infiniteRank r)) := by
  have hlimit : infiniteRank ≤ r ↔ overflow ≤ v := by
    rw [h.infiniteRank_le_iff, mul_le_mul_iff_left₀ unitsOfOne_cast_pos]
  have hbound : min infiniteRank r < signWeight := Nat.lt_of_le_of_lt (Nat.min_le_left ..) (by decide)
  have hfinite (hless : v < overflow) : r < infiniteRank :=
    Nat.lt_of_not_le fun hle => absurd (hlimit.mp hle) (not_le.mpr hless)
  have hword (hless : v < overflow) : min infiniteRank r = r := Nat.min_eq_right (Nat.le_of_lt (hfinite hless))
  constructor
  case positive => exact negative_ofRank hbound
  case finite =>
    intro hless
    rw [isFinite_iff, rank_ofRank hbound, hword hless]
    exact hfinite hless
  case infinite =>
    intro hle
    rw [Nat.min_eq_left (hlimit.mpr hle)]
    rfl
  case closest =>
    intro hless y _
    rw [value_ofRank hbound, hword hless]
    exact (h.closest hv y).1
  case even =>
    intro hless y _ hne heq
    rw [value_ofRank hbound, hword hless] at hne heq
    rw [coefficient_mod_two, rank_ofRank hbound, hword hless]
    by_cases hrank : y.rank = r
    · exact absurd heq (ne_of_gt (h.lt_of_negative hv hrank hne))
    · exact (h.closest hv y).2 hrank heq

end Cell

/-! ## Uniqueness -/

namespace IsNearest

variable {v : ℚ} {x y : Binary64}

/-- Of two nearest words with a rank between them, neither would be nearest; and one of two neighbours is odd. -/
theorem rank_le (hx : IsNearest v x) (hy : IsNearest v y) (hless : v < overflow) : x.rank ≤ y.rank := by
  by_contra hrank
  have hlt := Nat.lt_of_not_le hrank
  have hmono {r s : Nat} (h : r < s) : (units r / unitsOfOne : ℚ) < units s / unitsOfOne :=
    div_lt_div_of_pos_right (Nat.cast_lt.mpr (strictMono_units h)) unitsOfOne_cast_pos
  have hxy := hmono hlt
  rw [← value_of_positive hx.positive, ← value_of_positive hy.positive] at hxy
  have hequal : |x.value - v| = |y.value - v| :=
    le_antisymm (hx.closest hless y (hy.finite hless)) (hy.closest hless x (hx.finite hless))
  have hmiddle : y.value + x.value = 2 * v := by
    rcases le_total (y.value + x.value) (2 * v) with hle | hge
    · exact ((Cell.nearer hxy).1 hle).2 hequal.symm
    · exact (((Cell.nearer hxy).2 hge).2 hequal).symm
  have hxeven := hx.even hless y (hy.finite hless) hxy.ne hequal.symm
  have hyeven := hy.even hless x (hx.finite hless) hxy.ne' hequal
  rw [coefficient_mod_two] at hxeven hyeven
  have hbetween : y.rank < y.rank + 1 ∧ y.rank + 1 < x.rank := by omega
  have hlimit := (isFinite_iff x).mp (hx.finite hless)
  have hword : y.rank + 1 < signWeight := Nat.lt_trans hbetween.2 x.rank_lt
  have hnearest := hx.closest hless (ofRank (y.rank + 1)) (by
    rw [isFinite_iff, rank_ofRank hword]
    exact Nat.lt_trans hbetween.2 hlimit)
  have hlow := hmono hbetween.1
  have hhigh := hmono hbetween.2
  rw [← value_of_positive hy.positive, ← value_ofRank hword] at hlow
  rw [← value_of_positive hx.positive, ← value_ofRank hword] at hhigh
  rw [abs_of_pos (by linarith : 0 < x.value - v)] at hnearest
  have hcloser : |(ofRank (y.rank + 1)).value - v| < x.value - v := abs_lt.mpr ⟨by linarith, by linarith⟩
  linarith

/-- There is one nearest word. -/
theorem unique (hx : IsNearest v x) (hy : IsNearest v y) : x = y := by
  rcases lt_or_ge v overflow with hless | hge
  · rw [← ofRank_rank hx.positive, ← ofRank_rank hy.positive,
      Nat.le_antisymm (hx.rank_le hy hless) (hy.rank_le hx hless)]
  · rw [hx.infinite hge, hy.infinite hge]

theorem eq_infinity_iff (h : IsNearest v x) : x = infinity ↔ overflow ≤ v := by
  refine ⟨fun hx => le_of_not_gt fun hless => ?_, h.infinite⟩
  have hfinite := h.finite hless
  rw [hx] at hfinite
  exact hfinite (by decide)

/-- The least magnitude is one unit, and half a unit is rounded to zero. -/
theorem eq_zero_iff (h : IsNearest v x) (hv : 0 ≤ v) : x = ofRank 0 ↔ v ≤ 1 / 2 ^ 1075 := by
  have hone := unitsOfOne_cast_pos
  have hmiddle : middle 0 = 1 := by decide
  have hhalf : v ≤ 1 / 2 ^ 1075 ↔ 2 * (v * unitsOfOne) ≤ 1 := by
    rw [pow_succ', ← cast_unitsOfOne, le_div_iff₀ (mul_pos two_pos hone), mul_left_comm]
  rw [hhalf]
  constructor
  · rintro rfl
    have hless : v < overflow := lt_of_not_ge fun hge => absurd (h.infinite hge) (by decide)
    have hnearest := h.closest hless (ofRank 1) ((isFinite_iff _).mpr (by decide))
    have hleast : units 1 = 1 := by decide
    have hpos : (0 : ℚ) < 1 / unitsOfOne := one_div_pos.mpr hone
    rw [value_zero, value_ofRank (by decide), hleast, Nat.cast_one, zero_sub, abs_neg, abs_of_nonneg hv] at hnearest
    have hside : 2 * v ≤ 1 / unitsOfOne := by
      rcases abs_choice (1 / unitsOfOne - v) with habs | habs <;> rw [habs] at hnearest <;> linarith
    rwa [le_div_iff₀ hone, mul_assoc] at hside
  · intro hle
    have hcell : Cell (v * unitsOfOne) 0 := by
      refine ⟨?_, fun s hs => nomatch hs⟩
      rw [hmiddle, Nat.cast_one]
      exact hle.lt_or_eq.imp_right fun heq => ⟨heq, rfl⟩
    exact h.unique (hcell.isNearest hv)

end IsNearest

end Binary64

/-! ## Decimals -/

namespace Decimal

open Binary64

/-- A decimal is rounded to the rank in whose cell it lies, as far as the ranks go. -/
theorem exists_cell (d : Decimal) :
    ∃ r, Cell (d.value * unitsOfOne) r ∧ d.nearest = ofRank (min infiniteRank r) := by
  have hden : 0 < Nat.pow 10 (-d.exponent).toNat := Nat.pow_pos (by decide)
  obtain ⟨r, hcell, hrank⟩ := Binary64.exists_cell (d.coefficient * Nat.pow 10 d.exponent.toNat) hden
  rw [Nat.cast_mul, mul_div_right_comm, ← value_eq_div] at hcell
  exact ⟨r, hcell, congrArg ofRank hrank⟩

theorem value_nonneg (d : Decimal) : 0 ≤ d.value :=
  mul_nonneg (Nat.cast_nonneg _) (zpow_nonneg (by norm_num) _)

theorem isNearest_nearest (d : Decimal) : IsNearest d.value d.nearest := by
  obtain ⟨r, hcell, hnearest⟩ := d.exists_cell
  rw [hnearest]
  exact hcell.isNearest d.value_nonneg

/-- Of two decimals, the greater one is not rounded to a lower word. -/
theorem rank_nearest_le {d e : Decimal} (h : d.value ≤ e.value) : d.nearest.rank ≤ e.nearest.rank := by
  obtain ⟨r, hd, hdnearest⟩ := d.exists_cell
  obtain ⟨s, he, henearest⟩ := e.exists_cell
  have hbound (r : Nat) : min infiniteRank r < signWeight := Nat.lt_of_le_of_lt (Nat.min_le_left ..) (by decide)
  have hrs : r ≤ s := hd.mono he (mul_le_mul_of_nonneg_right h unitsOfOne_cast_pos.le)
  rw [hdnearest, henearest, rank_ofRank (hbound r), rank_ofRank (hbound s)]
  exact le_min (Nat.min_le_left ..) ((Nat.min_le_right ..).trans hrs)

end Decimal

end ScriptScan
