-- SUMMARY: Decimals of one value round alike, and the shortest decimal of a magnitude reads back to it.
import Mathlib.Algebra.Order.Field.Rat
import Mathlib.Data.Rat.Cast.Order
import ScriptScan.Number.Shortest
import ScriptScan.Proofs.Number.Rounding

/-!
# Reading decimals back

Rounding a decimal depends on its value alone. The search for a short decimal goes from grid to grid, each
with its own exponent, but tests every candidate on the grid of the expansion; the values there are the same.
-/

namespace ScriptScan

/-! ## Values -/

namespace Decimal

/-- The number that a decimal stands for. -/
def value (d : Decimal) : ℚ := d.coefficient * 10 ^ d.exponent

theorem value_mul_ten_pow (coefficient count : Nat) (exponent : Int) :
    value ⟨coefficient * Nat.pow 10 count, exponent⟩ = value ⟨coefficient, exponent + count⟩ := by
  have hpow : ((Nat.pow 10 count : Nat) : ℚ) = 10 ^ count := Nat.cast_pow 10 count
  rw [value, value, Nat.cast_mul, hpow, zpow_add₀ (by norm_num), zpow_natCast, mul_assoc, mul_comm (10 ^ count)]

/-- The ratio that is rounded for a decimal. -/
theorem value_eq_div (d : Decimal) :
    d.value = (d.coefficient * Nat.pow 10 d.exponent.toNat : Nat) / (Nat.pow 10 (-d.exponent).toNat : Nat) := by
  have hpow (k : Nat) : ((Nat.pow 10 k : Nat) : ℚ) = 10 ^ (k : ℤ) := by
    rw [zpow_natCast]
    exact Nat.cast_pow 10 k
  have hexponent : d.exponent = d.exponent.toNat - ((-d.exponent).toNat : Int) := by omega
  rw [value, Nat.cast_mul, hpow, hpow, mul_div_assoc, ← zpow_sub₀ (by norm_num), ← hexponent]

theorem nearest_congr {d e : Decimal} (h : d.value = e.value) : d.nearest = e.nearest := by
  have hpos (k : Nat) : 0 < Nat.pow 10 k := Nat.pow_pos (by decide)
  have hne (k : Nat) : ((Nat.pow 10 k : Nat) : ℚ) ≠ 0 := Nat.cast_ne_zero.mpr (Nat.ne_of_gt (hpos k))
  rw [value_eq_div, value_eq_div, div_eq_div_iff (hne _) (hne _)] at h
  exact congrArg Binary64.ofRank (Binary64.nearestRank_congr (hpos _) (hpos _) (by exact_mod_cast h))

theorem nearest_zero (exponent : Int) : (Decimal.mk 0 exponent).nearest = Binary64.ofRank 0 := by
  have hden : 0 < Nat.pow 10 (-exponent).toNat := Nat.pow_pos (by decide)
  rw [nearest, Nat.zero_mul, Binary64.nearest, Binary64.nearestRank_zero hden]

theorem value_trim (coefficient : Nat) (exponent : Int) :
    (trim coefficient exponent).value = value ⟨coefficient, exponent⟩ := by
  induction coefficient, exponent using trim.induct with
  | case1 coefficient exponent h ih =>
    have hten : coefficient / 10 * Nat.pow 10 1 = coefficient := Nat.div_mul_cancel (Nat.dvd_of_mod_eq_zero h.2)
    rw [trim, dif_pos h, ih, ← Nat.cast_one, ← value_mul_ten_pow, hten]
  | case2 coefficient exponent h => rw [trim, dif_neg h]

theorem trim_pos {coefficient : Nat} (exponent : Int) (h : 0 < coefficient) :
    0 < (trim coefficient exponent).coefficient := by
  induction coefficient, exponent using trim.induct with
  | case1 coefficient exponent hten ih =>
    rw [trim, dif_pos hten]
    exact ih (by omega)
  | case2 coefficient exponent hten =>
    rw [trim, dif_neg hten]
    exact h

end Decimal

/-! ## The search -/

namespace Binary64

theorem nearest_places (r count : Nat) :
    (Decimal.mk count (-places r)).nearest = nearest count (Nat.pow 10 (places r)) := by
  have hnum : (-(places r : Int)).toNat = 0 := Int.toNat_neg_natCast _
  have hden : (- -(places r : Int)).toNat = places r := by omega
  have hone : count * Nat.pow 10 0 = count := Nat.mul_one count
  rw [Decimal.nearest, hnum, hden, hone]

theorem nearest_of_readsBack {r count : Nat} (h : readsBack r count = true) :
    (Decimal.mk count (-places r)).nearest = ofRank r := by
  have hrank : nearestRank count (Nat.pow 10 (places r)) = r := by simpa [readsBack] using h
  rw [nearest_places, nearest, hrank]

/-- Two ways to bring exponents to the greater of two. -/
theorem two_pow_sub_mul (a b : Nat) : Nat.pow 2 (a - b) * Nat.pow 2 b = Nat.pow 2 a * Nat.pow 2 (b - a) := by
  have hsum : a - b + b = a + (b - a) := by omega
  exact (Nat.pow_add 2 _ _).symm.trans ((congrArg (Nat.pow 2) hsum).trans (Nat.pow_add 2 _ _))

/-- The expansion has the value of the magnitude. -/
theorem expansion_mul (r : Nat) : expansion r * unitsOfOne = units r * Nat.pow 10 (places r) := by
  have hsplit : Nat.pow 10 (places r) = Nat.pow 2 (places r) * Nat.pow 5 (places r) := Nat.mul_pow 2 5 (places r)
  have hscale : Nat.pow 2 (scale r - 1074) * unitsOfOne = Nat.pow 2 (scale r) * Nat.pow 2 (places r) :=
    two_pow_sub_mul (scale r) 1074
  rw [expansion, Nat.mul_right_comm, Nat.mul_assoc (significand r), hscale, ← Nat.mul_assoc, Nat.mul_assoc,
    ← hsplit, units]

/-- Dropping no digit succeeds. -/
theorem readsBack_expansion {r : Nat} (h : r < infiniteRank) : readsBack r (expansion r) = true := by
  have hpos : 0 < Nat.pow 10 (places r) := Nat.pow_pos (by decide)
  have hrank := nearestRank_congr hpos unitsOfOne_pos (expansion_mul r)
  rw [readsBack, hrank, nearestRank_units h, beq_self_eq_true]

theorem pick_fits {tie : Tie} {low rest step c : Nat} {f : Nat → Bool}
    (h : tie.pick low rest step (f low) (f (low + 1)) = some c) : f c = true := by
  cases hlow : f low <;> cases hhigh : f (low + 1) <;> rw [hlow, hhigh] at h
  · cases h
  · cases h
    exact hhigh
  · cases h
    exact hlow
  · simp only [Tie.pick] at h
    split at h <;> cases h <;> assumption

theorem readsBack_of_neighbour? {tie : Tie} {r step c : Nat} (h : neighbour? tie r step = some c) :
    readsBack r (c * step) = true :=
  pick_fits (f := fun c => readsBack r (c * step)) h

theorem nearest_searchFrom (tie : Tie) {r : Nat} (h : r < infiniteRank) (dropped : Nat) :
    (searchFrom tie r dropped).nearest = ofRank r := by
  induction dropped with
  | zero => exact nearest_of_readsBack (readsBack_expansion h)
  | succ dropped ih =>
    rw [searchFrom]
    cases hfound : neighbour? tie r (Nat.pow 10 (dropped + 1)) with
    | none => exact ih
    | some c =>
      rw [← nearest_of_readsBack (readsBack_of_neighbour? hfound)]
      apply Decimal.nearest_congr
      rw [Decimal.value_mul_ten_pow, Int.add_comm, ← Int.sub_eq_add_neg]
      rfl

/-- The shortest decimal of a magnitude reads back to it. -/
theorem nearest_shortest (tie : Tie) {r : Nat} (h : r < infiniteRank) : (shortest tie r).nearest = ofRank r :=
  nearest_searchFrom tie h _

/-- Only zero is written with the coefficient zero. -/
theorem coefficient_pos {d : Decimal} {r : Nat} (hr : 0 < r) (h : r < infiniteRank) (hd : d.nearest = ofRank r) :
    0 < d.coefficient := by
  obtain ⟨coefficient, exponent⟩ := d
  refine Nat.pos_of_ne_zero ?_
  rintro rfl
  have hrank : rank (ofRank 0) = rank (ofRank r) := congrArg rank ((Decimal.nearest_zero exponent).symm.trans hd)
  rw [rank_ofRank (by decide), rank_ofRank (Nat.lt_trans h (by decide))] at hrank
  exact Nat.ne_of_lt hr hrank

end Binary64

end ScriptScan
