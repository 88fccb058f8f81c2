-- SUMMARY: No decimal that reads back to a magnitude has fewer digits than the shortest one.
import ScriptScan.Proofs.Number.Nearest

/-!
# Fewest digits

What is rounded to a magnitude lies between any two decimals that are. So a grid on which there is such a decimal has
one next to the expansion, and the search, which comes from the coarser grids, ends there at the latest.
-/

namespace ScriptScan

/-! ## Significant digits -/

namespace Decimal

/-- How many digits a decimal has, without zeros at its end. -/
def significantDigits (d : Decimal) : Nat := (Nat.toDigits 10 (trim d.coefficient d.exponent).coefficient).length

theorem trim_le (coefficient : Nat) (exponent : Int) : (trim coefficient exponent).coefficient ≤ coefficient := by
  induction coefficient, exponent using trim.induct with
  | case1 coefficient exponent h ih =>
    rw [trim, dif_pos h]
    exact ih.trans (Nat.div_le_self ..)
  | case2 coefficient exponent h => rw [trim, dif_neg h]

/-- A power of ten loses its zeros, so that it needs no place more than what is below it. -/
theorem trim_lt_pow {coefficient k : Nat} (exponent : Int) (hk : 0 < k) (h : coefficient ≤ Nat.pow 10 k) :
    (trim coefficient exponent).coefficient < Nat.pow 10 k := by
  rcases Nat.lt_or_eq_of_le h with hless | rfl
  · exact Nat.lt_of_le_of_lt (trim_le ..) hless
  · obtain ⟨j, rfl⟩ := Nat.exists_eq_succ_of_ne_zero (Nat.ne_of_gt hk)
    have hpos : 0 < Nat.pow 10 (j + 1) := Nat.pow_pos (by decide)
    have hten : Nat.pow 10 (j + 1) = Nat.pow 10 j * 10 := rfl
    rw [trim, dif_pos ⟨hpos, by rw [hten, Nat.mul_mod_left]⟩]
    exact Nat.lt_of_le_of_lt (trim_le ..) (Nat.div_lt_self hpos (by decide))

theorem trim_mod_ten {coefficient : Nat} (exponent : Int) (h : 0 < coefficient) :
    (trim coefficient exponent).coefficient % 10 ≠ 0 := by
  induction coefficient, exponent using trim.induct with
  | case1 coefficient exponent hten ih =>
    rw [trim, dif_pos hten]
    exact ih (by omega)
  | case2 coefficient exponent hten =>
    rw [trim, dif_neg hten]
    exact fun hmod => hten ⟨h, hmod⟩

theorem value_eq_zero_iff (d : Decimal) : d.value = 0 ↔ d.coefficient = 0 := by
  rw [value, mul_eq_zero_iff_right (zpow_ne_zero _ (by norm_num)), Nat.cast_eq_zero]

theorem value_mono {m n : Nat} {exponent : Int} (h : m ≤ n) : value ⟨m, exponent⟩ ≤ value ⟨n, exponent⟩ :=
  mul_le_mul_of_nonneg_right (Nat.cast_le.mpr h) (zpow_nonneg (by norm_num) _)

theorem value_le_value_ten_pow {d : Decimal} {n k : Nat} {exponent : Int} (h : d.coefficient ≤ Nat.pow 10 n)
    (hexponent : n + d.exponent ≤ k + exponent) : d.value ≤ value ⟨Nat.pow 10 k, exponent⟩ := by
  have hpow (n : Nat) : ((Nat.pow 10 n : Nat) : ℚ) = 10 ^ (n : ℤ) := by
    rw [zpow_natCast]
    exact Nat.cast_pow 10 n
  calc d.value ≤ value ⟨Nat.pow 10 n, d.exponent⟩ := value_mono h
    _ = 10 ^ (n + d.exponent) := by rw [value, hpow, ← zpow_add₀ (by norm_num)]
    _ ≤ 10 ^ (k + exponent) := zpow_le_zpow_right₀ (by norm_num) hexponent
    _ = value ⟨Nat.pow 10 k, exponent⟩ := by rw [value, hpow, ← zpow_add₀ (by norm_num)]

/-- A decimal with a digit at its end has no greater exponent than one of the same value. -/
theorem exponent_le_of_value_eq {d e : Decimal} (h : d.value = e.value) (hd : d.coefficient % 10 ≠ 0) :
    e.exponent ≤ d.exponent := by
  by_contra hless
  obtain ⟨k, hk⟩ : ∃ k : Nat, e.exponent = d.exponent + (k + 1 : Nat) :=
    ⟨(e.exponent - d.exponent - 1).toNat, by omega⟩
  have hscaled : e.value = value ⟨e.coefficient * Nat.pow 10 (k + 1), d.exponent⟩ := by
    rw [value_mul_ten_pow, ← hk]
  rw [hscaled, value, value, mul_left_inj' (zpow_ne_zero _ (by norm_num)), Nat.cast_inj] at h
  have hten : Nat.pow 10 (k + 1) = Nat.pow 10 k * 10 := rfl
  exact hd (by rw [h, hten, ← Nat.mul_assoc, Nat.mul_mod_left])

theorem significantDigits_pos (d : Decimal) : 0 < d.significantDigits := List.length_pos_iff.mpr Nat.toDigits_ne_nil

theorem significantDigits_zero (exponent : Int) : significantDigits ⟨0, exponent⟩ = 1 := by
  rw [significantDigits, Nat.le_zero.mp (trim_le 0 exponent)]
  rfl

/-- How many digits there are depends on the value alone. -/
theorem significantDigits_congr {d e : Decimal} (h : d.value = e.value) :
    d.significantDigits = e.significantDigits := by
  have htrim : (trim d.coefficient d.exponent).value = (trim e.coefficient e.exponent).value := by
    rw [value_trim, value_trim]
    exact h
  have hzero : d.coefficient = 0 ↔ e.coefficient = 0 := by
    rw [← value_eq_zero_iff, h, value_eq_zero_iff]
  obtain ⟨m, i⟩ := d
  obtain ⟨n, j⟩ := e
  rcases Nat.eq_zero_or_pos m with rfl | hm
  · obtain rfl : n = 0 := hzero.mp rfl
    rw [significantDigits_zero, significantDigits_zero]
  · have hn : 0 < n := Nat.pos_of_ne_zero fun hn => Nat.ne_of_gt hm (hzero.mpr hn)
    have hexponent := le_antisymm (exponent_le_of_value_eq htrim.symm (trim_mod_ten j hn))
      (exponent_le_of_value_eq htrim (trim_mod_ten i hm))
    rw [value, value, hexponent, mul_left_inj' (zpow_ne_zero _ (by norm_num)), Nat.cast_inj] at htrim
    rw [significantDigits, significantDigits, htrim]

/-- A decimal that is rounded to a word, with no more digits than any other that is. -/
structure IsShortest (x : Binary64) (d : Decimal) : Prop where
  nearest : d.nearest = x
  fewest : ∀ e : Decimal, e.nearest = x → d.significantDigits ≤ e.significantDigits

theorem IsShortest.congr {x : Binary64} {d e : Decimal} (h : IsShortest x d) (hvalue : e.value = d.value) :
    IsShortest x e := by
  refine ⟨(nearest_congr hvalue).trans h.nearest, ?_⟩
  rw [significantDigits_congr hvalue]
  exact h.fewest

theorem IsShortest.trim {x : Binary64} {d : Decimal} (h : IsShortest x d) :
    IsShortest x (trim d.coefficient d.exponent) :=
  h.congr (value_trim d.coefficient d.exponent)

end Decimal

/-! ## Grids -/

namespace Binary64

section pick

variable {tie : Tie} {low rest step : Nat} {lowFits highFits : Bool}

theorem isSome_pick (h : lowFits = true ∨ highFits = true) :
    (tie.pick low rest step lowFits highFits).isSome := by
  cases lowFits <;> cases highFits <;> simp only [Tie.pick]
  case false.false => simp at h
  case true.true => split <;> rfl
  all_goals rfl

theorem eq_or_of_pick {c : Nat} (h : tie.pick low rest step lowFits highFits = some c) : c = low ∨ c = low + 1 := by
  cases lowFits <;> cases highFits <;> simp only [Tie.pick] at h
  case false.false => cases h
  case false.true => exact .inr (Option.some.inj h).symm
  case true.false => exact .inl (Option.some.inj h).symm
  case true.true =>
    split at h
    · exact .inl (Option.some.inj h).symm
    · exact .inr (Option.some.inj h).symm

end pick

variable {r : Nat} (h : r < infiniteRank)

include h

theorem readsBack_iff {count : Nat} :
    readsBack r count = true ↔ (Decimal.mk count (-places r)).nearest = ofRank r := by
  refine ⟨nearest_of_readsBack, fun hnearest => ?_⟩
  have hrank := congrArg rank hnearest
  rw [nearest_places, rank_nearest, rank_ofRank (Nat.lt_trans h (by decide))] at hrank
  rw [readsBack, hrank, beq_self_eq_true]

/-- What lies between two decimals that are rounded to a magnitude is rounded to it too. -/
theorem nearest_of_between {d e f : Decimal} (hd : d.nearest = ofRank r) (hf : f.nearest = ofRank r)
    (hde : d.value ≤ e.value) (hef : e.value ≤ f.value) : e.nearest = ofRank r := by
  have hlow := Decimal.rank_nearest_le hde
  have hhigh := Decimal.rank_nearest_le hef
  rw [hd] at hlow
  rw [hf] at hhigh
  rw [← ofRank_rank e.isNearest_nearest.positive, Nat.le_antisymm hhigh hlow, rank_ofRank (Nat.lt_trans h (by decide))]

theorem readsBack_of_between {a b c : Nat} (ha : readsBack r a = true) (hc : readsBack r c = true) (hab : a ≤ b)
    (hbc : b ≤ c) : readsBack r b = true := by
  rw [readsBack_iff h] at ha hc ⊢
  exact nearest_of_between h ha hc (Decimal.value_mono hab) (Decimal.value_mono hbc)

/-- A grid with a decimal that reads back has a neighbour of the expansion that does. -/
theorem isSome_neighbour? (tie : Tie) {step m : Nat} (hstep : 0 < step) (hm : readsBack r (m * step) = true) :
    (neighbour? tie r step).isSome := by
  have hexpansion := readsBack_expansion h
  apply isSome_pick
  rcases Nat.lt_or_ge (expansion r / step) m with hless | hge
  · right
    have habove : expansion r ≤ (expansion r / step + 1) * step := by
      rw [Nat.mul_comm]
      exact Nat.le_of_lt (Nat.lt_mul_div_succ _ hstep)
    exact readsBack_of_between h hexpansion hm habove (Nat.mul_le_mul_right step hless)
  · left
    exact readsBack_of_between h hm hexpansion (Nat.mul_le_mul_right step hge) (Nat.div_mul_le_self _ step)

/-! ## The search -/

/-- If a decimal of `n` digits reads back, then so does one on the grid on which `n` digits of the expansion are left:
the same, or the power of ten with which the expansion starts, which lies between the two. -/
theorem exists_readsBack {n length : Nat} {d : Decimal} (hd : d.nearest = ofRank r) (hn : 0 < n)
    (hless : d.coefficient < Nat.pow 10 n) (hlength : Nat.pow 10 (length - 1) ≤ expansion r) :
    ∃ m, readsBack r (m * Nat.pow 10 (length - n)) = true := by
  have hexpansion := readsBack_expansion h
  have hpow (a b : Nat) : Nat.pow 10 a * Nat.pow 10 b = Nat.pow 10 (a + b) := (Nat.pow_add 10 a b).symm
  rcases Nat.le_total length n with hlong | hshort
  · refine ⟨expansion r, ?_⟩
    rw [Nat.sub_eq_zero_of_le hlong]
    exact (congrArg (readsBack r) (Nat.mul_one _)).trans hexpansion
  · rcases le_or_gt ((length - n : Nat) : ℤ) (d.exponent + places r) with hfine | hcoarse
    · obtain ⟨k, hk⟩ : ∃ k : Nat, d.exponent = -places r + ((k + (length - n) : Nat) : ℤ) :=
        ⟨(d.exponent + places r - (length - n : Nat)).toNat, by omega⟩
      refine ⟨d.coefficient * Nat.pow 10 k, ?_⟩
      rw [readsBack_iff h, Nat.mul_assoc, hpow, ← hd]
      apply Decimal.nearest_congr
      rw [Decimal.value_mul_ten_pow, ← hk]
    · refine ⟨Nat.pow 10 (n - 1), ?_⟩
      have hstart : n - 1 + (length - n) = length - 1 := by omega
      have hbelow : d.value ≤ Decimal.value ⟨Nat.pow 10 (length - 1), -places r⟩ :=
        Decimal.value_le_value_ten_pow (Nat.le_of_lt hless) (by omega)
      have habove : Decimal.value ⟨Nat.pow 10 (length - 1), -places r⟩ ≤ Decimal.value ⟨expansion r, -places r⟩ :=
        Decimal.value_mono hlength
      rw [readsBack_iff h] at hexpansion ⊢
      rw [hpow, hstart]
      exact nearest_of_between h hd hexpansion hbelow habove

omit h

/-- From a grid on which the search succeeds, or any coarser one, it comes back with no more digits than that grid
leaves of the expansion. -/
theorem trim_searchFrom_lt (tie : Tie) {fine coarse length : Nat} (hexpansion : expansion r < Nat.pow 10 length)
    (hfound : (neighbour? tie r (Nat.pow 10 fine)).isSome) (hle : fine ≤ coarse) (hlength : coarse < length) :
    (Decimal.trim (searchFrom tie r coarse).coefficient (searchFrom tie r coarse).exponent).coefficient <
      Nat.pow 10 (length - fine) := by
  induction coarse with
  | zero =>
    rw [Nat.le_zero.mp hle]
    exact Nat.lt_of_le_of_lt (Decimal.trim_le ..) hexpansion
  | succ coarse ih =>
    rw [searchFrom]
    cases hnext : neighbour? tie r (Nat.pow 10 (coarse + 1)) with
    | none =>
      have hne : fine ≠ coarse + 1 := by
        rintro rfl
        rw [hnext] at hfound
        cases hfound
      exact ih (by omega) (by omega)
    | some c =>
      have hsplit : Nat.pow 10 length = Nat.pow 10 (coarse + 1) * Nat.pow 10 (length - (coarse + 1)) :=
        (congrArg _ (by omega)).trans (Nat.pow_add 10 (coarse + 1) (length - (coarse + 1)))
      have hgrid : expansion r / Nat.pow 10 (coarse + 1) < Nat.pow 10 (length - (coarse + 1)) :=
        Nat.div_lt_of_lt_mul (Nat.lt_of_lt_of_eq hexpansion hsplit)
      have hc : c ≤ Nat.pow 10 (length - (coarse + 1)) := by
        rcases eq_or_of_pick hnext with rfl | rfl
        · exact Nat.le_of_lt hgrid
        · exact hgrid
      exact Nat.lt_of_lt_of_le (Decimal.trim_lt_pow _ (Nat.sub_pos_of_lt hlength) hc)
        (Nat.pow_le_pow_right (by decide) (Nat.sub_le_sub_left hle length))

/-- The length of an expansion, by powers of ten. -/
theorem length_toDigits_bounds {n : Nat} (hn : 0 < n) :
    Nat.pow 10 ((Nat.toDigits 10 n).length - 1) ≤ n ∧ n < Nat.pow 10 (Nat.toDigits 10 n).length := by
  have hlength : 0 < (Nat.toDigits 10 n).length := List.length_pos_iff.mpr Nat.toDigits_ne_nil
  constructor
  · rcases Nat.eq_zero_or_pos ((Nat.toDigits 10 n).length - 1) with hzero | hpos
    · rw [hzero]
      exact hn
    · refine Nat.le_of_not_lt fun hless => ?_
      have := (Nat.length_toDigits_le_iff (by decide) hpos).mpr hless
      omega
  · exact (Nat.length_toDigits_le_iff (by decide) hlength).mp (Nat.le_refl _)

theorem expansion_pos (hr : 0 < r) : 0 < expansion r :=
  Nat.pos_of_mul_pos_right
    (Nat.lt_of_lt_of_eq (Nat.mul_pos (units_pos hr) (Nat.pow_pos (by decide))) (expansion_mul r).symm)

/-- No decimal that reads back has fewer digits. -/
theorem isShortest_shortest (tie : Tie) (h : r < infiniteRank) (hr : 0 < r) :
    (shortest tie r).IsShortest (ofRank r) := by
  refine ⟨nearest_shortest tie h, fun e he => ?_⟩
  have hn := e.significantDigits_pos
  have htrim : (Decimal.trim e.coefficient e.exponent).nearest = ofRank r :=
    (Decimal.nearest_congr (Decimal.value_trim ..)).trans he
  have hless := (Nat.length_toDigits_le_iff (by decide) hn).mp (Nat.le_refl e.significantDigits)
  obtain ⟨hstart, hlength⟩ := length_toDigits_bounds (expansion_pos hr)
  have hpos : 0 < (Nat.toDigits 10 (expansion r)).length := List.length_pos_iff.mpr Nat.toDigits_ne_nil
  obtain ⟨m, hm⟩ := exists_readsBack h htrim hn hless hstart
  have hfound := isSome_neighbour? h tie (Nat.pow_pos (by decide)) hm
  rw [Decimal.significantDigits, Nat.length_toDigits_le_iff (by decide) hn]
  refine Nat.lt_of_lt_of_le (trim_searchFrom_lt tie hlength hfound (by omega) (by omega)) ?_
  exact Nat.pow_le_pow_right (by decide) (by omega)

theorem isShortest_zero : (Decimal.mk 0 0).IsShortest (ofRank 0) := by
  refine ⟨Decimal.nearest_zero 0, fun e _ => ?_⟩
  rw [Decimal.significantDigits_zero]
  exact e.significantDigits_pos

end Binary64

end ScriptScan
