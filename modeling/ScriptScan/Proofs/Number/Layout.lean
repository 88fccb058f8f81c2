-- SUMMARY: The texts that numbers are laid out in are numerals of the same value.
import Mathlib.Data.List.Basic
import ScriptScan.Number.Format
import ScriptScan.Proofs.Scan.Run
import ScriptScan.Proofs.Number.Shortest

/-!
# Layouts

Positional notation is a numeral, and so is what stands before the exponent in scientific notation. Neither has
a zero to spare in front.
-/

namespace ScriptScan

/-! ## Digits -/

theorem isDigit_toDigits {n : Nat} : ∀ c ∈ Nat.toDigits 10 n, c.isDigit :=
  fun _ => Nat.isDigit_of_mem_toDigits (by decide) (by decide)

/-- Only the digits of zero begin with a zero. -/
theorem eq_zero_of_head?_toDigits {n : Nat} (h : (Nat.toDigits 10 n).head? = some '0') : n = 0 := by
  induction n using Nat.strongRecOn with
  | ind n ih =>
    rw [Nat.toDigits_eq_if (by decide)] at h
    split at h
    · exact Nat.digitChar_eq_zero.mp (Option.some.inj h)
    · rw [List.head?_append_of_ne_nil _ Nat.toDigits_ne_nil] at h
      have := ih (n / 10) (by omega) h
      omega

theorem lean_toDigits (n : Nat) (h : (Nat.toDigits 10 n).head? = some '0') : Nat.toDigits 10 n = ['0'] := by
  rw [eq_zero_of_head?_toDigits h]
  rfl

theorem isDigit_zeros (n : Nat) : ∀ c ∈ List.replicate n '0', c.isDigit := by
  intro c hc
  rw [List.eq_of_mem_replicate hc]
  rfl

namespace Decimal

/-- Zeros behind a number shift its value. -/
theorem value_ofDigits_zeros (digits : List Char) (n : Nat) :
    (ofDigits (digits ++ List.replicate n '0') []).value = value ⟨Nat.ofDigitChars 10 digits 0, n⟩ := by
  have hcoefficient : Nat.ofDigitChars 10 (digits ++ List.replicate n '0') 0 =
      Nat.ofDigitChars 10 digits 0 * Nat.pow 10 n := by
    rw [Nat.ofDigitChars_append, Nat.ofDigitChars_replicate_zero, Nat.mul_comm]
    rfl
  rw [ofDigits, List.append_nil, hcoefficient, value_mul_ten_pow]
  simp

/-- A zero after the point has no value. -/
theorem value_ofDigits_point (whole : List Char) : (ofDigits whole ['0']).value = (ofDigits whole []).value := by
  have hcoefficient : Nat.ofDigitChars 10 (whole ++ ['0']) 0 = Nat.ofDigitChars 10 whole 0 * Nat.pow 10 1 := by
    simp [Nat.ofDigitChars_append, Nat.ofDigitChars_cons, Nat.mul_comm]
  rw [ofDigits, hcoefficient, value_mul_ten_pow]
  simp [ofDigits]

end Decimal

/-! ## Numerals -/

/-- A text that is made of the digits of a number. There is no zero in front but one before a point. -/
structure IsNumeral (text whole fraction : List Char) : Prop where
  text_eq : text = (Segment.number whole fraction).text
  nonempty : whole ≠ []
  digits : ∀ c ∈ whole, c.isDigit
  places : ∀ c ∈ fraction, c.isDigit
  lean : whole.head? = some '0' → whole = ['0']

namespace IsNumeral

theorem read? {text whole fraction : List Char} (h : IsNumeral text whole fraction) :
    Decimal.read? text = some (Decimal.ofDigits whole fraction) := by
  rw [h.text_eq, read?_number h.nonempty h.digits h.places]

section

variable {digits fraction : List Char} (nonempty : digits ≠ []) (hdigits : ∀ c ∈ digits, c.isDigit)

include nonempty hdigits

theorem integer (lean : digits.head? = some '0' → digits = ['0']) : IsNumeral digits digits [] :=
  ⟨rfl, nonempty, hdigits, by simp, lean⟩

theorem pointed (lean : digits.head? = some '0' → digits = ['0']) (places : ∀ c ∈ fraction, c.isDigit)
    (h : fraction ≠ []) : IsNumeral (digits ++ '.' :: fraction) digits fraction := by
  refine ⟨?_, nonempty, hdigits, places, lean⟩
  cases fraction with
  | nil => exact absurd rfl h
  | cons d fraction => rfl

/-- Zeros behind the digits, and perhaps one after a point. -/
theorem zeros_behind (keepsPoint : Bool) {n : Nat} (lean : digits.head? = some '0' → digits = ['0'] ∧ n = 0) :
    IsNumeral (digits ++ List.replicate n '0' ++ (if keepsPoint then ['.', '0'] else []))
      (digits ++ List.replicate n '0') (if keepsPoint then ['0'] else []) := by
  have hne : digits ++ List.replicate n '0' ≠ [] := List.append_ne_nil_of_left_ne_nil nonempty _
  have hwhole : ∀ c ∈ digits ++ List.replicate n '0', c.isDigit :=
    List.forall_mem_append.mpr ⟨hdigits, isDigit_zeros n⟩
  have hlean : (digits ++ List.replicate n '0').head? = some '0' → digits ++ List.replicate n '0' = ['0'] := by
    rw [List.head?_append_of_ne_nil _ nonempty]
    intro hhead
    obtain ⟨rfl, rfl⟩ := lean hhead
    rfl
  cases keepsPoint with
  | false => simpa using integer hne hwhole hlean
  | true => exact pointed hne hwhole hlean (isDigit_zeros 1) (by simp)

/-- A point among the digits. -/
theorem point_among (lean : digits.head? = some '0' → digits = ['0']) {cut : Nat} (hcut : 0 < cut)
    (hless : cut < digits.length) :
    IsNumeral (digits.take cut ++ '.' :: digits.drop cut) (digits.take cut) (digits.drop cut) := by
  refine pointed ?_ (fun c hc => hdigits c (List.mem_of_mem_take hc)) ?_
    (fun c hc => hdigits c (List.mem_of_mem_drop hc)) ?_
  · simp [nonempty, Nat.ne_of_gt hcut]
  · intro hhead
    rw [List.head?_take, if_neg (Nat.ne_of_gt hcut)] at hhead
    rw [lean hhead, List.take_of_length_le hcut]
  · simpa using hless

/-- A point in front, and zeros from there on. -/
theorem zeros_before (n : Nat) :
    IsNumeral ('0' :: '.' :: (List.replicate n '0' ++ digits)) ['0'] (List.replicate n '0' ++ digits) :=
  pointed (List.cons_ne_nil '0' []) (isDigit_zeros 1) (fun _ => rfl)
    (List.forall_mem_append.mpr ⟨isDigit_zeros n, hdigits⟩) (List.append_ne_nil_of_right_ne_nil _ nonempty)

end

end IsNumeral

/-! ## Notations -/

namespace NumberFormat

theorem plain_toDigits (keepsPoint : Bool) {coefficient : Nat} {exponent : Int}
    (h : coefficient = 0 → exponent ≤ 0) :
    ∃ whole fraction, IsNumeral (plain keepsPoint (Nat.toDigits 10 coefficient) exponent) whole fraction ∧
      (Decimal.ofDigits whole fraction).value = Decimal.value ⟨coefficient, exponent⟩ := by
  have hcoefficient : Nat.ofDigitChars 10 (Nat.toDigits 10 coefficient) 0 = coefficient :=
    Nat.ofDigitChars_ten_toDigits
  have hnonempty : Nat.toDigits 10 coefficient ≠ [] := Nat.toDigits_ne_nil
  have hlean := lean_toDigits coefficient
  have hdigits := @isDigit_toDigits coefficient
  rw [plain]
  split
  · rename_i hexponent
    refine ⟨_, _, IsNumeral.zeros_behind hnonempty hdigits keepsPoint ?_, ?_⟩
    · intro hhead
      exact ⟨hlean hhead, Int.toNat_eq_zero.mpr (h (eq_zero_of_head?_toDigits hhead))⟩
    · have hvalue :
          (Decimal.ofDigits (Nat.toDigits 10 coefficient ++ List.replicate exponent.toNat '0') []).value =
            Decimal.value ⟨coefficient, exponent⟩ := by
        rw [Decimal.value_ofDigits_zeros, hcoefficient, Int.toNat_of_nonneg hexponent]
      cases keepsPoint with
      | false => exact hvalue
      | true => exact (Decimal.value_ofDigits_point _).trans hvalue
  · rename_i hexponent
    generalize Nat.toDigits 10 coefficient = digits at *
    have hplaces : -((-exponent).toNat : Int) = exponent := by omega
    dsimp only
    split
    · rename_i hless
      refine ⟨_, _, IsNumeral.point_among hnonempty hdigits hlean (Nat.sub_pos_of_lt hless) (by omega), ?_⟩
      have hlength : (digits.drop (digits.length - (-exponent).toNat)).length = (-exponent).toNat := by
        rw [List.length_drop]
        omega
      rw [Decimal.ofDigits, List.take_append_drop, hcoefficient, hlength, hplaces]
    · rename_i hless
      refine ⟨_, _, IsNumeral.zeros_before hnonempty hdigits _, ?_⟩
      have hlength :
          (List.replicate ((-exponent).toNat - digits.length) '0' ++ digits).length = (-exponent).toNat := by
        rw [List.length_append, List.length_replicate]
        omega
      rw [Decimal.ofDigits, hlength, hplaces, ← hcoefficient]
      simp [Nat.ofDigitChars_append, Nat.ofDigitChars_cons, Nat.ofDigitChars_replicate_zero]

/-- Scientific notation is a numeral with one digit before the point, and an exponent. -/
theorem scientific_toDigits (coefficient : Nat) (leading : Int) :
    ∃ mantissa whole fraction,
      scientific (Nat.toDigits 10 coefficient) leading =
        mantissa ++ 'e' :: (if leading < 0 then '-' else '+') :: Nat.toDigits 10 leading.natAbs ∧
      IsNumeral mantissa whole fraction ∧
      Decimal.ofDigits whole fraction =
        ⟨coefficient, -(((Nat.toDigits 10 coefficient).length - 1 : Nat) : Int)⟩ := by
  have hcoefficient : Nat.ofDigitChars 10 (Nat.toDigits 10 coefficient) 0 = coefficient :=
    Nat.ofDigitChars_ten_toDigits
  have hnonempty : Nat.toDigits 10 coefficient ≠ [] := Nat.toDigits_ne_nil
  have hlean := lean_toDigits coefficient
  have hdigits := @isDigit_toDigits coefficient
  generalize Nat.toDigits 10 coefficient = digits at *
  refine ⟨digits.take 1 ++ (if digits.length ≤ 1 then [] else '.' :: digits.drop 1), digits.take 1,
    digits.drop 1, ?_, ?_, ?_⟩
  · simp [scientific]
  · split
    · rename_i hlength
      rw [List.append_nil, List.take_of_length_le hlength, List.drop_of_length_le hlength]
      exact IsNumeral.integer hnonempty hdigits hlean
    · rename_i hlength
      exact IsNumeral.point_among hnonempty hdigits hlean Nat.one_pos (Nat.lt_of_not_le hlength)
  · rw [Decimal.ofDigits, List.take_append_drop, hcoefficient, List.length_drop]

end NumberFormat

end ScriptScan
