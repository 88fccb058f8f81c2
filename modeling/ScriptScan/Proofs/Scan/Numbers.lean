-- SUMMARY: The literal of a number token is the word nearest to what its lexeme says, digit by digit.
import ScriptScan.Proofs.Number.Nearest
import ScriptScan.Proofs.Scan.Run

/-!
# Number tokens

A numeral is read place by place, each digit counting for the power of ten of its place, however many there are. The
literal of a number token is that number, rounded once. A run of digits with or without a fraction always has a
value, so that no number of a source is ever refused.
-/

namespace ScriptScan

/-! ## Numerals -/

/-- The number that digits stand for, the first of them in the place of `10 ^ place`. -/
def placesValue (place : ℤ) : List Char → ℚ
  | [] => 0
  | c :: cs => (c.toNat - '0'.toNat : Nat) * 10 ^ place + placesValue (place - 1) cs

/-- The number of a numeral: the last digit of its whole part counts the ones. -/
def numeralValue (whole fraction : List Char) : ℚ := placesValue (whole.length - 1) (whole ++ fraction)

/-- The last of the digits tells what all of them together count. -/
theorem placesValue_eq (place : ℤ) (digits : List Char) :
    placesValue place digits = Nat.ofDigitChars 10 digits 0 * 10 ^ (place + 1 - digits.length) := by
  induction digits generalizing place with
  | nil => rw [placesValue, Nat.ofDigitChars_nil, Nat.cast_zero, zero_mul]
  | cons c cs ih =>
    have hlast : place - 1 + 1 - cs.length = place + 1 - (cs.length + 1 : Nat) := by
      rw [Nat.cast_succ]
      ring
    have hfirst : (10 : ℚ) ^ place = 10 ^ cs.length * 10 ^ (place + 1 - (cs.length + 1 : Nat)) := by
      rw [← zpow_natCast, ← zpow_add₀ (by norm_num)]
      congr 1
      rw [Nat.cast_succ]
      ring
    have hdigits : Nat.ofDigitChars 10 (c :: cs) 0 =
        10 ^ cs.length * (c.toNat - '0'.toNat) + Nat.ofDigitChars 10 cs 0 := by
      rw [Nat.ofDigitChars_cons, Nat.mul_zero, Nat.zero_add]
      exact Nat.ofDigitChars_eq_ofDigitChars_zero
    rw [placesValue, ih, hlast, hfirst, hdigits, List.length_cons]
    push_cast
    ring

theorem Decimal.value_ofDigits (whole fraction : List Char) :
    (Decimal.ofDigits whole fraction).value = numeralValue whole fraction := by
  have hplaces : (whole.length : ℤ) - 1 + 1 - (whole ++ fraction).length = -fraction.length := by
    rw [List.length_append, Nat.cast_add]
    ring
  rw [numeralValue, placesValue_eq, hplaces, value, ofDigits]

/-! ## Literals -/

/-- The lexeme of a number token is a numeral, and its literal the word nearest to the number of it. -/
theorem exists_numeral {source : String} {t : Token} (ht : t ∈ (scan source).tokens.toList)
    (hkind : t.kind = .number) :
    ∃ whole fraction, whole ≠ [] ∧ (∀ c ∈ whole ++ fraction, c.isDigit) ∧
      t.lexeme.toList = (Segment.number whole fraction).text ∧
      t.literal = .number (Decimal.ofDigits whole fraction).nearest := by
  rw [scan, tokens_scanInto, List.mem_append, List.mem_singleton] at ht
  rcases ht with ht | rfl
  · cases shaped_of_mem_tokensFrom ht with
    | number nonempty digits places =>
      exact ⟨_, _, nonempty, List.forall_mem_append.mpr ⟨digits, places⟩, String.toList_ofList, rfl⟩
    | fixed symbol =>
      obtain rfl : _ = Kind.number := hkind
      exact absurd rfl symbol
    | string => cases hkind
  · cases hkind

/-- A number always has a value. -/
theorem yield_ne_invalidNumber {text : List Char} {s : Segment} (hs : s ∈ segments text) (lexeme : String) :
    s.yield ≠ .error (.invalidNumber lexeme) := by
  obtain ⟨rest, hfits⟩ := fits_of_mem_segments hs
  cases hfits with
  | number nonempty digits places => simp [Segment.yield, read?_number nonempty digits places]
  | fixed | blank | comment | string | unexpected | unterminated => simp [Segment.yield]

theorem code_ne_invalidNumber {source : String} {d : Diagnostic} (hd : d ∈ (scan source).diagnostics) :
    d.code ≠ Template.invalidNumber.code := by
  rw [diagnostics_scan] at hd
  obtain ⟨f, hf, rfl⟩ := List.mem_map.mp hd
  obtain ⟨xs, s, ys, -, hgive⟩ := mem_alongLines.mp hf
  cases s with
  | unexpected =>
    obtain rfl := List.mem_singleton.mp hgive
    exact (by decide : Template.unexpectedCharacter.code ≠ Template.invalidNumber.code)
  | unterminated =>
    obtain rfl := List.mem_singleton.mp hgive
    exact (by decide : Template.unterminatedString.code ≠ Template.invalidNumber.code)
  | fixed | blank | comment | string | number => cases hgive

/-- The literal of a number token is the word nearest to the number that its lexeme says, and no other: never a NaN,
never negative, infinity from half a step past the largest finite number on, and zero up to half the least one.
No number of a source is refused. -/
theorem scan_numbers_nearest (source : String) :
    (∀ t ∈ (scan source).tokens.toList, t.kind = .number →
      ∃ whole fraction x, whole ≠ [] ∧ (∀ c ∈ whole ++ fraction, c.isDigit) ∧
        t.lexeme.toList = (Segment.number whole fraction).text ∧ t.literal = .number x ∧
        (∀ y, Binary64.IsNearest (numeralValue whole fraction) y ↔ y = x) ∧
        x.isNaN = false ∧ x.negative = false ∧
        (x = Binary64.infinity ↔ Binary64.overflow ≤ numeralValue whole fraction) ∧
        (x = ⟨0⟩ ↔ numeralValue whole fraction ≤ 1 / 2 ^ 1075)) ∧
      (∀ s ∈ segments source.toList, ∀ lexeme, s.yield ≠ .error (.invalidNumber lexeme)) ∧
      ∀ d ∈ (scan source).diagnostics, d.code ≠ 1003 := by
  refine ⟨?_, fun s => yield_ne_invalidNumber, fun d => code_ne_invalidNumber⟩
  intro t ht hkind
  obtain ⟨whole, fraction, nonempty, digits, hlexeme, hliteral⟩ := exists_numeral ht hkind
  have hnearest := (Decimal.ofDigits whole fraction).isNearest_nearest
  have hpositive := (Decimal.ofDigits whole fraction).value_nonneg
  rw [Decimal.value_ofDigits] at hnearest hpositive
  refine ⟨whole, fraction, _, nonempty, digits, hlexeme, hliteral, ?_, ?_, hnearest.positive, hnearest.eq_infinity_iff,
    hnearest.eq_zero_iff hpositive⟩
  · intro y
    constructor
    · exact fun hy => hy.unique hnearest
    · rintro rfl
      exact hnearest
  · simp [Decimal.nearest, Binary64.isNaN, Binary64.rank_nearest, Binary64.nearestRank_le]

/-- Halfway between two words, and one part in ten to the thirtieth past it. -/
example : (scan "9007199254740993").tokens.toList.map Token.literal =
      [.number ⟨0x4340000000000000⟩, .none] ∧
    (scan "9007199254740993.000000000000000000000000000001").tokens.toList.map Token.literal =
      [.number ⟨0x4340000000000001⟩, .none] := by
  decide +kernel

end ScriptScan
