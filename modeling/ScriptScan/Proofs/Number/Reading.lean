-- SUMMARY: The text of a finite number reads back, as a number of JSON, to the same word.
import ScriptScan.Proofs.Number.Layout
import ScriptScan.Proofs.Number.Minimal
import ScriptScan.Proofs.Text.Json

/-!
# Numbers read back

A number is written with digits that round to it. The reader of JSON finds the decimal of these digits again,
whichever notation they are written in.
-/

namespace ScriptScan

open Json

/-! ## Numerals -/

namespace IsNumeral

variable {text whole fraction : List Char} (h : IsNumeral text whole fraction)

include h

theorem isDigit_or {c : Char} (hc : c ∈ text) : c.isDigit ∨ c = '.' := by
  rw [h.text_eq] at hc
  cases fraction with
  | nil => exact .inl (h.digits c hc)
  | cons d fraction =>
    rw [Segment.text, List.mem_append, List.mem_cons] at hc
    rcases hc with hc | rfl | hc
    · exact .inl (h.digits c hc)
    · exact .inr rfl
    · exact .inl (h.places c hc)

theorem not_isExponentMark : ∀ c ∈ text, (!isExponentMark c) = true := by
  intro c hc
  rw [Bool.not_eq_true', Bool.eq_false_iff]
  intro hmark
  simp only [isExponentMark, Bool.or_eq_true, beq_iff_eq] at hmark
  rcases h.isDigit_or hc with hdigit | rfl
  · rcases hmark with rfl | rfl <;> exact absurd hdigit (by decide)
  · exact absurd hmark (by decide)

theorem isWordChar : ∀ c ∈ text, isWordChar c := by
  intro c hc
  rcases h.isDigit_or hc with hdigit | rfl
  · exact isWordChar_of_isDigit hdigit
  · decide

theorem hasSpareZero : hasSpareZero text = false := by
  rw [h.text_eq]
  by_cases hzero : whole.head? = some '0'
  · rw [h.lean hzero]
    cases fraction <;> rfl
  · unfold Json.hasSpareZero
    split
    · rename_i c rest htext
      -- the text begins as the digits before the point do
      have hhead : (Segment.number whole fraction).text.head? = whole.head? := by
        cases fraction with
        | nil => rfl
        | cons d fraction => exact List.head?_append_of_ne_nil _ h.nonempty
      rw [htext] at hhead
      exact absurd hhead.symm hzero
    · rfl

end IsNumeral

/-! ## Notations -/

section

variable {text whole fraction : List Char} (h : IsNumeral text whole fraction)

include h

theorem magnitude?_numeral : magnitude? text = some (Decimal.ofDigits whole fraction) := by
  have htake : text.takeWhile (!isExponentMark ·) = text := List.takeWhile_eq_self_iff.mpr h.not_isExponentMark
  have hdrop : text.dropWhile (!isExponentMark ·) = [] := List.dropWhile_eq_nil_iff.mpr h.not_isExponentMark
  simp [magnitude?, htake, hdrop, h.hasSpareZero, h.read?]

theorem magnitude?_exponent (exponent : List Char) :
    magnitude? (text ++ 'e' :: exponent) = (exponent? exponent).map fun e =>
      ⟨(Decimal.ofDigits whole fraction).coefficient, (Decimal.ofDigits whole fraction).exponent + e⟩ := by
  have htake : (text ++ 'e' :: exponent).takeWhile (!isExponentMark ·) = text := by
    rw [List.takeWhile_append_of_pos h.not_isExponentMark, List.takeWhile_cons_of_neg (by decide), List.append_nil]
  have hdrop : (text ++ 'e' :: exponent).dropWhile (!isExponentMark ·) = 'e' :: exponent := by
    rw [List.dropWhile_append_of_pos h.not_isExponentMark, List.dropWhile_cons_of_neg (by decide)]
  simp [magnitude?, htake, hdrop, h.hasSpareZero, h.read?]

end

theorem exponent?_toDigits (e : Int) :
    exponent? ((if e < 0 then '-' else '+') :: Nat.toDigits 10 e.natAbs) = some e := by
  have hread : digits? (Nat.toDigits 10 e.natAbs) = some e.natAbs := by
    have hall : (Nat.toDigits 10 e.natAbs).all Char.isDigit = true := List.all_eq_true.mpr isDigit_toDigits
    simp [digits?, hall, Nat.toDigits_ne_nil, Nat.ofDigitChars_ten_toDigits]
  split
  · rw [exponent?, hread, Option.map_some, Int.negOfNat_eq, Int.ofNat_eq_natCast]
    exact congrArg some (by omega)
  · rw [exponent?, hread, Option.map_some, Int.ofNat_eq_natCast]
    exact congrArg some (by omega)

/-- A text of word characters that reads as a number of some value. -/
structure ReadsAs (text : List Char) (value : ℚ) : Prop where
  word : ∀ c ∈ text, isWordChar c
  reads : ∃ d, magnitude? text = some d ∧ d.value = value

namespace NumberFormat

variable (format : NumberFormat)

theorem readsAs_layout {d : Decimal} (h : d.coefficient = 0 → d.exponent ≤ 0) :
    ReadsAs (format.layout d) d.value := by
  rw [layout]
  split
  · obtain ⟨whole, fraction, hnumeral, hvalue⟩ := plain_toDigits format.keepsPoint h
    exact ⟨hnumeral.isWordChar, _, magnitude?_numeral hnumeral, hvalue⟩
  · generalize hleading : d.exponent + ((Nat.toDigits 10 d.coefficient).length - 1 : Nat) = leading
    obtain ⟨mantissa, whole, fraction, htext, hnumeral, hdecimal⟩ := scientific_toDigits d.coefficient leading
    refine ⟨?_, ?_⟩
    · have hsign : Json.isWordChar (if leading < 0 then '-' else '+') = true := by split <;> rfl
      intro c hc
      rw [htext, List.mem_append, List.mem_cons, List.mem_cons] at hc
      rcases hc with hc | rfl | rfl | hc
      · exact hnumeral.isWordChar c hc
      · rfl
      · exact hsign
      · exact isWordChar_of_isDigit (isDigit_toDigits c hc)
    · refine ⟨_, by rw [htext, magnitude?_exponent hnumeral, exponent?_toDigits, Option.map_some], ?_⟩
      have hexponent : -(((Nat.toDigits 10 d.coefficient).length - 1 : Nat) : Int) + leading = d.exponent := by
        omega
      rw [hdecimal, hexponent]

/-- The text of a magnitude is the layout of a shortest decimal. -/
theorem magnitude_eq_layout {r : Nat} (h : r < Binary64.infiniteRank) :
    ∃ d : Decimal, format.magnitude r = format.layout d ∧ (d.coefficient = 0 → d.exponent ≤ 0) ∧
      d.IsShortest (Binary64.ofRank r) := by
  rcases Nat.eq_zero_or_pos r with rfl | hr
  · refine ⟨⟨0, 0⟩, ?_, fun _ => Int.le_refl 0, Binary64.isShortest_zero⟩
    rw [magnitude, if_pos rfl]
  · have hshortest := Binary64.isShortest_shortest format.tie h hr
    have hpos := Decimal.trim_pos (Binary64.shortest format.tie r).exponent
      (Binary64.coefficient_pos hr h hshortest.nearest)
    refine ⟨_, ?_, fun hzero => absurd hzero (Nat.ne_of_gt hpos), hshortest.trim⟩
    rw [magnitude, if_neg (Nat.ne_of_gt hr)]

theorem readsAs_magnitude {r : Nat} (h : r < Binary64.infiniteRank) :
    ∃ d : Decimal, ReadsAs (format.magnitude r) d.value ∧ d.IsShortest (Binary64.ofRank r) := by
  obtain ⟨d, hlayout, hzero, hshortest⟩ := format.magnitude_eq_layout h
  rw [hlayout]
  exact ⟨d, format.readsAs_layout hzero, hshortest⟩

theorem toList_render {x : Binary64} (h : x.rank < Binary64.infiniteRank) :
    (format.render x).toList = (if x.negative then ['-'] else []) ++ format.magnitude x.rank := by
  have hnan : x.isNaN = false := by simpa [Binary64.isNaN] using Nat.le_of_lt h
  have hinfinite : x.isInfinite = false := by simpa [Binary64.isInfinite] using Nat.ne_of_lt h
  simp only [render, hnan, hinfinite, Bool.false_eq_true, if_false, String.toList_ofList]

end NumberFormat

/-! ## Words -/

theorem isDigit_of_magnitude? {cs : List Char} {d : Decimal} (h : magnitude? cs = some d) :
    ∃ c rest, cs = c :: rest ∧ c.isDigit := by
  have hmantissa : ∃ e, Decimal.read? (cs.takeWhile (!isExponentMark ·)) = some e := by
    unfold magnitude? at h
    dsimp only at h
    split at h
    · cases h
    · split at h
      · exact ⟨d, h⟩
      · obtain ⟨e, he, -⟩ := Option.bind_eq_some_iff.mp h
        exact ⟨e, he⟩
  obtain ⟨e, he⟩ := hmantissa
  cases cs with
  | nil => cases he
  | cons c rest =>
    refine ⟨c, rest, rfl, ?_⟩
    by_contra hc
    rw [List.takeWhile_cons] at he
    split at he
    · simp [Decimal.read?, hc] at he
    · cases he

/-- A number with a digit in front is no other word. -/
theorem word?_of_magnitude? {cs : List Char} {d : Decimal} (h : magnitude? cs = some d) :
    word? cs = some (.number false d) := by
  obtain ⟨c, rest, rfl, hc⟩ := isDigit_of_magnitude? h
  unfold word?
  split
  · rename_i heq
    cases heq
    cases hc
  · have hname {e : Char} {name : List Char} (he : e.isDigit = false) : c :: rest ≠ e :: name := by
      intro heq
      cases heq
      rw [hc] at he
      cases he
    rw [if_neg (hname rfl), if_neg (hname rfl), if_neg (hname rfl), h]
    rfl

namespace Binary64

/-- The word of a magnitude, with a sign. -/
def signed (negative : Bool) (x : Binary64) : Binary64 :=
  if negative then ⟨UInt64.ofNat (signWeight + x.rank)⟩ else ofRank x.rank

theorem signed_ofRank (x : Binary64) : signed x.negative (ofRank x.rank) = x := by
  have hweight : signWeight = 9223372036854775808 := rfl
  have hrank : (ofRank x.rank).rank = x.rank := rank_ofRank (Nat.mod_lt _ (by decide))
  have hword (n : Nat) (h : n = x.bits.toNat) : (⟨UInt64.ofNat n⟩ : Binary64) = x := by
    rw [h, UInt64.ofNat_toNat]
  rw [signed, hrank]
  split
  · rename_i hnegative
    have hbound : x.bits.toNat < 18446744073709551616 := x.bits.toNat_lt
    simp only [negative, decide_eq_true_eq, hweight] at hnegative
    refine hword _ ?_
    rw [rank, hweight]
    omega
  · rename_i hnegative
    simp only [negative, decide_eq_true_eq, hweight] at hnegative
    refine hword _ ?_
    rw [rank, hweight]
    omega

end Binary64

/-- A finite word reads back, whatever its format. -/
theorem NumberFormat.word?_render (format : NumberFormat) {x : Binary64} (h : x.rank < Binary64.infiniteRank) :
    (∀ c ∈ (format.render x).toList, isWordChar c) ∧
      ∃ d, word? (format.render x).toList = some (.number x.negative d) ∧
        Binary64.signed x.negative d.nearest = x := by
  obtain ⟨e, ⟨hword, d, hread, hvalue⟩, hshortest⟩ := format.readsAs_magnitude h
  have hsigned : Binary64.signed x.negative d.nearest = x := by
    rw [Decimal.nearest_congr hvalue, hshortest.nearest, Binary64.signed_ofRank]
  rw [format.toList_render h]
  cases hnegative : x.negative with
  | false =>
    rw [hnegative] at hsigned
    exact ⟨hword, d, word?_of_magnitude? hread, hsigned⟩
  | true =>
    rw [hnegative] at hsigned
    refine ⟨List.forall_mem_cons.mpr ⟨rfl, hword⟩, d, ?_, hsigned⟩
    rw [if_pos rfl, List.singleton_append, word?, hread]
    rfl

theorem word?_toDigits (n : Nat) : word? (Nat.toDigits 10 n) = some (.number false ⟨n, 0⟩) := by
  have hnumeral := IsNumeral.integer Nat.toDigits_ne_nil isDigit_toDigits (lean_toDigits n)
  rw [word?_of_magnitude? (magnitude?_numeral hnumeral), Decimal.ofDigits, List.append_nil,
    Nat.ofDigitChars_ten_toDigits]
  rfl

end ScriptScan
