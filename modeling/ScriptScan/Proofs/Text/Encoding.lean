-- SUMMARY: The bytes that decode are those of texts, each decoding to the text that it encodes.
import Mathlib.Algebra.Group.Nat.Defs
import ScriptScan.Proofs.Output.Sink
import ScriptScan.Proofs.Text.Lines
import ScriptScan.Proofs.Text.Utf8

/-!
# Decoding is the inverse of encoding

A character is read from the bytes that encode it, and from no others. The bits of its value are divided in the
same way on both sides, six of them to a continuation byte; what a first byte announces are the values that are
encoded in as many bytes and begin with its bits.
-/

namespace ScriptScan.Utf8

theorem ofNat_eq_iff {n : Nat} (h : n.isValidChar) {c : Char} : Char.ofNat n = c ↔ c.toNat = n := by
  constructor
  · rintro rfl
    rw [Char.ofNat, dif_pos h]
    rfl
  · rintro rfl
    exact Char.ofNat_toNat c

theorem eq_ofNat_iff {b : UInt8} {n : Nat} (h : n < 256) : b = UInt8.ofNat n ↔ b.toNat = n := by
  rw [← UInt8.toNat_inj, UInt8.toNat_ofNat_of_lt' h]

/-! ## Continuation bytes -/

/-- The last bits of a value, six to a byte. -/
def tailBytes (value : Nat) : Nat → List UInt8
  | 0 => []
  | k + 1 => UInt8.ofNat (0x80 + value / 64 ^ k % 64) :: tailBytes value k

/-- The first of some continuation bytes lies between `low` and `high`. -/
def InRange (value low high : Nat) : Nat → Prop
  | 0 => True
  | k + 1 => low ≤ 0x80 + value / 64 ^ k % 64 ∧ 0x80 + value / 64 ^ k % 64 ≤ high

theorem inRange_all (value following : Nat) : InRange value 0x80 0xBF following := by
  cases following with
  | zero => trivial
  | succ k => exact ⟨by omega, by omega⟩

/-- Reading continuation bytes finds a value that begins with the payload and ends in those bytes. -/
theorem readTail_eq_some_iff {payload low high following : Nat} {bytes rest : List UInt8} {c : Char}
    (hlow : 0x80 ≤ low) (hhigh : high ≤ 0xBF) :
    readTail payload low high following bytes = (some c, rest) ↔
      ∃ value, Char.ofNat value = c ∧ value / 64 ^ following = payload ∧ InRange value low high following ∧
        bytes = tailBytes value following ++ rest := by
  induction following generalizing payload low high bytes with
  | zero =>
    simp only [readTail, Prod.mk.injEq, Option.some.injEq, InRange, tailBytes, List.nil_append, true_and]
    constructor
    · rintro ⟨hc, hrest⟩
      exact ⟨payload, hc, Nat.div_one payload, hrest⟩
    · rintro ⟨value, hc, hpayload, hrest⟩
      exact ⟨hpayload ▸ (Nat.div_one value).symm ▸ hc, hrest⟩
  | succ k ih =>
    have hdiv (value : Nat) : value / 64 ^ (k + 1) = value / 64 ^ k / 64 := by
      rw [Nat.pow_succ, Nat.div_div_eq_div_mul]
    cases bytes with
    | nil => simp [readTail, tailBytes]
    | cons b bytes =>
      simp only [readTail, tailBytes, InRange, List.cons_append, List.cons.injEq, hdiv]
      constructor
      · intro h
        split at h
        · next hb =>
          obtain ⟨value, hc, hpayload, -, rfl⟩ := (ih (Nat.le_refl _) (Nat.le_refl _)).mp h
          refine ⟨value, hc, by omega, by omega, ?_, rfl⟩
          rw [eq_ofNat_iff (by omega)]
          omega
        · simp at h
      · rintro ⟨value, hc, hpayload, hrange, hb, rfl⟩
        rw [eq_ofNat_iff (by omega)] at hb
        rw [if_pos (by omega), ih (Nat.le_refl _) (Nat.le_refl _)]
        exact ⟨value, hc, by omega, inRange_all value k, rfl⟩

/-! ## First bytes -/

theorem utf8EncodeChar_eq_tailBytes (c : Char) :
    String.utf8EncodeChar c =
      if c.toNat < 0x80 then UInt8.ofNat c.toNat :: tailBytes c.toNat 0
      else if c.toNat < 0x800 then UInt8.ofNat (0xC0 + c.toNat / 64) :: tailBytes c.toNat 1
      else if c.toNat < 0x10000 then UInt8.ofNat (0xE0 + c.toNat / 64 ^ 2) :: tailBytes c.toNat 2
      else UInt8.ofNat (0xF0 + c.toNat / 64 ^ 3) :: tailBytes c.toNat 3 := by
  have hvalid : c.toNat.isValidChar := c.valid
  simp only [Nat.isValidChar] at hvalid
  have hval : c.val.toNat = c.toNat := rfl
  simp only [String.utf8EncodeChar, hval, tailBytes]
  generalize c.toNat = v at *
  have h1 : v < 0x800 → v / 64 % 32 = v / 64 := fun _ => by omega
  have h2 : v < 0x10000 → v / 4096 % 16 = v / 4096 := fun _ => by omega
  have h3 : v / 262144 % 8 = v / 262144 := by omega
  grind

/-- A first byte announces a value if that begins with its payload and goes on in its range. -/
structure Lead.Announces (lead : Lead) (value : Nat) : Prop where
  payload : value / 64 ^ lead.following = lead.payload
  range : InRange value lead.low lead.high lead.following

section lead

variable {b : UInt8} {lead : Lead}

/-- The ranges leave out surrogates and what is beyond the last character. -/
theorem Lead.Announces.isValidChar {value : Nat} (h : lead.Announces value)
    (hlead : Lead.ofByte? b = some lead) : value.isValidChar := by
  obtain ⟨hpayload, hrange⟩ := h
  simp only [Lead.ofByte?] at hlead
  repeat' split at hlead
  all_goals simp only [Option.some.injEq, reduceCtorEq] at hlead
  all_goals subst hlead; simp only [InRange, Nat.isValidChar] at hpayload hrange ⊢; omega

/-- A character is encoded with the first byte that announces its value. -/
theorem Lead.Announces.encodes {c : Char} (h : lead.Announces c.toNat) (hlead : Lead.ofByte? b = some lead) :
    String.utf8EncodeChar c = b :: tailBytes c.toNat lead.following := by
  obtain ⟨hpayload, hrange⟩ := h
  have hb : b = UInt8.ofNat b.toNat := UInt8.ofNat_toNat.symm
  rw [utf8EncodeChar_eq_tailBytes, hb]
  simp only [Lead.ofByte?] at hlead
  repeat' split at hlead
  all_goals simp only [Option.some.injEq, reduceCtorEq] at hlead
  all_goals subst hlead; simp only [InRange] at hpayload hrange ⊢; grind

/-- Every character is announced by some first byte. -/
theorem Lead.exists_announces (c : Char) : ∃ b lead, Lead.ofByte? b = some lead ∧ lead.Announces c.toNat := by
  have hvalid : c.toNat.isValidChar := c.valid
  simp only [Nat.isValidChar] at hvalid
  generalize c.toNat = v at *
  have hfirst : ∃ n < 256, v < 0x80 ∧ n = v ∨ 0x80 ≤ v ∧ v < 0x800 ∧ n = 0xC0 + v / 64 ∨
      0x800 ≤ v ∧ v < 0x10000 ∧ n = 0xE0 + v / 4096 ∨ 0x10000 ≤ v ∧ n = 0xF0 + v / 262144 := by
    by_cases h1 : v < 0x80
    · exact ⟨v, by omega⟩
    · by_cases h2 : v < 0x800
      · exact ⟨0xC0 + v / 64, by omega⟩
      · by_cases h3 : v < 0x10000
        · exact ⟨0xE0 + v / 4096, by omega⟩
        · exact ⟨0xF0 + v / 262144, by omega⟩
  obtain ⟨n, hn, hfirst⟩ := hfirst
  have htoNat : (UInt8.ofNat n).toNat = n := UInt8.toNat_ofNat_of_lt' hn
  refine ⟨UInt8.ofNat n, ?_⟩
  simp only [Lead.ofByte?, htoNat]
  repeat' split
  -- the leads are gone through; most of them cannot be that of `n`
  all_goals first
    | omega
    | exact ⟨_, rfl, by dsimp only; omega, by simp only [InRange] <;> omega⟩

theorem read_eq_some_iff_announces {bytes rest : List UInt8} {c : Char} (hlead : Lead.ofByte? b = some lead) :
    read b bytes = (some c, rest) ↔
      lead.Announces c.toNat ∧ bytes = tailBytes c.toNat lead.following ++ rest := by
  simp only [read, hlead, readTail_eq_some_iff (Lead.le_low hlead) (Lead.least hlead).1]
  constructor
  · rintro ⟨value, hc, hpayload, hrange, htail⟩
    have hannounces : lead.Announces value := ⟨hpayload, hrange⟩
    obtain rfl := (ofNat_eq_iff (hannounces.isValidChar hlead)).mp hc
    exact ⟨hannounces, htail⟩
  · rintro ⟨⟨hpayload, hrange⟩, htail⟩
    exact ⟨c.toNat, Char.ofNat_toNat c, hpayload, hrange, htail⟩

end lead

/-! ## Characters -/

/-- A character is read from the bytes that encode it, and from no others. -/
theorem read_eq_some_iff {b : UInt8} {bytes rest : List UInt8} {c : Char} :
    read b bytes = (some c, rest) ↔ b :: bytes = String.utf8EncodeChar c ++ rest := by
  constructor
  · intro h
    cases hlead : Lead.ofByte? b with
    | none => simp [read, hlead] at h
    | some lead =>
      obtain ⟨hannounces, rfl⟩ := (read_eq_some_iff_announces hlead).mp h
      rw [hannounces.encodes hlead, List.cons_append]
  · intro h
    obtain ⟨b', lead, hlead, hannounces⟩ := Lead.exists_announces c
    rw [hannounces.encodes hlead, List.cons_append] at h
    obtain ⟨rfl, rfl⟩ := List.cons.inj h
    exact (read_eq_some_iff_announces hlead).mpr ⟨hannounces, rfl⟩

/-! ## Texts -/

theorem parts_eq_map_some_iff {input : List UInt8} {cs : List Char} :
    parts input = cs.map some ↔ input = cs.flatMap String.utf8EncodeChar := by
  induction cs generalizing input with
  | nil => cases input <;> simp [parts]
  | cons c cs ih =>
    cases input with
    | nil => simp [parts, String.utf8EncodeChar_ne_nil]
    | cons b input =>
      rw [parts, List.map_cons, List.cons.injEq, ih, List.flatMap_cons, ← read_eq_some_iff, Prod.ext_iff]

end ScriptScan.Utf8

namespace ScriptScan

theorem bytes_eq_flatMap (text : String) : bytes text = text.toList.flatMap String.utf8EncodeChar := by
  conv => lhs; rw [← String.ofList_toList (s := text)]
  exact List.toList_data_toByteArray

/-- Some bytes decode to the text that they encode. -/
theorem decode?_eq_some_iff_bytes {input : List UInt8} {text : String} :
    Utf8.decode? input = some text ↔ bytes text = input := by
  rw [Utf8.decode?_eq_some_iff, Utf8.parts_eq_map_some_iff, bytes_eq_flatMap, eq_comm]

/-- Some bytes are those of a text. -/
def WellFormed (input : List UInt8) : Prop := ∃ text : String, bytes text = input

theorem wellFormed_iff_decode? {input : List UInt8} :
    WellFormed input ↔ ∃ text, Utf8.decode? input = some text := by
  simp only [WellFormed, decode?_eq_some_iff_bytes]

theorem not_wellFormed_iff_decode? {input : List UInt8} : ¬WellFormed input ↔ Utf8.decode? input = none := by
  rw [wellFormed_iff_decode?, ← Option.isSome_iff_exists, Bool.not_eq_true, Option.isSome_eq_false_iff,
    Option.isNone_iff_eq_none]

/-! ## Texts line by line -/

theorem wellFormed_nil : WellFormed [] := ⟨"", rfl⟩

/-- No character reaches across a byte that is one by itself. -/
theorem wellFormed_append {b : UInt8} (single : b.toNat < 0x80) {xs ys : List UInt8} :
    WellFormed (xs ++ b :: ys) ↔ WellFormed xs ∧ WellFormed ys := by
  simp only [wellFormed_iff_decode?]
  constructor
  · rintro ⟨text, h⟩
    obtain ⟨u, v, hu, hv, -⟩ := Utf8.decode?_append single h
    exact ⟨⟨u, hu⟩, ⟨v, hv⟩⟩
  · rintro ⟨⟨u, hu⟩, ⟨v, hv⟩⟩
    refine ⟨String.ofList (u.toList ++ Char.ofNat b.toNat :: v.toList), ?_⟩
    rw [Utf8.decode?_eq_some_iff] at *
    simp [Utf8.parts_append single, hu, hv]

theorem wellFormed_chomp {line : List UInt8} : WellFormed (chomp line) ↔ WellFormed line := by
  rcases chomp_eq_or line with hsame | hreturn
  · rw [hsame]
  · conv => rhs; rw [hreturn]
    simp [wellFormed_append (b := carriageReturn) (by decide), wellFormed_nil]

/-- An input is that of a text if each of its lines is. -/
theorem wellFormed_iff_lines {input : List UInt8} :
    WellFormed input ↔ ∀ line ∈ lines input, WellFormed line := by
  induction input using lines_induction with
  | nil => simp [wellFormed_nil]
  | last line hline hne => simp [lines_of_not_mem hline hne]
  | step line rest hline ih =>
    rw [wellFormed_append (b := lineFeed) (by decide), lines_append hline, List.forall_mem_cons,
      wellFormed_chomp, ih]

end ScriptScan
