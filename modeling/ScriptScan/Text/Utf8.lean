-- SUMMARY: Decoding UTF-8, strictly or with replacement characters.

/-! # UTF-8

A first byte says how many continuation bytes follow and in which range the first of them lies; the ranges
leave out overlong forms, surrogates and what is beyond the last character. Where a sequence breaks off, the
bytes that could still have begun a character count as one ill-formed sequence. -/

namespace ScriptScan.Utf8

/-- What a first byte announces. -/
structure Lead where
  /-- The bits that it contributes. -/
  payload : Nat
  /-- How many continuation bytes follow. -/
  following : Nat
  /-- The range of the first of them. -/
  low : Nat
  high : Nat

def Lead.ofByte? (b : UInt8) : Option Lead :=
  let n := b.toNat
  if n < 0x80 then some ⟨n, 0, 0x80, 0xBF⟩
  else if n < 0xC2 then none
  else if n < 0xE0 then some ⟨n - 0xC0, 1, 0x80, 0xBF⟩
  else if n = 0xE0 then some ⟨0, 2, 0xA0, 0xBF⟩
  else if n = 0xED then some ⟨0xD, 2, 0x80, 0x9F⟩
  else if n < 0xF0 then some ⟨n - 0xE0, 2, 0x80, 0xBF⟩
  else if n = 0xF0 then some ⟨0, 3, 0x90, 0xBF⟩
  else if n < 0xF4 then some ⟨n - 0xF0, 3, 0x80, 0xBF⟩
  else if n = 0xF4 then some ⟨4, 3, 0x80, 0x8F⟩
  else none

/-- Reads the continuation bytes of a character, the first of them between `low` and `high`. Nothing if one
is missing or out of range; that one is left. -/
def readTail (payload low high : Nat) : Nat → List UInt8 → Option Char × List UInt8
  | 0, bytes => (some (Char.ofNat payload), bytes)
  | _ + 1, [] => (none, [])
  | following + 1, b :: bytes =>
    if low ≤ b.toNat ∧ b.toNat ≤ high then
      readTail (payload * 64 + b.toNat % 64) 0x80 0xBF following bytes
    else (none, b :: bytes)

theorem length_readTail (payload low high following : Nat) (bytes : List UInt8) :
    (readTail payload low high following bytes).2.length ≤ bytes.length := by
  induction following generalizing payload low high bytes with
  | zero => simp [readTail]
  | succ n ih =>
    cases bytes with
    | nil => simp [readTail]
    | cons b bytes =>
      simp only [readTail]
      split
      · exact Nat.le_succ_of_le (ih ..)
      · simp

/-- The first character, or nothing for an ill-formed sequence, and the bytes after it. -/
def read (b : UInt8) (bytes : List UInt8) : Option Char × List UInt8 :=
  match Lead.ofByte? b with
  | some lead => readTail lead.payload lead.low lead.high lead.following bytes
  | none => (none, bytes)

theorem length_read (b : UInt8) (bytes : List UInt8) : (read b bytes).2.length ≤ bytes.length := by
  unfold read
  split
  · exact length_readTail ..
  · simp

/-- The characters, with nothing in the place of each ill-formed sequence. -/
def parts : List UInt8 → List (Option Char)
  | [] => []
  | b :: bytes => (read b bytes).1 :: parts (read b bytes).2
termination_by bytes => bytes.length
decreasing_by exact Nat.lt_succ_of_le (length_read b bytes)

/-- The text of well-formed bytes. -/
def decode? (bytes : List UInt8) : Option String :=
  ((parts bytes).mapM id).map String.ofList

/-- The text of any bytes, with U+FFFD in the place of each ill-formed sequence. -/
def decodeLossy (bytes : List UInt8) : String :=
  String.ofList ((parts bytes).map (·.getD '\uFFFD'))

end ScriptScan.Utf8
