-- SUMMARY: Binary64 words, their ranks among the magnitudes, and the exact value that a rank stands for.

/-! # Binary64 words

A word without its sign bit is the rank of its magnitude: the magnitudes of the format in ascending order
have the ranks `0, 1, 2, …` up to that of infinity, and the NaNs lie above. A finite rank `r` stands for
`units r * 2 ^ -1074`, so that every finite magnitude is a natural number of units. -/

namespace ScriptScan

/-- A binary64 word. Equality is that of the bits. -/
structure Binary64 where
  bits : UInt64
  deriving DecidableEq

namespace Binary64

/-! ## Ranks

Powers are written as `Nat.pow`, whose meaning does not depend on what else is imported. -/

/-- How many magnitudes share a binary exponent. -/
def fractions : Nat := Nat.pow 2 52

/-- The weight of the sign bit. -/
def signWeight : Nat := Nat.pow 2 63

/-- The rank of infinity. -/
def infiniteRank : Nat := 2047 * fractions

/-- The sign bit is set. -/
def negative (x : Binary64) : Bool := signWeight ≤ x.bits.toNat

/-- The word without its sign bit. -/
def rank (x : Binary64) : Nat := x.bits.toNat % signWeight

def isNaN (x : Binary64) : Bool := infiniteRank < x.rank

def isInfinite (x : Binary64) : Bool := x.rank == infiniteRank

/-- The word of a magnitude, without a sign. -/
def ofRank (r : Nat) : Binary64 := ⟨UInt64.ofNat r⟩

theorem rank_ofRank {r : Nat} (h : r < signWeight) : (ofRank r).rank = r := by
  have hw : signWeight = 9223372036854775808 := rfl
  rw [hw] at h
  simp only [ofRank, rank, UInt64.toNat_ofNat', hw]
  omega

/-! ## Values -/

/-- How many units make one. -/
def unitsOfOne : Nat := Nat.pow 2 1074

/-- How often the significand is doubled to give the units: not at all for the subnormals. -/
def scale (r : Nat) : Nat := r / fractions - 1

/-- The binary digits of the magnitude, at most 53 of them. -/
def significand (r : Nat) : Nat := r - scale r * fractions

/-- The magnitude of rank `r` in units of `2 ^ -1074`. -/
def units (r : Nat) : Nat := significand r * Nat.pow 2 (scale r)

/-- Equality of numbers: the two zeros are equal, and a NaN is equal to nothing. -/
def agrees (x y : Binary64) : Bool :=
  !x.isNaN && !y.isNaN && (x == y || (x.rank == 0 && y.rank == 0))

end Binary64

end ScriptScan
