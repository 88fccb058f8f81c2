-- SUMMARY: Decimal numbers, the numerals that denote them, and the binary64 word nearest to one.
import ScriptScan.Number.Rounding

/-! # Decimals

A numeral is a run of ASCII digits, optionally with a point and a second run of them. It denotes an exact
decimal of any length; only `Decimal.nearest` rounds. -/

namespace ScriptScan

/-- The number `coefficient * 10 ^ exponent`. -/
structure Decimal where
  coefficient : Nat
  exponent : Int
  deriving DecidableEq

namespace Decimal

/-- The word nearest to the decimal. -/
def nearest (d : Decimal) : Binary64 :=
  Binary64.nearest (d.coefficient * Nat.pow 10 d.exponent.toNat) (Nat.pow 10 (-d.exponent).toNat)

/-- The decimal of the digits before and after a point. -/
def ofDigits (whole fraction : List Char) : Decimal :=
  ⟨Nat.ofDigitChars 10 (whole ++ fraction) 0, -fraction.length⟩

/-- Reads a numeral. A point stands between two digits. -/
def read? (text : List Char) : Option Decimal :=
  let whole := text.takeWhile Char.isDigit
  if whole.isEmpty then none else
  match text.dropWhile Char.isDigit with
  | [] => some (ofDigits whole [])
  | '.' :: fraction =>
    if !fraction.isEmpty && fraction.all Char.isDigit then some (ofDigits whole fraction) else none
  | _ :: _ => none

end Decimal

end ScriptScan
