-- SUMMARY: Writing a binary64 word as text: the decisions of a number format and the layout of digits.
import ScriptScan.Number.Shortest

/-! # Number formats

A finite number is written with the shortest digits that read back. A `NumberFormat` holds what else a
format decides: the choice between two equally near decimals, where positional notation ends, whether a
whole number keeps a point, and the texts of what is not a finite number. -/

namespace ScriptScan

structure NumberFormat where
  tie : Binary64.Tie
  /-- Whether a leading digit of this exponent is written positionally. -/
  positional : Int → Bool
  /-- A whole number is written with `.0`. -/
  keepsPoint : Bool
  nan : String
  infinity : String
  negativeInfinity : String

namespace NumberFormat

/-- Digits in positional notation, the last of them having the exponent `exponent`. -/
def plain (keepsPoint : Bool) (digits : List Char) (exponent : Int) : List Char :=
  if 0 ≤ exponent then
    digits ++ List.replicate exponent.toNat '0' ++ (if keepsPoint then ['.', '0'] else [])
  else
    let places := (-exponent).toNat
    if places < digits.length then
      digits.take (digits.length - places) ++ '.' :: digits.drop (digits.length - places)
    else
      '0' :: '.' :: (List.replicate (places - digits.length) '0' ++ digits)

/-- Digits with one of them before the point, and the exponent of that one. -/
def scientific (digits : List Char) (leading : Int) : List Char :=
  let point := if digits.length ≤ 1 then [] else '.' :: digits.drop 1
  let sign := if leading < 0 then '-' else '+'
  digits.take 1 ++ point ++ 'e' :: sign :: Nat.toDigits 10 leading.natAbs

/-- The text of a decimal. -/
def layout (format : NumberFormat) (d : Decimal) : List Char :=
  let digits := Nat.toDigits 10 d.coefficient
  let leading := d.exponent + (digits.length - 1 : Nat)
  if format.positional leading then plain format.keepsPoint digits d.exponent
  else scientific digits leading

/-- The text of a magnitude. -/
def magnitude (format : NumberFormat) (r : Nat) : List Char :=
  if r = 0 then format.layout ⟨0, 0⟩
  else
    let d := Binary64.shortest format.tie r
    format.layout (Decimal.trim d.coefficient d.exponent)

/-- The text of a word. -/
def render (format : NumberFormat) (x : Binary64) : String :=
  if x.isNaN then format.nan
  else if x.isInfinite then (if x.negative then format.negativeInfinity else format.infinity)
  else String.ofList ((if x.negative then ['-'] else []) ++ format.magnitude x.rank)

end NumberFormat

end ScriptScan
