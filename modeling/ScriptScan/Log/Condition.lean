-- SUMMARY: What a directive can ask of the value of a field.
import ScriptScan.Log.Pattern

/-! # Conditions

A value is asked to be a number or to match a pattern. The digits of a number, its sign and the words for what
is not finite make a pattern too, but for a plus sign in front. -/

namespace ScriptScan.Log.Condition

/-- Digits with an optional point, at least one digit, and an optional exponent; or a word for what is not
finite. -/
def isNumber (text : List Char) : Bool :=
  let significand := text.takeWhile fun c => c.isDigit || c == '.'
  let exponent := match text.dropWhile fun c => c.isDigit || c == '.' with
    | [] => true
    | e :: cs =>
      let digits := match cs with
        | '+' :: cs | '-' :: cs => cs
        | cs => cs
      (e == 'e' || e == 'E') && !digits.isEmpty && digits.all Char.isDigit
  (significand.any Char.isDigit && significand.count '.' ≤ 1 && exponent) ||
    ["inf", "infinity", "nan"].contains (String.ofList (text.map Char.toLower))

/-- The form of a condition is right. -/
def isWellFormed (text : List Char) : Bool :=
  match text with
  | '+' :: number => isNumber number
  | _ => Pattern.isWellFormed text

end ScriptScan.Log.Condition
