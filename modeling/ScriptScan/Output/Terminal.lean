-- SUMMARY: What remains of a text when its terminal control sequences are taken out.
import ScriptScan.Text.Utf8

/-! # Terminal control sequences

An escape character starts a sequence: a single byte, a control sequence after `[`, a device string after `P`, or
another string. The bytes of a sequence are hidden, and so are the control characters outside of one, except for
those that move to another column or line. Such a blank is shown even inside an escape or control sequence;
then everything is shown up to the next control character, at which the sequence is taken up again. -/

namespace ScriptScan.Terminal

/-- Where in a sequence a byte stands. -/
inductive State where
  /-- Outside of any sequence. -/
  | outside
  /-- After the escape character. -/
  | escape
  | intermediate
  | control
  | device
  | deviceParameter
  | deviceIntermediate
  /-- A string that the byte `0x9C` ends. -/
  | string
  /-- A string that the bell ends. -/
  | command
  deriving DecidableEq

namespace State

/-- The state after a byte. Two control characters cancel any sequence, and an escape starts a new one. -/
def next (s : State) (b : UInt8) : State :=
  let n := b.toNat
  if n = 0x18 ∨ n = 0x1A then .outside
  else if n = 0x1B then .escape
  else match s with
    | .outside => .outside
    | .escape =>
      if n < 0x20 ∨ 0x7E < n then .escape
      else if n < 0x30 then .intermediate
      else if n = 0x50 then .device
      else if n = 0x58 ∨ n = 0x5E ∨ n = 0x5F then .string
      else if n = 0x5B then .control
      else if n = 0x5D then .command
      else .outside
    | .intermediate => if 0x30 ≤ n ∧ n ≤ 0x7E then .outside else .intermediate
    | .control => if 0x40 ≤ n ∧ n ≤ 0x7E then .outside else .control
    | .device =>
      if n < 0x20 ∨ 0x7E < n then .device
      else if n < 0x30 then .deviceIntermediate
      else if n < 0x40 then .deviceParameter
      else .string
    | .deviceParameter =>
      if n < 0x20 ∨ 0x7E < n then .deviceParameter
      else if n < 0x30 then .deviceIntermediate
      else if n < 0x3C then .deviceParameter
      else .string
    | .deviceIntermediate => if 0x30 ≤ n ∧ n ≤ 0x7E then .string else .deviceIntermediate
    | .string => if n = 0x9C then .outside else .string
    | .command => if n = 0x07 then .outside else .command

/-- A tab, a line feed, a form feed or a carriage return. -/
def isMove (b : UInt8) : Bool := b == 9 || b == 10 || b == 12 || b == 13

/-- Whether a byte is shown that ends a hidden stretch. -/
def shows (s : State) (b : UInt8) : Bool :=
  match s with
  | .outside => isMove b || (0x20 ≤ b && b < 0x7F) || (0xC2 ≤ b && b ≤ 0xF4)
  | .escape | .intermediate | .control => isMove b
  | _ => false

end State

/-- The bytes that are shown, `shown` telling whether the byte before was. A character of more than one byte
leaves any sequence that had been broken off. -/
def strip (shown : Bool) (s : State) : List UInt8 → List UInt8
  | [] => []
  | b :: bytes =>
    if (if shown then State.outside.shows b || 0x80 ≤ b else s.shows b) then
      b :: strip true (if 0x80 ≤ b then .outside else s) bytes
    else strip false (s.next b) bytes

/-- A text without its control sequences. -/
def plain (text : String) : String :=
  Utf8.decodeLossy (strip false .outside text.toUTF8.data.toList)

end ScriptScan.Terminal
