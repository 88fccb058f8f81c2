-- SUMMARY: Segments of a source text, and the division of a text into longest segments.
import ScriptScan.Source.CharClass

/-! # Segments

A source text is divided into segments from left to right: tokens, blanks, comments, unexpected characters,
and at most one string without an end, which is the last. Each segment is the longest one that its first
character allows. The texts of the segments, put together again, are the source. -/

namespace ScriptScan

inductive Segment where
  /-- A punctuation mark or operator. -/
  | fixed (kind : Kind)
  | blank (c : Char)
  /-- Two backslashes and the rest of the line. -/
  | comment (body : List Char)
  | string (opening : Char) (body : List Char) (closing : Char)
  /-- Digits, then a point and more digits unless `fraction` is empty. -/
  | number (whole fraction : List Char)
  | unexpected (c : Char)
  /-- A quote and everything after it, none of it a quote. -/
  | unterminated (opening : Char) (body : List Char)
  deriving DecidableEq

namespace Segment

/-- The part of the source that a segment covers. -/
def text : Segment → List Char
  | .fixed kind => kind.symbol
  | .blank c => [c]
  | .comment body => '\\' :: '\\' :: body
  | .string opening body closing => opening :: (body ++ [closing])
  | .number whole [] => whole
  | .number whole (d :: fraction) => whole ++ '.' :: d :: fraction
  | .unexpected c => [c]
  | .unterminated opening body => opening :: body

/-! ## The first segment -/

/-- An operator, and what follows it. -/
def readOperator (alone beforeEquals : Kind) : List Char → Segment × List Char
  | '=' :: rest => (.fixed beforeEquals, rest)
  | rest => (.fixed alone, rest)

/-- What a backslash starts, from the character after it on. -/
def readBackslash : List Char → Segment × List Char
  | '\\' :: rest => (.comment (rest.takeWhile (· != '\n')), rest.dropWhile (· != '\n'))
  | rest => (.fixed .slash, rest)

/-- A string, from the character after its opening quote on. -/
def readString (opening : Char) (cs : List Char) : Segment × List Char :=
  let body := cs.takeWhile (!isQuote ·)
  match cs.dropWhile (!isQuote ·) with
  | [] => (.unterminated opening body, [])
  | closing :: rest => (.string opening body closing, rest)

/-- The fraction of a number, without its point. A point with no digit after it is no part of the number. -/
def readFraction : List Char → List Char × List Char
  | '.' :: d :: rest =>
    if d.isDigit then (d :: rest.takeWhile Char.isDigit, rest.dropWhile Char.isDigit)
    else ([], '.' :: d :: rest)
  | rest => ([], rest)

/-- A number, from the character after its first digit on. -/
def readNumber (first : Char) (cs : List Char) : Segment × List Char :=
  let (fraction, rest) := readFraction (cs.dropWhile Char.isDigit)
  (.number (first :: cs.takeWhile Char.isDigit) fraction, rest)

/-- The first segment of `c :: cs`, and the text after it. -/
def read (c : Char) (cs : List Char) : Segment × List Char :=
  match CharClass.ofChar c with
  | .mark kind => (.fixed kind, cs)
  | .operator alone beforeEquals => readOperator alone beforeEquals cs
  | .backslash => readBackslash cs
  | .blank => (.blank c, cs)
  | .quote => readString c cs
  | .digit => readNumber c cs
  | .unexpected => (.unexpected c, cs)

/-! ## Progress -/

theorem length_readFraction (cs : List Char) : (readFraction cs).2.length ≤ cs.length := by
  unfold readFraction
  split
  · split
    · exact Nat.le_succ_of_le (Nat.le_succ_of_le (List.dropWhile_suffix _).length_le)
    · simp
  · simp

/-- Every segment takes at least the character that it starts with. -/
theorem length_read (c : Char) (cs : List Char) : (read c cs).2.length ≤ cs.length := by
  unfold read
  split
  · simp
  · unfold readOperator
    split <;> simp
  · unfold readBackslash
    split
    · simp only [List.length_cons]
      exact Nat.le_succ_of_le (List.dropWhile_suffix _).length_le
    · simp
  · simp
  · unfold readString
    simp only
    split
    · simp
    · rename_i closing rest h
      have : (cs.dropWhile (!isQuote ·)).length ≤ cs.length := (List.dropWhile_suffix _).length_le
      simp only [h, List.length_cons] at this
      exact Nat.le_of_succ_le this
  · exact Nat.le_trans (length_readFraction _) (List.dropWhile_suffix _).length_le
  · simp

end Segment

/-- The division of a text into longest segments. -/
def segments : List Char → List Segment
  | [] => []
  | c :: cs => (Segment.read c cs).1 :: segments (Segment.read c cs).2
termination_by text => text.length
decreasing_by exact Nat.lt_succ_of_le (Segment.length_read c cs)

end ScriptScan
