-- SUMMARY: Scans by position: a cursor that goes over a source character by character, and takes the same segments.
import Mathlib.Data.Nat.PSub
import Mathlib.Data.PFun
import ScriptScan.Proofs.Scan.Run

/-!
# Scans by position

A `Scan` takes whole segments off its source. A cursor leaves the source as it is and goes over it one character at
a time: loops end when the next character says so, and lexemes are cut out between two positions. Nothing in that
is safe by its form. A loop may never end, and a cut may have a bound that lies outside of the text or before the
other one. A cursor that comes to either has no result, so that all which may do so is a partial function, `σ →. τ`.

The main statement here is `Cursor.turn_eq_taken`: one turn of a cursor has a result, and takes the segment that a
scan takes there.
-/

namespace ScriptScan

/-! ## Loops -/

/-- Repeats `body` while `going` holds. There is no result if `body` has none on the way, or if that never ends. -/
def whileDo {σ : Type} (going : σ → Bool) (body : σ →. σ) : σ →. σ :=
  PFun.fix fun s => if going s then (body s).map Sum.inr else .some (Sum.inl s)

section whileDo

variable {σ : Type} {going : σ → Bool} {body : σ →. σ}

theorem whileDo_of_not {s : σ} (h : going s = false) : whileDo going body s = .some s := by
  refine Part.eq_some_iff.mpr (PFun.fix_stop ?_)
  simp [h]

theorem whileDo_of_going {s t : σ} (h : going s = true) (hbody : body s = .some t) :
    whileDo going body s = whileDo going body t := by
  refine PFun.fix_fwd_eq ?_
  simp [h, hbody]

/-- A loop ends if each turn keeps to what `holds`, and makes some measure smaller. -/
theorem exists_whileDo {holds : σ → Prop} {measure : σ → Nat}
    (hturn : ∀ s, holds s → going s = true → ∃ t, body s = .some t ∧ holds t ∧ measure t < measure s)
    (s : σ) (h : holds s) : ∃ t, whileDo going body s = .some t ∧ holds t ∧ going t = false := by
  induction hn : measure s using Nat.strong_induction_on generalizing s with
  | _ n ih =>
    cases hgoing : going s with
    | false => exact ⟨s, whileDo_of_not hgoing, h, hgoing⟩
    | true =>
      obtain ⟨t, hbody, ht, hless⟩ := hturn s h hgoing
      rw [whileDo_of_going hgoing hbody]
      exact ih (measure t) (hn ▸ hless) t ht rfl

end whileDo

/-! ## Cursors -/

/-- A scan under way, by positions in its source. -/
structure Cursor (ρ : Type) where
  text : List Char
  /-- Where the segment under way begins. -/
  start : Nat
  /-- Where the next character is. -/
  current : Nat
  line : Nat
  tokens : Array Token
  erred : Bool
  reporter : ρ

namespace Cursor

variable {ρ : Type}

def initial (source : String) (reporter : ρ) : Cursor ρ := ⟨source.toList, 0, 0, 1, #[], false, reporter⟩

/-! ## Characters -/

def isAtEnd (s : Cursor ρ) : Bool := decide (s.text.length ≤ s.current)

/-- The next character. At the end this is the null character, which a source may also hold. -/
def peek (s : Cursor ρ) : Char := s.text[s.current]?.getD '\x00'

/-- The character after the next one. -/
def peekNext (s : Cursor ρ) : Char := s.text[s.current + 1]?.getD '\x00'

/-- Goes over the next character. At the end the cursor stays where it is. -/
def next (s : Cursor ρ) : Char × Cursor ρ :=
  match s.text[s.current]? with
  | some c => (c, { s with current := s.current + 1 })
  | none => ('\x00', s)

/-- Goes over the next character if it is the expected one, and says whether it is. -/
def accept (expected : Char) : Cursor ρ →. Bool × Cursor ρ := fun s =>
  if s.isAtEnd then .some (false, s)
  else do
    let c ← Part.ofOption s.text[s.current]?
    return if c = expected then (true, { s with current := s.current + 1 }) else (false, s)

/-- The text between two positions, which have to be in order and within the text. -/
def cut (i j : Nat) : Cursor ρ →. String := fun s =>
  if i ≤ j ∧ j ≤ s.text.length then .some (String.ofList (s.text.extract i j)) else .none

/-! ## Loops within a segment -/

/-- Goes to the end of the line. -/
def skipComment : Cursor ρ →. Cursor ρ :=
  whileDo (fun s => s.peek != '\n' && !s.isAtEnd) fun s => .some s.next.2

/-- Goes to the next quote and counts lines on the way. -/
def skipBody : Cursor ρ →. Cursor ρ :=
  whileDo (fun s => !isQuote s.peek && !s.isAtEnd) fun s =>
    .some (if s.peek = '\n' then { s with line := s.line + 1 } else s).next.2

/-- Goes over all digits that come next. -/
def skipDigits : Cursor ρ →. Cursor ρ :=
  whileDo (fun s => s.peek.isDigit) fun s => .some s.next.2

/-! ## Turns -/

/-- A cursor that begins a segment. -/
def begun (s : Cursor ρ) : Cursor ρ := { s with start := s.current }

/-- Adds a token for the segment under way. -/
def add (kind : Kind) (literal : Literal) : Cursor ρ →. Cursor ρ := fun s => do
  let lexeme ← s.cut s.start s.current
  return { s with tokens := s.tokens.push ⟨kind, lexeme, literal, s.line⟩ }

/-- Logs an error of the segment under way and hands it to the reporter. -/
def fail [Reporter ρ] (e : LexicalError) : Cursor ρ →. Cursor ρ := fun s => do
  let lexeme ← s.cut s.start s.current
  return { s with erred := true, reporter := Finding.tell s.reporter ⟨e, s.line, lexeme⟩ }

/-- Takes an operator, which an equals sign makes a longer one. -/
def operator (alone beforeEquals : Kind) : Cursor ρ →. Cursor ρ := fun s => do
  let (equals, s) ← s.accept '='
  s.add (if equals then beforeEquals else alone) .none

/-- Takes a slash, or a comment if there is another backslash. -/
def backslash : Cursor ρ →. Cursor ρ := fun s => do
  let (double, s) ← s.accept '\\'
  if double then s.skipComment else s.add .slash .none

/-- Takes a string, from behind its opening quote on. -/
def string [Reporter ρ] : Cursor ρ →. Cursor ρ := fun s => do
  let s ← s.skipBody
  if s.isAtEnd then s.fail .unterminatedString
  else
    let s := s.next.2
    let last ← Part.ofOption s.current.ppred
    let body ← s.cut (s.start + 1) last
    s.add .string (.text body)

/-- Goes over a point and the digits behind it. A point with no digit behind it is left. -/
def skipFraction : Cursor ρ →. Cursor ρ := fun s =>
  if s.peek = '.' ∧ s.peekNext.isDigit then s.next.2.skipDigits else .some s

/-- Adds a token for a number, or fails if it cannot be read. -/
def addNumber [Reporter ρ] : Cursor ρ →. Cursor ρ := fun s => do
  let lexeme ← s.cut s.start s.current
  match Decimal.read? lexeme.toList with
  | some value => s.add .number (.number value.nearest)
  | none => s.fail (.invalidNumber lexeme)

/-- Takes a number, from behind its first digit on. -/
def number [Reporter ρ] : Cursor ρ →. Cursor ρ := fun s => do
  let s ← s.skipDigits
  let s ← s.skipFraction
  s.addNumber

/-- Takes a segment, from behind its first character on. -/
def takeFrom [Reporter ρ] (first : Char) : Cursor ρ →. Cursor ρ := fun s =>
  match CharClass.ofChar first with
  | .mark kind => s.add kind .none
  | .operator alone beforeEquals => s.operator alone beforeEquals
  | .backslash => s.backslash
  | .blank => .some (if first = '\n' then { s with line := s.line + 1 } else s)
  | .quote => s.string
  | .digit => s.number
  | .unexpected => s.fail (.unexpectedCharacter first)

/-- One turn of a scan, which takes the next segment. -/
def turn [Reporter ρ] : Cursor ρ →. Cursor ρ := fun s =>
  let (first, s) := s.begun.next
  s.takeFrom first

/-- Marks the end of the source and logs that the scan is over. -/
def finish [Reporter ρ] (s : Cursor ρ) : Cursor ρ :=
  let tokens := s.tokens.push (.endAt s.line)
  { s with tokens, reporter := Reporter.log s.reporter (.scanFinished tokens.size s.line s.erred) }

/-- Takes all segments of a source. -/
def run [Reporter ρ] (source : String) : ρ →. Cursor ρ := fun reporter => do
  let s ← whileDo (!·.isAtEnd) turn (initial source reporter)
  return s.finish

/-! ## What is before a cursor -/

/-- The text from the next character on. -/
def ahead (s : Cursor ρ) : List Char := s.text.drop s.current

/-- A cursor as the scan that it stands for. -/
def view (s : Cursor ρ) : Scan ρ := ⟨s.ahead, s.line, s.tokens, s.erred, s.reporter⟩

/-- A cursor that has gone past a text, and has counted its lines. -/
def past (s : Cursor ρ) (cs : List Char) : Cursor ρ :=
  { s with current := s.current + cs.length, line := s.line + cs.count '\n' }

theorem getElem?_current (s : Cursor ρ) : s.text[s.current]? = s.ahead.head? := by
  rw [ahead, List.head?_drop]

theorem isAtEnd_eq (s : Cursor ρ) : s.isAtEnd = s.ahead.isEmpty := by
  rw [isAtEnd, ahead, Bool.eq_iff_iff, decide_eq_true_iff, List.isEmpty_iff, List.drop_eq_nil_iff]

theorem peek_eq (s : Cursor ρ) : s.peek = s.ahead.head?.getD '\x00' := by
  rw [peek, getElem?_current]

theorem peekNext_eq (s : Cursor ρ) : s.peekNext = s.ahead[1]?.getD '\x00' := by
  rw [peekNext, ahead, List.getElem?_drop]

@[simp] theorem start_begun_past (s : Cursor ρ) (cs : List Char) : (s.begun.past cs).start = s.current := rfl

@[simp] theorem cut_begun_past (s : Cursor ρ) (cs : List Char) (i j : Nat) :
    (s.begun.past cs).cut i j = s.cut i j :=
  rfl

theorem past_nil (s : Cursor ρ) : s.past [] = s := rfl

theorem past_past (s : Cursor ρ) (xs ys : List Char) : (s.past xs).past ys = s.past (xs ++ ys) := by
  simp [past, Nat.add_assoc]

theorem ahead_past {s : Cursor ρ} {xs ys : List Char} (h : s.ahead = xs ++ ys) : (s.past xs).ahead = ys := by
  have hdrop : (s.past xs).ahead = s.ahead.drop xs.length := by
    simp [ahead, past, List.drop_drop]
  rw [hdrop, h, List.drop_left]

theorem next_eq {s : Cursor ρ} {c : Char} {cs : List Char} (h : s.ahead = c :: cs) :
    s.next = (c, { s with current := s.current + 1 }) := by
  simp [next, getElem?_current, h]

theorem past_singleton {c : Char} (s : Cursor ρ) (hc : c ≠ '\n') :
    s.past [c] = { s with current := s.current + 1 } := by
  simp [past, hc]

theorem next_eq_past {s : Cursor ρ} {c : Char} {cs : List Char} (h : s.ahead = c :: cs) (hc : c ≠ '\n') :
    s.next = (c, s.past [c]) := by
  rw [next_eq h, past_singleton s hc]

theorem accept_eq_past {s : Cursor ρ} {c : Char} {cs : List Char} (h : s.ahead = c :: cs) (hc : c ≠ '\n') :
    s.accept c = .some (true, s.past [c]) := by
  simp [accept, isAtEnd_eq, getElem?_current, h, past, hc]

theorem accept_eq_self {s : Cursor ρ} {c : Char} (h : ∀ cs, s.ahead ≠ c :: cs) : s.accept c = .some (false, s) := by
  unfold accept
  rw [isAtEnd_eq, getElem?_current]
  cases hahead : s.ahead with
  | nil => rfl
  | cons d cs =>
    have hne : d ≠ c := by
      rintro rfl
      exact h cs hahead
    simp [hne]

/-! ## Loops end -/

/-- A loop over characters ends before the first one that it does not go over. -/
theorem whileDo_eq_past {p : Char → Bool} {going : Cursor ρ → Bool} {body : Cursor ρ →. Cursor ρ}
    (hgoing : ∀ s, going s = s.ahead.head?.any p)
    (hbody : ∀ s c cs, s.ahead = c :: cs → p c = true → body s = .some (s.past [c])) (s : Cursor ρ) :
    whileDo going body s = .some (s.past (s.ahead.takeWhile p)) := by
  generalize h : s.ahead = cs
  induction cs generalizing s with
  | nil => exact whileDo_of_not (by simp [hgoing, h])
  | cons c cs ih =>
    cases hc : p c with
    | false =>
      rw [List.takeWhile_cons, hc]
      exact whileDo_of_not (by simp [hgoing, h, hc])
    | true =>
      have hahead : (s.past [c]).ahead = cs := ahead_past h
      rw [whileDo_of_going (by simp [hgoing, h, hc]) (hbody s c cs h hc), ih _ hahead, past_past,
        List.takeWhile_cons, hc]
      rfl

theorem skipComment_eq (s : Cursor ρ) : s.skipComment = .some (s.past (s.ahead.takeWhile (· != '\n'))) := by
  refine whileDo_eq_past (fun s => ?_) (fun s c cs h hc => ?_) s
  · cases h : s.ahead <;> simp [peek_eq, isAtEnd_eq, h]
  · rw [next_eq_past h (by simpa using hc)]

theorem skipDigits_eq (s : Cursor ρ) : s.skipDigits = .some (s.past (s.ahead.takeWhile Char.isDigit)) := by
  refine whileDo_eq_past (fun s => ?_) (fun s c cs h hc => ?_) s
  · -- the null character at the end is no digit
    cases h : s.ahead <;> simp [peek_eq, h]
  · have hne : c ≠ '\n' := by
      rintro rfl
      exact absurd hc (by decide)
    rw [next_eq_past h hne]

theorem skipBody_eq (s : Cursor ρ) : s.skipBody = .some (s.past (s.ahead.takeWhile (!isQuote ·))) := by
  refine whileDo_eq_past (fun s => ?_) (fun s c cs h hc => ?_) s
  · cases h : s.ahead <;> simp [peek_eq, isAtEnd_eq, h]
  · have hpeek : s.peek = c := by simp [peek_eq, h]
    by_cases hfeed : c = '\n'
    · subst hfeed
      have hnext : ({ s with line := s.line + 1 } : Cursor ρ).next.2 = s.past ['\n'] := by
        rw [next_eq (s := { s with line := s.line + 1 }) h]
        rfl
      rw [hpeek, if_pos rfl, hnext]
    · rw [hpeek, if_neg hfeed, next_eq_past h hfeed]

theorem peeks_fraction_iff {s : Cursor ρ} :
    (s.peek = '.' ∧ s.peekNext.isDigit) ↔ ∃ d rest, s.ahead = '.' :: d :: rest ∧ d.isDigit := by
  rw [peek_eq, peekNext_eq]
  constructor
  · rintro ⟨hpoint, hdigit⟩
    -- the null character at the end is no point and no digit
    match hahead : s.ahead with
    | [] => simp [hahead] at hpoint
    | [c] => simp [hahead] at hdigit
    | c :: d :: rest =>
      obtain rfl : c = '.' := by simpa [hahead] using hpoint
      exact ⟨d, rest, rfl, by simpa [hahead] using hdigit⟩
  · rintro ⟨d, rest, hahead, hdigit⟩
    simpa [hahead] using hdigit

theorem skipFraction_eq_past (s : Cursor ρ) :
    ∃ point, s.skipFraction = .some (s.past point) ∧
      ∀ whole, whole ++ point = (Segment.number whole (Segment.readFraction s.ahead).1).text := by
  by_cases h : s.peek = '.' ∧ s.peekNext.isDigit
  · obtain ⟨d, rest, hahead, hdigit⟩ := peeks_fraction_iff.mp h
    have hbehind : (s.past ['.']).ahead = d :: rest := ahead_past hahead
    refine ⟨'.' :: d :: rest.takeWhile Char.isDigit, ?_, fun whole => ?_⟩
    · rw [skipFraction, if_pos h, next_eq_past hahead (by decide), skipDigits_eq, hbehind, past_past,
        List.takeWhile_cons, if_pos hdigit, List.singleton_append]
    · rw [hahead, Segment.readFraction, if_pos hdigit, Segment.text]
  · have hnone : (Segment.readFraction s.ahead).1 = [] := by
      unfold Segment.readFraction
      split
      · rename_i d rest hahead
        rw [if_neg fun hdigit => h (peeks_fraction_iff.mpr ⟨d, rest, hahead, hdigit⟩)]
      · rfl
    refine ⟨[], by rw [skipFraction, if_neg h, past_nil], fun whole => ?_⟩
    rw [hnone, Segment.text, List.append_nil]

/-! ## One turn takes one segment -/

theorem lt_length {s : Cursor ρ} {c : Char} {cs : List Char} (h : s.ahead = c :: cs) :
    s.current < s.text.length := by
  have hlength := congrArg List.length h
  simp only [ahead, List.length_drop, List.length_cons] at hlength
  omega

/-- What stands at a position can be cut out. -/
theorem cut_eq_some {s : Cursor ρ} {i : Nat} {xs ys : List Char} (h : s.text.drop i = xs ++ ys)
    (hi : i ≤ s.text.length) : s.cut i (i + xs.length) = .some (String.ofList xs) := by
  have hlength := congrArg List.length h
  simp only [List.length_drop, List.length_append] at hlength
  have hbounds : i ≤ i + xs.length ∧ i + xs.length ≤ s.text.length := by omega
  rw [cut, if_pos hbounds, List.extract, h, Nat.add_sub_cancel_left, List.take_left]

/-- What a cursor has gone past since it began a segment is the lexeme of the segment. -/
theorem cut_lexeme {s : Cursor ρ} {c : Char} {cs rest : List Char} {segment : Segment} (h : s.ahead = c :: cs)
    (htext : segment.text ++ rest = c :: cs) :
    (s.begun.past segment.text).cut (s.begun.past segment.text).start (s.begun.past segment.text).current =
      Part.some segment.lexeme :=
  cut_eq_some (h.trans htext.symm) (lt_length h).le

/-- What stands between the quotes of a string can be cut out. -/
theorem cut_body {s : Cursor ρ} {opening closing : Char} {body rest : List Char}
    (h : s.ahead = (Segment.string opening body closing).text ++ rest) :
    s.cut (s.current + 1) (s.current + 1 + body.length) = .some (String.ofList body) := by
  have hbehind : s.text.drop (s.current + 1) = body ++ closing :: rest := by
    have htail := congrArg List.tail h
    rw [ahead, List.tail_drop] at htail
    simpa [Segment.text] using htail
  exact cut_eq_some hbehind (lt_length h)

theorem ahead_begun_past {s : Cursor ρ} {c : Char} {cs : List Char} (h : s.ahead = c :: cs) :
    (s.begun.past [c]).ahead = cs :=
  ahead_past (s := s.begun) h

theorem ahead_begun_past_takeWhile {s : Cursor ρ} {c : Char} {cs : List Char} (p : Char → Bool)
    (h : s.ahead = c :: cs) : (s.begun.past (c :: cs.takeWhile p)).ahead = cs.dropWhile p := by
  refine ahead_past (s := s.begun) (h.trans ?_)
  rw [List.cons_append, List.takeWhile_append_dropWhile]

section taken

variable [Reporter ρ] {s : Cursor ρ} {c : Char} {cs rest : List Char} {segment : Segment}

/-- A cursor that has taken a segment, with all that a scan adds for it. -/
def taken (s : Cursor ρ) (segment : Segment) : Cursor ρ :=
  let after := s.view.take segment (s.ahead.drop segment.text.length)
  { s.begun.past segment.text with tokens := after.tokens, erred := after.erred, reporter := after.reporter }

theorem taken_of_nothing (h : segment.yield = .nothing) : s.taken segment = s.begun.past segment.text := by
  simp only [taken, Scan.take, h, view, begun, past]

theorem taken_of_token {kind : Kind} {literal : Literal} (h : segment.yield = .token kind literal) :
    s.taken segment =
      { s.begun.past segment.text with
        tokens := s.tokens.push ⟨kind, segment.lexeme, literal, s.line + segment.lineFeeds⟩ } := by
  simp only [taken, Scan.take, h, view, begun, past]

theorem taken_of_error {e : LexicalError} (h : segment.yield = .error e) :
    s.taken segment =
      { s.begun.past segment.text with
        erred := true
        reporter := Finding.tell s.reporter ⟨e, s.line + segment.lineFeeds, segment.lexeme⟩ } := by
  simp only [taken, Scan.take, h, view, begun, past]
  rfl

theorem add_eq_taken {kind : Kind} {literal : Literal} (h : s.ahead = c :: cs)
    (htext : segment.text ++ rest = c :: cs) (hyield : segment.yield = .token kind literal) :
    (s.begun.past segment.text).add kind literal = .some (s.taken segment) := by
  rw [add, cut_lexeme h htext, taken_of_token hyield, Part.bind_eq_bind, Part.bind_some]
  rfl

theorem fail_eq_taken {e : LexicalError} (h : s.ahead = c :: cs) (htext : segment.text ++ rest = c :: cs)
    (hyield : segment.yield = .error e) : (s.begun.past segment.text).fail e = .some (s.taken segment) := by
  rw [fail, cut_lexeme h htext, taken_of_error hyield, Part.bind_eq_bind, Part.bind_some]
  rfl

/-! ### From the first character on -/

theorem operator_eq_taken {alone beforeEquals : Kind} (h : s.ahead = c :: cs)
    (hclass : CharClass.Describes (.operator alone beforeEquals) c) :
    (s.begun.past [c]).operator alone beforeEquals =
      .some (s.taken (Segment.readOperator alone beforeEquals cs).1) := by
  have htext := (Segment.starts_readOperator cs hclass).text_append
  have hahead := ahead_begun_past h
  obtain ⟨⟨halone, -⟩, hequals, -⟩ := hclass
  unfold Segment.readOperator at htext ⊢
  split at htext
  · have hadd := add_eq_taken h htext rfl
    rw [Segment.text, hequals] at hadd
    rw [operator, accept_eq_past hahead (by decide), past_past, Part.bind_eq_bind, Part.bind_some]
    exact hadd
  · rename_i hne
    have hadd := add_eq_taken h htext rfl
    rw [Segment.text, halone] at hadd
    rw [operator, accept_eq_self (hahead ▸ hne), Part.bind_eq_bind, Part.bind_some]
    exact hadd

theorem backslash_eq_taken (h : s.ahead = '\\' :: cs) :
    (s.begun.past ['\\']).backslash = .some (s.taken (Segment.readBackslash cs).1) := by
  have htext := (Segment.starts_readBackslash cs).text_append
  have hahead := ahead_begun_past h
  unfold Segment.readBackslash at htext ⊢
  split at htext
  · rename_i rest
    have hrest : (s.begun.past ['\\', '\\']).ahead = rest := ahead_past (s := s.begun) h
    rw [backslash, accept_eq_past hahead (by decide), past_past, Part.bind_eq_bind, Part.bind_some,
      taken_of_nothing rfl]
    show skipComment (s.begun.past ['\\', '\\']) = _
    rw [skipComment_eq, hrest, past_past]
    rfl
  · rename_i hne
    rw [backslash, accept_eq_self (hahead ▸ hne), Part.bind_eq_bind, Part.bind_some]
    exact add_eq_taken h htext rfl

theorem string_eq_taken (h : s.ahead = c :: cs) (hquote : IsQuote c) :
    (s.begun.past [c]).string = .some (s.taken (Segment.readString c cs).1) := by
  have htext := (Segment.starts_readString cs hquote).text_append
  have hahead := ahead_begun_past h
  have hbehind := ahead_begun_past_takeWhile (!isQuote ·) h
  simp only [string, skipBody_eq, hahead, past_past, List.singleton_append, Part.bind_eq_bind,
    Part.bind_some, isAtEnd_eq, hbehind]
  unfold Segment.readString at htext ⊢
  simp only at htext ⊢
  split at htext
  · rename_i hnil
    rw [hnil]
    exact fail_eq_taken h htext rfl
  · rename_i closing rest hcons
    rw [hcons] at hbehind
    have hne : closing ≠ '\n' := by
      rintro rfl
      exact absurd (Segment.head?_dropWhile_eq hcons) (by decide)
    have hnext := next_eq_past hbehind hne
    rw [past_past, List.cons_append] at hnext
    have hadd := add_eq_taken h htext rfl
    have hlast : (s.begun.past (c :: (cs.takeWhile (!isQuote ·) ++ [closing]))).current.ppred =
        some (s.current + 1 + (cs.takeWhile (!isQuote ·)).length) := by
      rw [Nat.ppred_eq_some]
      simp only [past, begun, List.length_cons, List.length_append, List.length_nil]
      omega
    have hcut := cut_body (h.trans htext.symm)
    rw [hcons, List.isEmpty_cons, if_neg Bool.false_ne_true, hnext]
    simp only [hlast, Part.coe_some, start_begun_past, cut_begun_past, hcut, Part.bind_some]
    exact hadd

/-- The number that a cursor has gone past is read, be it a numeral or not. -/
theorem addNumber_eq_taken {whole fraction : List Char} (h : s.ahead = c :: cs)
    (htext : (Segment.number whole fraction).text ++ rest = c :: cs) :
    (s.begun.past (Segment.number whole fraction).text).addNumber = .some (s.taken (.number whole fraction)) := by
  rw [addNumber, cut_lexeme h htext, Part.bind_eq_bind, Part.bind_some, Segment.lexeme,
    String.toList_ofList]
  split
  · rename_i value hread
    exact add_eq_taken h htext (by rw [Segment.yield, hread])
  · rename_i hread
    exact fail_eq_taken h htext (by rw [Segment.yield, hread]; rfl)

theorem number_eq_taken (h : s.ahead = c :: cs) (hdigit : c.isDigit) :
    (s.begun.past [c]).number = .some (s.taken (Segment.readNumber c cs).1) := by
  have htext := (Segment.starts_readNumber cs hdigit).text_append
  have hahead := ahead_begun_past h
  have hbehind := ahead_begun_past_takeWhile Char.isDigit h
  obtain ⟨point, hskip, hpoint⟩ := skipFraction_eq_past (s.begun.past (c :: cs.takeWhile Char.isDigit))
  rw [hbehind] at hpoint
  simp only [number, skipDigits_eq, hahead, past_past, List.singleton_append, Part.bind_eq_bind,
    Part.bind_some, hskip, hpoint]
  exact addNumber_eq_taken h htext

theorem takeFrom_eq_taken (h : s.ahead = c :: cs) (hblank : CharClass.ofChar c ≠ .blank) :
    (s.begun.past [c]).takeFrom c = .some (s.taken (Segment.read c cs).1) := by
  have htext := (Segment.starts_read c cs).text_append
  have hdescribes := CharClass.ofChar_describes c
  unfold takeFrom
  unfold Segment.read at htext ⊢
  cases hclass : CharClass.ofChar c with
  | mark kind =>
    rw [hclass] at hdescribes htext
    have hadd := add_eq_taken h htext rfl
    rw [Segment.text, hdescribes.1] at hadd
    exact hadd
  | operator alone beforeEquals => exact operator_eq_taken h (hclass ▸ hdescribes)
  | backslash =>
    obtain rfl : c = '\\' := by rwa [hclass] at hdescribes
    exact backslash_eq_taken h
  | blank => exact absurd hclass hblank
  | quote => exact string_eq_taken h (by rwa [hclass] at hdescribes)
  | digit => exact number_eq_taken h (by rwa [hclass] at hdescribes)
  | unexpected =>
    rw [hclass] at htext
    exact fail_eq_taken h htext rfl

/-- One turn takes the segment that comes next. -/
theorem turn_eq_taken (h : s.ahead = c :: cs) : s.turn = .some (s.taken (Segment.read c cs).1) := by
  have hnext : s.begun.next = (c, { s.begun with current := s.current + 1 }) := next_eq (s := s.begun) h
  rw [turn, hnext]
  by_cases hblank : CharClass.ofChar c = .blank
  · have hread : (Segment.read c cs).1 = .blank c := by rw [Segment.read, hblank]
    rw [hread, taken_of_nothing rfl]
    simp only [takeFrom, hblank]
    split
    · rename_i hc
      rw [hc]
      rfl
    · rename_i hc
      exact congrArg Part.some (past_singleton s.begun hc).symm
  · have hc : c ≠ '\n' := by
      rintro rfl
      exact hblank rfl
    rw [← takeFrom_eq_taken h hblank, past_singleton s.begun hc]
    rfl

theorem view_taken (h : s.ahead = c :: cs) : (s.taken (Segment.read c cs).1).view = s.view.step := by
  have htext := (Segment.starts_read c cs).text_append
  have hstep : s.view.step = s.view.take (Segment.read c cs).1 (Segment.read c cs).2 := by
    simp only [Scan.step, view, h]
  have hahead : (s.taken (Segment.read c cs).1).ahead = (Segment.read c cs).2 :=
    ahead_past (s := s.begun) (h.trans htext.symm)
  rw [hstep, view, hahead]
  generalize (Segment.read c cs).1 = segment
  generalize (Segment.read c cs).2 = rest
  cases hyield : segment.yield with
  | nothing => simp only [taken_of_nothing hyield, Scan.take, hyield, begun, past, view, Segment.lineFeeds]
  | token kind literal =>
    simp only [taken_of_token hyield, Scan.take, hyield, begun, past, view, Segment.lineFeeds]
  | error e =>
    simp only [taken_of_error hyield, Scan.take, hyield, begun, past, view, Segment.lineFeeds]
    rfl

end taken

end Cursor

end ScriptScan
