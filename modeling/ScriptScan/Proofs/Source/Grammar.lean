-- SUMMARY: The grammar of segments, told by membership alone, and its agreement with the segment that is read.
import Mathlib.Data.List.TakeWhile
import ScriptScan.Source.Segment

/-!
# The grammar of segments

`Fits s rest` says that `s` is a well-formed segment and may stand directly before `rest`. It names the
characters of each segment and at most one character after it, and never searches. The segment that
`Segment.read` takes off a text is the longest one that fits there, and every other one is shorter.
-/

namespace ScriptScan

/-! ## Characters -/

def IsQuote (c : Char) : Prop := c = '"' ∨ c = '\''

/-- The characters that mean something outside of strings and comments. -/
def Significant (c : Char) : Prop :=
  c ∈ ['(', ')', '{', '}', ',', '.', '-', '+', ';', '*', '!', '=', '<', '>', '\\', '"', '\'',
      ' ', '\t', '\r', '\n'] ∨
    c.isDigit

namespace CharClass

/-- What a class says about the characters in it. -/
def Describes : CharClass → Char → Prop
  | .mark kind, c => kind.symbol = [c] ∧ kind ≠ .slash
  | .operator alone beforeEquals, c =>
    (alone.symbol = [c] ∧ alone ≠ .slash) ∧ beforeEquals.symbol = [c, '='] ∧ beforeEquals ≠ .slash
  | .backslash, c => c = '\\'
  | .blank, c => c ∈ [' ', '\t', '\r', '\n']
  | .quote, c => IsQuote c
  | .digit, c => c.isDigit
  | .unexpected, c => ¬Significant c

theorem ofChar_describes (c : Char) : (ofChar c).Describes c := by
  unfold ofChar
  split
  case h_22 =>
    split
    · assumption
    · simp_all [Describes, Significant]
  all_goals simp [Describes, Kind.symbol, IsQuote]

theorem ofChar_of_isQuote {c : Char} (h : IsQuote c) : ofChar c = .quote := by
  rcases h with rfl | rfl <;> rfl

theorem ofChar_of_blank {c : Char} (h : c ∈ [' ', '\t', '\r', '\n']) : ofChar c = .blank := by
  simp only [List.mem_cons, List.not_mem_nil, or_false] at h
  rcases h with rfl | rfl | rfl | rfl <;> rfl

theorem ofChar_of_isDigit {c : Char} (h : c.isDigit) : ofChar c = .digit := by
  unfold ofChar
  split
  case h_22 => simp [h]
  -- no other character of the table is a digit
  all_goals exact absurd h (by decide)

theorem ofChar_of_not_significant {c : Char} (h : ¬Significant c) : ofChar c = .unexpected := by
  simp only [Significant, List.mem_cons, List.not_mem_nil, or_false, not_or] at h
  unfold ofChar
  split
  case h_22 => simp [h.2]
  all_goals simp at h

end CharClass

theorem isQuote_iff {c : Char} : isQuote c = true ↔ IsQuote c := by
  constructor
  · intro h
    have hc : CharClass.ofChar c = .quote := by simpa [isQuote] using h
    have := CharClass.ofChar_describes c
    rwa [hc] at this
  · intro h
    simp [isQuote, CharClass.ofChar_of_isQuote h]

theorem isQuote_eq_false_iff {c : Char} : isQuote c = false ↔ ¬IsQuote c := by
  rw [← isQuote_iff, Bool.not_eq_true]

namespace Segment

/-! ## Fitting segments -/

/-- `Fits s rest`: `s` is a segment and may stand before `rest`. -/
inductive Fits : Segment → List Char → Prop
  /-- A fixed token. A backslash is one only if no other backslash follows. -/
  | fixed {kind : Kind} {rest : List Char} (symbol : kind.symbol ≠ [])
      (single : kind = .slash → rest.head? ≠ some '\\') : Fits (.fixed kind) rest
  | blank {c : Char} {rest : List Char} (mem : c ∈ [' ', '\t', '\r', '\n']) : Fits (.blank c) rest
  /-- A comment stops where its line does. -/
  | comment {body rest : List Char} (oneLine : '\n' ∉ body) (lineEnd : rest = [] ∨ rest.head? = some '\n') :
      Fits (.comment body) rest
  | string {opening closing : Char} {body rest : List Char} (opens : IsQuote opening)
      (inside : ∀ c ∈ body, ¬IsQuote c) (closes : IsQuote closing) : Fits (.string opening body closing) rest
  | number {whole fraction rest : List Char} (nonempty : whole ≠ []) (digits : ∀ c ∈ whole, c.isDigit)
      (places : ∀ c ∈ fraction, c.isDigit) : Fits (.number whole fraction) rest
  | unexpected {c : Char} {rest : List Char} (strange : ¬Significant c) : Fits (.unexpected c) rest
  /-- A string without an end is the end of the source. -/
  | unterminated {opening : Char} {body : List Char} (opens : IsQuote opening)
      (inside : ∀ c ∈ body, ¬IsQuote c) : Fits (.unterminated opening body) []

/-- `Starts s rest text`: `s` fits at the start of `text` and leaves `rest`. -/
structure Starts (s : Segment) (rest text : List Char) : Prop where
  fits : s.Fits rest
  text_append : s.text ++ rest = text

/-- `Longest s rest text`: no longer segment than `s` fits at the start of `text`. -/
structure Longest (s : Segment) (rest text : List Char) : Prop extends Starts s rest text where
  length_le : ∀ t left, Starts t left text → t.text.length ≤ s.text.length

theorem Fits.text_ne_nil {s : Segment} {rest : List Char} (h : s.Fits rest) : s.text ≠ [] := by
  cases h with
  | fixed symbol _ => exact symbol
  | @number whole fraction _ nonempty _ _ =>
    cases fraction with
    | nil => exact nonempty
    | cons d fraction => simp [text]
  | _ => simp [text]

/-! ## The segment that is read fits -/

theorem head?_dropWhile_eq {p : Char → Bool} {cs rest : List Char} {c : Char} (h : cs.dropWhile p = c :: rest) :
    p c = false := by
  have := List.head?_dropWhile_not p cs
  simpa [h] using this

theorem starts_readOperator {alone beforeEquals : Kind} {c : Char} (cs : List Char)
    (h : CharClass.Describes (.operator alone beforeEquals) c) :
    Starts (readOperator alone beforeEquals cs).1 (readOperator alone beforeEquals cs).2 (c :: cs) := by
  obtain ⟨⟨ha, hna⟩, hb, hnb⟩ := h
  unfold readOperator
  split
  · exact ⟨.fixed (by simp [hb]) (fun h => absurd h hnb), by simp [text, hb]⟩
  · exact ⟨.fixed (by simp [ha]) (fun h => absurd h hna), by simp [text, ha]⟩

theorem starts_readBackslash (cs : List Char) :
    Starts (readBackslash cs).1 (readBackslash cs).2 ('\\' :: cs) := by
  unfold readBackslash
  split
  · rename_i rest
    refine ⟨.comment ?_ ?_, by simp [text]⟩
    · intro h
      simpa using List.mem_takeWhile_imp h
    · cases h : rest.dropWhile (· != '\n') with
      | nil => exact .inl rfl
      | cons d others => exact .inr (by simpa using head?_dropWhile_eq h)
  · rename_i hne
    refine ⟨.fixed (by simp [Kind.symbol]) (fun _ hhead => ?_), by simp [text, Kind.symbol]⟩
    cases cs with
    | nil => simp at hhead
    | cons d rest => exact hne rest (by simpa using hhead)

theorem starts_readString {opening : Char} (cs : List Char) (h : IsQuote opening) :
    Starts (readString opening cs).1 (readString opening cs).2 (opening :: cs) := by
  have inside : ∀ c ∈ cs.takeWhile (!isQuote ·), ¬IsQuote c := by
    intro c hc
    simpa [isQuote_eq_false_iff] using List.mem_takeWhile_imp hc
  have append := List.takeWhile_append_dropWhile (p := (!isQuote ·)) (l := cs)
  unfold readString
  simp only
  split
  · rename_i hnil
    exact ⟨.unterminated h inside, by simpa [text, hnil] using append⟩
  · rename_i closing rest hcons
    have closes : IsQuote closing := isQuote_iff.mp (by simpa using head?_dropWhile_eq hcons)
    exact ⟨.string h inside closes, by simpa [text, hcons] using append⟩

/-- The digits of a fraction, and what is put together of them again. -/
theorem readFraction_spec (whole cs : List Char) :
    (∀ c ∈ (readFraction cs).1, c.isDigit) ∧
      (Segment.number whole (readFraction cs).1).text ++ (readFraction cs).2 = whole ++ cs := by
  unfold readFraction
  split
  · split
    · rename_i d rest hd
      refine ⟨?_, by simp [text]⟩
      intro c hc
      rcases List.mem_cons.mp hc with rfl | hc
      · exact hd
      · exact List.mem_takeWhile_imp hc
    · simp [text]
  · simp [text]

theorem starts_readNumber {first : Char} (cs : List Char) (h : first.isDigit) :
    Starts (readNumber first cs).1 (readNumber first cs).2 (first :: cs) := by
  obtain ⟨places, append⟩ := readFraction_spec (first :: cs.takeWhile Char.isDigit) (cs.dropWhile Char.isDigit)
  refine ⟨.number (by simp) ?_ places, by simpa [readNumber] using append⟩
  intro c hc
  rcases List.mem_cons.mp hc with rfl | hc
  · exact h
  · exact List.mem_takeWhile_imp hc

theorem starts_read (c : Char) (cs : List Char) : Starts (read c cs).1 (read c cs).2 (c :: cs) := by
  have hc := CharClass.ofChar_describes c
  unfold read
  split <;> rename_i hclass <;> rw [hclass] at hc
  · exact ⟨.fixed (by simp [hc.1]) (fun h => absurd h hc.2), by simp [text, hc.1]⟩
  · exact starts_readOperator cs hc
  · exact (show c = '\\' from hc) ▸ starts_readBackslash cs
  · exact ⟨.blank hc, rfl⟩
  · exact starts_readString cs hc
  · exact starts_readNumber cs hc
  · exact ⟨.unexpected hc, rfl⟩

/-! ## Every other segment is shorter -/

private theorem span_append {p : Char → Bool} {body rest : List Char} (inside : ∀ c ∈ body, p c)
    (stop : ∀ c, rest.head? = some c → p c = false) :
    (body ++ rest).takeWhile p = body ∧ (body ++ rest).dropWhile p = rest := by
  rw [List.takeWhile_append_of_pos inside, List.dropWhile_append_of_pos inside]
  cases rest with
  | nil => simp
  | cons c rest => simp [stop c rfl]

theorem readBackslash_comment {body rest : List Char} (oneLine : '\n' ∉ body)
    (lineEnd : rest = [] ∨ rest.head? = some '\n') :
    readBackslash ('\\' :: (body ++ rest)) = (.comment body, rest) := by
  have inside : ∀ c ∈ body, (c != '\n') = true := by
    intro c hc
    simpa using ne_of_mem_of_not_mem hc oneLine
  have stop : ∀ c, rest.head? = some c → (c != '\n') = false := by
    intro c hc
    rcases lineEnd with rfl | hrest
    · simp at hc
    · obtain rfl : '\n' = c := by simpa [hrest] using hc
      rfl
  obtain ⟨htake, hdrop⟩ := span_append inside stop
  simp only [readBackslash, htake, hdrop]

theorem readBackslash_slash {rest : List Char} (single : rest.head? ≠ some '\\') :
    readBackslash rest = (.fixed .slash, rest) := by
  unfold readBackslash
  split
  · simp at single
  · rfl

theorem readString_closed {opening closing : Char} {body : List Char} (rest : List Char)
    (inside : ∀ c ∈ body, ¬IsQuote c) (closes : IsQuote closing) :
    readString opening (body ++ closing :: rest) = (.string opening body closing, rest) := by
  have inside : ∀ c ∈ body, (!isQuote c) = true := by
    intro c hc
    simpa using isQuote_eq_false_iff.mpr (inside c hc)
  have stop : ∀ c, (closing :: rest).head? = some c → (!isQuote c) = false := by
    intro c hc
    obtain rfl : closing = c := Option.some.inj hc
    simpa [isQuote_iff] using closes
  obtain ⟨htake, hdrop⟩ := span_append inside stop
  simp only [readString, htake, hdrop]

theorem readString_open {opening : Char} {body : List Char} (inside : ∀ c ∈ body, ¬IsQuote c) :
    readString opening body = (.unterminated opening body, []) := by
  have inside : ∀ c ∈ body, (!isQuote c) = true := by
    intro c hc
    simpa using isQuote_eq_false_iff.mpr (inside c hc)
  have htake := List.takeWhile_eq_self_iff.mpr inside
  have hdrop := List.dropWhile_eq_nil_iff.mpr inside
  simp only [readString, htake, hdrop]

/-- A fraction is read, or there is none. -/
theorem readFraction_eq_or (cs : List Char) :
    readFraction cs = ([], cs) ∨ (readFraction cs).2.length < cs.length := by
  unfold readFraction
  split
  · rename_i d rest
    split
    · have := List.length_dropWhile_le (p := Char.isDigit) rest
      exact .inr (by simp only [List.length_cons]; omega)
    · exact .inl rfl
  · exact .inl rfl

/-- Digits that are left over belong to the run of digits before them. -/
private theorem dropWhile_eq_or {p : Char → Bool} (cs : List Char) :
    cs.takeWhile p = [] ∧ cs.dropWhile p = cs ∨ (cs.dropWhile p).length < cs.length := by
  cases cs with
  | nil => simp
  | cons c cs =>
    cases hc : p c with
    | false => simp [hc]
    | true =>
      have := List.length_dropWhile_le (p := p) cs
      exact .inr (by simp only [List.dropWhile_cons, hc, if_true, List.length_cons]; omega)

theorem readNumber_whole {first : Char} {whole : List Char} (rest : List Char)
    (digits : ∀ c ∈ whole, c.isDigit) :
    readNumber first (whole ++ rest) = (.number (first :: whole) [], rest) ∨
      (readNumber first (whole ++ rest)).2.length < rest.length := by
  simp only [readNumber, List.takeWhile_append_of_pos digits, List.dropWhile_append_of_pos digits]
  have hfraction := readFraction_eq_or (rest.dropWhile Char.isDigit)
  rcases dropWhile_eq_or (p := Char.isDigit) rest with ⟨htake, hdrop⟩ | hless
  · rw [hdrop] at hfraction ⊢
    rcases hfraction with hnone | hless
    · exact .inl (by simp [htake, hnone])
    · exact .inr hless
  · have := length_readFraction (rest.dropWhile Char.isDigit)
    exact .inr (by omega)

theorem readNumber_fraction {first d : Char} {whole fraction : List Char} (rest : List Char)
    (digits : ∀ c ∈ whole, c.isDigit) (places : ∀ c ∈ d :: fraction, c.isDigit) :
    readNumber first (whole ++ '.' :: d :: (fraction ++ rest)) =
        (.number (first :: whole) (d :: fraction), rest) ∨
      (readNumber first (whole ++ '.' :: d :: (fraction ++ rest))).2.length < rest.length := by
  have hd : d.isDigit := places d (by simp)
  have hfraction : ∀ c ∈ fraction, c.isDigit := fun c hc => places c (by simp [hc])
  have stop : ∀ c, ('.' :: d :: (fraction ++ rest)).head? = some c → c.isDigit = false := by
    intro c hc
    obtain rfl : '.' = c := Option.some.inj hc
    rfl
  obtain ⟨htake, hdrop⟩ := span_append digits stop
  simp only [readNumber, htake, hdrop, readFraction, hd, if_true,
    List.takeWhile_append_of_pos hfraction, List.dropWhile_append_of_pos hfraction]
  rcases dropWhile_eq_or (p := Char.isDigit) rest with ⟨htake, hdrop⟩ | hless
  · exact .inl (by simp [htake, hdrop])
  · exact .inr hless

theorem readOperator_eq_or (alone beforeEquals : Kind) (rest : List Char) :
    readOperator alone beforeEquals rest = (.fixed alone, rest) ∨
      (readOperator alone beforeEquals rest).2.length < rest.length := by
  unfold readOperator
  split
  · exact .inr (by simp)
  · exact .inl rfl

/-- A fixed token is the one that is read, unless it is an operator before an equals sign. -/
theorem read_fixed {kind : Kind} {c : Char} {cs rest : List Char} (symbol : kind.symbol ≠ [])
    (single : kind = .slash → rest.head? ≠ some '\\') (htext : kind.symbol ++ rest = c :: cs) :
    read c cs = (.fixed kind, rest) ∨ (read c cs).2.length < rest.length := by
  cases kind
  case slash =>
    obtain ⟨rfl, rfl⟩ := by simpa [Kind.symbol] using htext
    exact .inl (readBackslash_slash (single rfl))
  case bang | equal | less | greater =>
    obtain ⟨rfl, rfl⟩ := by simpa [Kind.symbol] using htext
    exact readOperator_eq_or _ _ _
  case string | number | endOfSource => exact absurd rfl symbol
  all_goals
    obtain ⟨rfl, rfl⟩ := by simpa [Kind.symbol] using htext
    exact .inl rfl

/-- What fits at the start of a text is what is read there, or leaves more of the text. -/
theorem Starts.eq_read_or {s : Segment} {c : Char} {cs rest : List Char} (h : Starts s rest (c :: cs)) :
    read c cs = (s, rest) ∨ (read c cs).2.length < rest.length := by
  obtain ⟨hfits, htext⟩ := h
  cases hfits with
  | fixed symbol single => exact read_fixed symbol single htext
  | blank mem =>
    obtain ⟨rfl, rfl⟩ := by simpa [text] using htext
    exact .inl (by simp [read, CharClass.ofChar_of_blank mem])
  | comment oneLine lineEnd =>
    obtain ⟨rfl, rfl⟩ := by simpa [text] using htext
    exact .inl (readBackslash_comment oneLine lineEnd)
  | string opens inside closes =>
    obtain ⟨rfl, rfl⟩ := by simpa [text] using htext
    exact .inl (by simpa [read, CharClass.ofChar_of_isQuote opens] using readString_closed rest inside closes)
  | @number whole fraction _ nonempty digits places =>
    obtain ⟨first, whole, rfl⟩ := List.exists_cons_of_ne_nil nonempty
    have hclass : CharClass.ofChar first = .digit := CharClass.ofChar_of_isDigit (digits first (by simp))
    have digits : ∀ c ∈ whole, c.isDigit := fun c hc => digits c (by simp [hc])
    cases fraction with
    | nil =>
      obtain ⟨rfl, rfl⟩ := by simpa [text] using htext
      simpa only [read, hclass] using readNumber_whole rest digits
    | cons d fraction =>
      obtain ⟨rfl, rfl⟩ := by simpa [text] using htext
      simpa only [read, hclass] using readNumber_fraction rest digits places
  | unexpected strange =>
    obtain ⟨rfl, rfl⟩ := by simpa [text] using htext
    exact .inl (by simp [read, CharClass.ofChar_of_not_significant strange])
  | unterminated opens inside =>
    obtain ⟨rfl, rfl⟩ := by simpa [text] using htext
    exact .inl (by simpa [read, CharClass.ofChar_of_isQuote opens] using readString_open inside)

theorem longest_iff {s : Segment} {c : Char} {cs rest : List Char} :
    Longest s rest (c :: cs) ↔ read c cs = (s, rest) := by
  have hread := starts_read c cs
  constructor
  · intro h
    rcases h.toStarts.eq_read_or with heq | hless
    · exact heq
    · have hle := h.length_le _ _ hread
      have hlength := congrArg List.length (h.text_append.trans hread.text_append.symm)
      simp only [List.length_append] at hlength
      omega
  · intro h
    rw [h] at hread
    refine ⟨hread, fun t left ht => ?_⟩
    rcases ht.eq_read_or with heq | hless
    · rw [h] at heq
      simp [(Prod.mk.inj heq).1]
    · rw [h] at hless
      dsimp only at hless
      have hlength := congrArg List.length (hread.text_append.trans ht.text_append.symm)
      simp only [List.length_append] at hlength
      omega

end Segment

theorem fits_of_mem_segments {text : List Char} {s : Segment} (h : s ∈ segments text) :
    ∃ rest, s.Fits rest := by
  induction text using segments.induct with
  | case1 => simp [segments] at h
  | case2 c cs ih =>
    rw [segments] at h
    rcases List.mem_cons.mp h with rfl | h
    · exact ⟨_, (Segment.starts_read c cs).fits⟩
    · exact ih h

end ScriptScan
