-- SUMMARY: How much of the text after a segment decides where the segment ends, and that it decides it.
import ScriptScan.Proofs.Source.Grammar

/-!
# Looking ahead

Where a segment ends is decided by a glance at the text after it. A glance shows one character, and after a point
a second one. So the segment that is read is told without reading: it is well-formed, and may end where the glance
says so. Whatever changes a text and leaves the glances alone leaves the segments alone.
-/

namespace ScriptScan

/-! ## Glances -/

/-- What a scan can tell of the text after a segment. -/
inductive Glance where
  | nothing
  | lineFeed
  | backslash
  | equals
  | digit
  /-- A point with a digit after it. -/
  | fraction
  | other
  deriving DecidableEq

def glance : List Char → Glance
  | [] => .nothing
  | '\n' :: _ => .lineFeed
  | '\\' :: _ => .backslash
  | '=' :: _ => .equals
  | '.' :: cs => if cs.head?.any Char.isDigit then .fraction else .other
  | c :: _ => if c.isDigit then .digit else .other

section glance

variable {text : List Char}

theorem glance_eq_nothing : glance text = .nothing ↔ text = [] := by
  unfold glance
  split <;> grind

theorem glance_eq_lineFeed : glance text = .lineFeed ↔ ∃ cs, text = '\n' :: cs := by
  unfold glance
  split <;> grind

theorem glance_eq_backslash : glance text = .backslash ↔ ∃ cs, text = '\\' :: cs := by
  unfold glance
  split <;> grind

theorem glance_eq_equals : glance text = .equals ↔ ∃ cs, text = '=' :: cs := by
  unfold glance
  split <;> grind

theorem glance_eq_digit : glance text = .digit ↔ ∃ d cs, text = d :: cs ∧ d.isDigit := by
  have hpoint (b : Bool) : (if b then Glance.fraction else .other) ≠ .digit := by cases b <;> decide
  unfold glance
  split <;> simp [hpoint]

theorem glance_eq_fraction : glance text = .fraction ↔ ∃ d cs, text = '.' :: d :: cs ∧ d.isDigit := by
  unfold glance
  split
  case h_5 cs =>
    cases cs with
    | nil => simp
    | cons d cs => cases hd : d.isDigit <;> simp [hd]
  all_goals grind

theorem glance_of_not_significant {c : Char} (h : ¬Significant c) (cs : List Char) : glance (c :: cs) = .other := by
  simp only [Significant, not_or] at h
  unfold glance
  split <;> simp_all

/-- A glance shows no more than what stands first, unless that is a point alone. -/
theorem glance_append (hne : text ≠ []) (hpoint : text ≠ ['.']) (tail : List Char) :
    glance (text ++ tail) = glance text := by
  match text with
  | [c] =>
    have hc : c ≠ '.' := fun hc => hpoint (by rw [hc])
    unfold glance
    split <;> grind
  | c :: d :: cs =>
    unfold glance
    split <;> grind

end glance

namespace Segment

/-! ## Where segments end -/

def Formed (s : Segment) : Prop := ∃ rest, s.Fits rest

theorem Formed.text_ne_nil {s : Segment} : s.Formed → s.text ≠ [] := fun ⟨_, hfits⟩ => hfits.text_ne_nil

/-- A segment may end where a glance shows `g`. -/
def EndsAt (g : Glance) : Segment → Prop
  | .fixed kind =>
    (kind = .slash → g ≠ .backslash) ∧ (kind ∈ [.bang, .equal, .less, .greater] → g ≠ .equals)
  | .number _ fraction => g ≠ .digit ∧ (fraction = [] → g ≠ .fraction)
  | .comment _ => g = .nothing ∨ g = .lineFeed
  | .unterminated _ _ => g = .nothing
  | .blank _ | .string .. | .unexpected _ => True

/-- The longest segment ends where it may: if not, a longer one would fit. -/
theorem Longest.endsAt {s : Segment} {rest text : List Char} (h : s.Longest rest text) :
    s.EndsAt (glance rest) := by
  obtain ⟨⟨hfits, rfl⟩, hlongest⟩ := h
  cases hfits with
  | fixed _ single =>
    constructor
    · intro hkind hglance
      obtain ⟨left, rfl⟩ := glance_eq_backslash.mp hglance
      exact single hkind rfl
    · intro hkind hglance
      obtain ⟨left, rfl⟩ := glance_eq_equals.mp hglance
      simp only [List.mem_cons, List.not_mem_nil, or_false] at hkind
      rcases hkind with rfl | rfl | rfl | rfl
      · exact absurd (hlongest (.fixed .bangEqual) left ⟨.fixed nofun nofun, rfl⟩) (by decide)
      · exact absurd (hlongest (.fixed .equalEqual) left ⟨.fixed nofun nofun, rfl⟩) (by decide)
      · exact absurd (hlongest (.fixed .lessEqual) left ⟨.fixed nofun nofun, rfl⟩) (by decide)
      · exact absurd (hlongest (.fixed .greaterEqual) left ⟨.fixed nofun nofun, rfl⟩) (by decide)
  | @number whole fraction _ nonempty digits places =>
    constructor
    · intro hglance
      obtain ⟨d, left, rfl, hd⟩ := glance_eq_digit.mp hglance
      cases fraction with
      | nil =>
        have hlonger := hlongest (.number (whole ++ [d]) []) left
          ⟨.number (by simp) (by simpa [or_imp, forall_and, hd] using digits) nofun, by simp [text]⟩
        exact absurd hlonger (by simp [text])
      | cons e fraction =>
        have hlonger := hlongest (.number whole (e :: (fraction ++ [d]))) left
          ⟨.number nonempty digits (by simpa [or_imp, forall_and, hd] using places), by simp [text]⟩
        exact absurd hlonger (by simp [text])
    · rintro rfl hglance
      obtain ⟨d, left, rfl, hd⟩ := glance_eq_fraction.mp hglance
      have hlonger := hlongest (.number whole [d]) left
        ⟨.number nonempty digits (by simpa using hd), by simp [text]⟩
      exact absurd hlonger (by simp [text])
  | comment _ lineEnd =>
    rcases lineEnd with rfl | hhead
    · exact .inl rfl
    · exact .inr (glance_eq_lineFeed.mpr (List.head?_eq_some_iff.mp hhead))
  | unterminated => rfl
  | blank | string | unexpected => trivial

theorem endsAt_read (c : Char) (cs : List Char) : (read c cs).1.EndsAt (glance (read c cs).2) :=
  (longest_iff.mpr rfl).endsAt

/-! ## What is read -/

private theorem span_of_glance {rest : List Char} (h : glance rest ≠ .digit) :
    rest.takeWhile Char.isDigit = [] ∧ rest.dropWhile Char.isDigit = rest := by
  cases rest with
  | nil => simp
  | cons c rest =>
    have hc : c.isDigit = false := by
      rw [← Bool.not_eq_true]
      exact fun hc => h (glance_eq_digit.mpr ⟨c, rest, rfl, hc⟩)
    simp [hc]

theorem readNumber_of_endsAt {first : Char} {whole rest : List Char} (digits : ∀ c ∈ whole, c.isDigit)
    (ends : (Segment.number (first :: whole) []).EndsAt (glance rest)) :
    readNumber first (whole ++ rest) = (.number (first :: whole) [], rest) := by
  obtain ⟨htake, hdrop⟩ := span_of_glance ends.1
  have hnone : readFraction rest = ([], rest) := by
    unfold readFraction
    split
    · rename_i d left
      have hd : ¬d.isDigit := fun hd => ends.2 rfl (glance_eq_fraction.mpr ⟨d, left, rfl, hd⟩)
      rw [if_neg hd]
    · rfl
  simp only [readNumber, List.takeWhile_append_of_pos digits, List.dropWhile_append_of_pos digits, htake, hdrop,
    hnone, List.append_nil]

theorem readNumber_fraction_of_endsAt {first d : Char} {whole fraction rest : List Char}
    (digits : ∀ c ∈ whole, c.isDigit) (places : ∀ c ∈ d :: fraction, c.isDigit)
    (ends : (Segment.number (first :: whole) (d :: fraction)).EndsAt (glance rest)) :
    readNumber first (whole ++ '.' :: d :: (fraction ++ rest)) =
      (.number (first :: whole) (d :: fraction), rest) := by
  obtain ⟨hd, hfraction⟩ := List.forall_mem_cons.mp places
  obtain ⟨htake, hdrop⟩ := span_of_glance ends.1
  have hpoint : '.'.isDigit = false := rfl
  simp [readNumber, readFraction, List.takeWhile_append_of_pos digits, List.dropWhile_append_of_pos digits,
    List.takeWhile_append_of_pos hfraction, List.dropWhile_append_of_pos hfraction, hpoint, hd, htake, hdrop]

theorem readOperator_of_glance (alone beforeEquals : Kind) {rest : List Char} (h : glance rest ≠ .equals) :
    readOperator alone beforeEquals rest = (.fixed alone, rest) := by
  unfold readOperator
  split
  · exact absurd rfl h
  · rfl

/-- A well-formed segment that ends where it may is the one that is read. -/
theorem read_of_endsAt {s : Segment} {c : Char} {cs rest : List Char} (formed : s.Formed)
    (ends : s.EndsAt (glance rest)) (htext : s.text ++ rest = c :: cs) : read c cs = (s, rest) := by
  obtain ⟨_, hfits⟩ := formed
  cases hfits with
  | @fixed kind _ symbol _ =>
    cases kind
    case slash =>
      obtain ⟨rfl, rfl⟩ := by simpa [text, Kind.symbol] using htext
      refine readBackslash_slash fun hhead => ends.1 rfl (glance_eq_backslash.mpr ?_)
      exact List.head?_eq_some_iff.mp hhead
    case bang | equal | less | greater =>
      obtain ⟨rfl, rfl⟩ := by simpa [text, Kind.symbol] using htext
      exact readOperator_of_glance _ _ (ends.2 (by decide))
    case string | number | endOfSource => exact absurd rfl symbol
    all_goals
      obtain ⟨rfl, rfl⟩ := by simpa [text, Kind.symbol] using htext
      rfl
  | blank mem =>
    obtain ⟨rfl, rfl⟩ := by simpa [text] using htext
    simp [read, CharClass.ofChar_of_blank mem]
  | comment oneLine =>
    obtain ⟨rfl, rfl⟩ := by simpa [text] using htext
    refine readBackslash_comment oneLine (ends.imp glance_eq_nothing.mp fun hglance => ?_)
    exact List.head?_eq_some_iff.mpr (glance_eq_lineFeed.mp hglance)
  | string opens inside closes =>
    obtain ⟨rfl, rfl⟩ := by simpa [text] using htext
    simpa [read, CharClass.ofChar_of_isQuote opens] using readString_closed rest inside closes
  | @number whole fraction _ nonempty digits places =>
    obtain ⟨first, whole, rfl⟩ := List.exists_cons_of_ne_nil nonempty
    obtain ⟨hfirst, hwhole⟩ := List.forall_mem_cons.mp digits
    have hclass : CharClass.ofChar first = .digit := CharClass.ofChar_of_isDigit hfirst
    cases fraction with
    | nil =>
      obtain ⟨rfl, rfl⟩ := by simpa [text] using htext
      simpa only [read, hclass] using readNumber_of_endsAt hwhole ends
    | cons d fraction =>
      obtain ⟨rfl, rfl⟩ := by simpa [text] using htext
      simpa only [read, hclass] using readNumber_fraction_of_endsAt hwhole places ends
  | unexpected strange =>
    obtain ⟨rfl, rfl⟩ := by simpa [text] using htext
    simp [read, CharClass.ofChar_of_not_significant strange]
  | unterminated opens inside =>
    obtain rfl := glance_eq_nothing.mp ends
    obtain ⟨rfl, rfl⟩ := by simpa [text] using htext
    simpa [read, CharClass.ofChar_of_isQuote opens] using readString_open inside

/-- More text after a segment does not change it if it may still end where it does. -/
theorem read_append_of_endsAt {c : Char} {cs tail : List Char}
    (h : (read c cs).1.EndsAt (glance ((read c cs).2 ++ tail))) :
    read c (cs ++ tail) = ((read c cs).1, (read c cs).2 ++ tail) := by
  obtain ⟨hfits, htext⟩ := starts_read c cs
  refine read_of_endsAt ⟨_, hfits⟩ h ?_
  rw [← List.append_assoc, htext, List.cons_append]

end Segment

end ScriptScan
