-- SUMMARY: Which blanks may follow a text without changing the segments before them.
import ScriptScan.Proofs.Source.Glance

/-!
# Blanks after a text

No token looks past a blank, so a blank cuts a text in two, except inside a string without an end and in a
comment; a comment is cut by the line feed alone.
-/

namespace ScriptScan

namespace Segment

/-- A string without an end. -/
def Unclosed : Segment → Prop
  | .unterminated _ _ => True
  | _ => False

/-- A segment with `rest` after it is settled if a blank `d` after `rest` can be no part of it. -/
def Settled (d : Char) (rest : List Char) : Segment → Prop
  | .unterminated _ _ => False
  | .comment _ => rest = [] → d = '\n'
  | _ => True

section blank

variable {d : Char} (blank : d ∈ [' ', '\t', '\r', '\n'])

include blank

/-- A blank shows no more than whether a line ends. -/
theorem glance_blank (tail : List Char) :
    glance (d :: tail) = if d = '\n' then .lineFeed else .other := by
  simp only [List.mem_cons, List.not_mem_nil, or_false] at blank
  rcases blank with rfl | rfl | rfl | rfl <;> rfl

/-- No glance goes past some text to a blank and sees more than the text. -/
theorem glance_append_blank {rest : List Char} (hne : rest ≠ []) (tail : List Char) :
    glance (rest ++ d :: tail) = glance rest := by
  by_cases hpoint : rest = ['.']
  · have hdigits : ∀ c ∈ [' ', '\t', '\r', '\n'], c.isDigit = false := by simp
    simp [hpoint, glance, hdigits d blank]
  · exact glance_append hne hpoint (d :: tail)

/-- A settled segment may still end where it does. -/
theorem Settled.endsAt {s : Segment} {rest : List Char} (h : s.Settled d rest) (ends : s.EndsAt (glance rest))
    (tail : List Char) : s.EndsAt (glance (rest ++ d :: tail)) := by
  by_cases hrest : rest = []
  · rw [hrest, List.nil_append, glance_blank blank]
    cases s with
    | comment => exact .inr (if_pos (h hrest))
    | unterminated => exact h.elim
    | fixed | number => split <;> simp [EndsAt]
    | blank | string | unexpected => trivial
  · rwa [glance_append_blank blank hrest]

/-- A blank after a settled segment changes neither the segment nor what is left before the blank. -/
theorem read_append {c : Char} {cs tail : List Char} (h : (read c cs).1.Settled d (read c cs).2) :
    read c (cs ++ d :: tail) = ((read c cs).1, (read c cs).2 ++ d :: tail) :=
  read_append_of_endsAt (h.endsAt blank (endsAt_read c cs) tail)

end blank

end Segment

/-! ## Divisions -/

/-- A text in which every string has an end. -/
def Closed (text : List Char) : Prop := ∀ s ∈ segments text, ¬s.Unclosed

theorem segments_blank {d : Char} (blank : d ∈ [' ', '\t', '\r', '\n']) (tail : List Char) :
    segments (d :: tail) = .blank d :: segments tail := by
  have hread : Segment.read d tail = (.blank d, tail) := by
    simp [Segment.read, CharClass.ofChar_of_blank blank]
  rw [segments, hread]

/-- A line feed cuts a text in two. -/
theorem segments_append_lineFeed {text : List Char} (h : Closed text) (tail : List Char) :
    segments (text ++ '\n' :: tail) = segments text ++ .blank '\n' :: segments tail := by
  induction text using segments.induct with
  | case1 =>
    rw [List.nil_append, segments_blank (by decide), segments, List.nil_append]
  | case2 c cs ih =>
    rw [Closed, segments, List.forall_mem_cons] at h
    have hread : Segment.read c (cs ++ '\n' :: tail) =
        ((Segment.read c cs).1, (Segment.read c cs).2 ++ '\n' :: tail) := by
      refine Segment.read_append (by decide) ?_
      cases hs : (Segment.read c cs).1 with
      | unterminated =>
        rw [hs] at h
        exact absurd trivial h.1
      | comment => exact fun _ => rfl
      | _ => trivial
    rw [List.cons_append, segments, hread, ih h.2, segments, List.cons_append]

/-- A carriage return at the end is a blank, or part of the comment that stands there. -/
theorem segments_append_carriageReturn {text : List Char} (h : Closed text) :
    segments (text ++ ['\r']) = segments text ++ [.blank '\r'] ∨
      ∃ ss body, segments text = ss ++ [.comment body] ∧
        segments (text ++ ['\r']) = ss ++ [.comment (body ++ ['\r'])] := by
  induction text using segments.induct with
  | case1 =>
    rw [List.nil_append, segments_blank (by decide), segments]
    exact .inl rfl
  | case2 c cs ih =>
    rw [Closed, segments, List.forall_mem_cons] at h
    by_cases hsettled : (Segment.read c cs).1.Settled '\r' (Segment.read c cs).2
    · have hread : Segment.read c (cs ++ ['\r']) = ((Segment.read c cs).1, (Segment.read c cs).2 ++ ['\r']) :=
        Segment.read_append (by decide) hsettled
      rw [List.cons_append, segments, segments, hread]
      rcases ih h.2 with heq | ⟨ss, body, hbefore, hafter⟩
      · exact .inl (by rw [heq, List.cons_append])
      · exact .inr ⟨_ :: ss, body, by rw [hbefore, List.cons_append], by rw [hafter, List.cons_append]⟩
    · -- what is not settled is a comment that runs to the end of the text
      obtain ⟨hfits, htext⟩ := Segment.starts_read c cs
      cases hs : (Segment.read c cs).1 with
      | unterminated =>
        rw [hs] at h
        exact absurd trivial h.1
      | comment body =>
        rw [hs] at hsettled hfits htext
        obtain ⟨hrest, -⟩ := Classical.not_imp.mp hsettled
        rw [hrest] at hfits htext
        obtain ⟨rfl, rfl⟩ := by simpa [Segment.text] using htext
        cases hfits with
        | comment oneLine lineEnd =>
          have hread : Segment.read '\\' ('\\' :: (body ++ ['\r'])) = (.comment (body ++ ['\r']), []) := by
            have honeLine : '\n' ∉ body ++ ['\r'] := by simpa using oneLine
            have := Segment.readBackslash_comment honeLine (.inl rfl)
            rwa [List.append_nil] at this
          refine .inr ⟨[], body, ?_, ?_⟩
          · rw [segments, hs, hrest, segments, List.nil_append]
          · rw [List.cons_append, List.cons_append, segments, hread, segments, List.nil_append]
      | _ =>
        rw [hs] at hsettled
        exact absurd trivial hsettled

end ScriptScan
