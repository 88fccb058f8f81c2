-- SUMMARY: The lines of an input, told from its first line feed on.
import ScriptScan.Text.Lines

/-! # Lines of an input -/

namespace ScriptScan

theorem pieces_of_not_mem {α : Type} [DecidableEq α] {separator : α} {as : List α} (h : separator ∉ as) :
    pieces separator as = [as] := by
  induction as with
  | nil => rfl
  | cons a as ih =>
    rw [List.mem_cons, not_or] at h
    rw [pieces, ih h.2]
    simp [Ne.symm h.1]

theorem pieces_append {α : Type} [DecidableEq α] {separator : α} {as : List α} (h : separator ∉ as)
    (bs : List α) :
    pieces separator (as ++ separator :: bs) = as :: pieces separator bs := by
  induction as with
  | nil => simp
  | cons a as ih =>
    rw [List.mem_cons, not_or] at h
    rw [List.cons_append, pieces, ih h.2]
    simp [Ne.symm h.1]

/-- Two texts agree up to the first character of some sort. -/
theorem eq_of_append_cons {α : Type} {p : α → Prop} {as bs xs ys : List α} {a b : α} (has : ∀ c ∈ as, ¬p c)
    (hbs : ∀ c ∈ bs, ¬p c) (ha : p a) (hb : p b) (h : as ++ a :: xs = bs ++ b :: ys) :
    as = bs ∧ a = b ∧ xs = ys := by
  induction as generalizing bs with
  | nil =>
    cases bs with
    | nil => simpa using h
    | cons c bs =>
      obtain rfl := (List.cons.inj h).1
      exact absurd ha (hbs a List.mem_cons_self)
  | cons c as ih =>
    cases bs with
    | nil =>
      obtain rfl := (List.cons.inj h).1
      exact absurd hb (has c List.mem_cons_self)
    | cons d bs =>
      obtain ⟨rfl, htail⟩ := List.cons.inj h
      obtain ⟨rfl, hrest⟩ := ih (List.forall_mem_cons.mp has).2 (List.forall_mem_cons.mp hbs).2 htail
      exact ⟨rfl, hrest⟩

@[simp] theorem lines_nil : lines [] = [] := rfl

theorem lines_of_not_mem {input : List UInt8} (h : lineFeed ∉ input) (hne : input ≠ []) :
    lines input = [input] := by
  rw [lines, pieces_of_not_mem h, linesOfPieces]
  simp [hne]

theorem lines_append {line : List UInt8} (h : lineFeed ∉ line) (rest : List UInt8) :
    lines (line ++ lineFeed :: rest) = chomp line :: lines rest := by
  rw [lines, pieces_append h, lines]
  cases hpieces : pieces lineFeed rest with
  | nil => exact absurd hpieces (pieces_ne_nil lineFeed rest)
  | cons next others => rfl

/-- A line loses at most one carriage return. -/
theorem chomp_eq_or (line : List UInt8) :
    chomp line = line ∨ line = chomp line ++ [carriageReturn] := by
  unfold chomp
  split
  · rename_i h
    obtain ⟨before, rfl⟩ := List.getLast?_eq_some_iff.mp h
    exact .inr (by simp)
  · exact .inl rfl

/-- An input is empty, or it is a last line, or a line feed ends its first line. -/
theorem lines_induction {motive : List UInt8 → Prop} (nil : motive [])
    (last : ∀ line, lineFeed ∉ line → line ≠ [] → motive line)
    (step : ∀ line rest, lineFeed ∉ line → motive rest → motive (line ++ lineFeed :: rest))
    (input : List UInt8) : motive input := by
  by_cases h : lineFeed ∈ input
  · obtain ⟨line, rest, rfl, hline⟩ := List.eq_append_cons_of_mem h
    exact step line rest hline (lines_induction nil last step rest)
  · by_cases hne : input = []
    · exact hne ▸ nil
    · exact last input h hne
termination_by input.length
decreasing_by
  subst_vars
  simp only [List.length_append, List.length_cons]
  omega

/-- Where its lines divide, an input divides. -/
theorem lines_eq_append {input : List UInt8} {xs ys : List (List UInt8)} (h : lines input = xs ++ ys) :
    ∃ before after, input = before ++ after ∧ lines before = xs ∧ lines after = ys := by
  induction input using lines_induction generalizing xs with
  | nil =>
    obtain ⟨rfl, rfl⟩ := List.nil_eq_append_iff.mp h
    exact ⟨[], [], rfl, rfl, rfl⟩
  | last line hline hne =>
    rw [lines_of_not_mem hline hne] at h
    rcases List.singleton_eq_append_iff.mp h with ⟨rfl, rfl⟩ | ⟨rfl, rfl⟩
    · exact ⟨[], line, rfl, rfl, lines_of_not_mem hline hne⟩
    · exact ⟨line, [], (List.append_nil line).symm, lines_of_not_mem hline hne, rfl⟩
  | step line rest hline ih =>
    cases xs with
    | nil => exact ⟨[], _, rfl, rfl, h⟩
    | cons x xs =>
      rw [lines_append hline, List.cons_append, List.cons.injEq] at h
      obtain ⟨before, after, rfl, rfl, rfl⟩ := ih h.2
      refine ⟨line ++ lineFeed :: before, after, ?_, ?_, rfl⟩
      · rw [List.append_assoc, List.cons_append]
      · rw [lines_append hline, h.1]

end ScriptScan
