-- SUMMARY: Dividing a list at each occurrence of a separator.

/-! # Pieces

There is one piece more than there are separators, so an empty list has one empty piece. -/

namespace ScriptScan

/-- The pieces of a list between the occurrences of a separator. -/
def pieces {α : Type} [DecidableEq α] (separator : α) : List α → List (List α)
  | [] => [[]]
  | a :: as =>
    match pieces separator as with
    | [] => [[a]]
    | first :: others => if a = separator then [] :: first :: others else (a :: first) :: others

variable {α : Type} [DecidableEq α]

theorem pieces_ne_nil (separator : α) (as : List α) : pieces separator as ≠ [] := by
  cases as with
  | nil => simp [pieces]
  | cons a as =>
    simp only [pieces]
    split
    · simp
    · split <;> simp

@[simp] theorem pieces_separator (separator : α) (as : List α) :
    pieces separator (separator :: as) = [] :: pieces separator as := by
  simp only [pieces]
  split
  · rename_i h
    exact absurd h (pieces_ne_nil separator as)
  · rename_i h
    simp [h]

end ScriptScan
