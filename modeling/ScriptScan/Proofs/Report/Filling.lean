-- SUMMARY: Replacing a mark in a text, and what the filled templates of lexical errors say.
import ScriptScan.Source.LexicalError

/-! # Filling templates -/

namespace ScriptScan

section replaceAll

variable {m : Char} {ms value : List Char}

/-- What lacks the first character of a mark is left as it is. -/
theorem replaceAll_append_of_not_mem {xs : List Char} (h : m ∉ xs) (ys : List Char) :
    replaceAll (m :: ms) value (xs ++ ys) = xs ++ replaceAll (m :: ms) value ys := by
  induction xs with
  | nil => rfl
  | cons x xs ih =>
    rw [List.mem_cons, not_or] at h
    have hprefix : (m :: ms).isPrefixOf (x :: (xs ++ ys)) = false := by
      simp [List.isPrefixOf, h.1]
    rw [List.cons_append, replaceAll, hprefix, if_neg Bool.false_ne_true, ih h.2, List.cons_append]

theorem replaceAll_mark_append (ys : List Char) :
    replaceAll (m :: ms) value (m :: ms ++ ys) = value ++ replaceAll (m :: ms) value ys := by
  have hprefix : (m :: ms).isPrefixOf (m :: (ms ++ ys)) = true := by
    rw [List.isPrefixOf_iff_prefix]
    exact List.prefix_append (m :: ms) ys
  rw [List.cons_append, replaceAll, hprefix, if_pos rfl, List.length_cons, Nat.add_sub_cancel, List.drop_left]

end replaceAll

/-- A text with one hole, at its end. -/
theorem fill_append_hole {before : String} (h : '{' ∉ before.toList) (value : String) :
    fill (before ++ String.ofList (hole 0)) [value] = before ++ value := by
  have hlast : replaceAll (hole 0) value.toList (hole 0) = value.toList := by
    have hmark : replaceAll (hole 0) value.toList (hole 0 ++ []) =
        value.toList ++ replaceAll (hole 0) value.toList [] := replaceAll_mark_append []
    rwa [List.append_nil, replaceAll, List.append_nil] at hmark
  have hwhole : replaceAll (hole 0) value.toList (before.toList ++ hole 0) = before.toList ++ value.toList := by
    rw [hole, replaceAll_append_of_not_mem h, ← hole, hlast]
  rw [← String.toList_inj]
  simp [fill, fillFrom, hwhole]

end ScriptScan
