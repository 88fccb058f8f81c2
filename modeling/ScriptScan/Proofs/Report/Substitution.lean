-- SUMMARY: Filling a template round by round is the same as reading it once and putting all arguments in.
import Mathlib.Data.List.GetD
import ScriptScan.Proofs.Report.Filling

/-!
# Substitution at once

A template is read from left to right into characters and holes. After some rounds of filling the text is that of these
parts, with as many arguments in place: no round finds a hole that the template does not have, because an argument
breaks up whatever digits and braces around it might have made one.
-/

namespace ScriptScan

/-! ## Parts of a template -/

/-- What is read off a template: a character that stands for itself, or a numbered hole. -/
inductive Part where
  | copied (c : Char)
  | slot (i : Nat)
  deriving DecidableEq

/-- The hole, of those numbered below `count`, with which a text starts. -/
def hole? (count : Nat) (text : List Char) : Option Nat :=
  (List.range count).find? fun i => (hole i).isPrefixOf text

/-- Reads a template from left to right. -/
def parts (count : Nat) : List Char → List Part
  | [] => []
  | c :: cs =>
    match hole? count (c :: cs) with
    | some i => .slot i :: parts count (cs.drop ((hole i).length - 1))
    | none => .copied c :: parts count cs
termination_by text => text.length
decreasing_by
  · simp only [List.length_drop, List.length_cons]
    omega
  · simp

/-- The text of a part. A hole without an argument is left as it is. -/
def Part.filled (args : List (List Char)) : Part → List Char
  | .copied c => [c]
  | .slot i => args.getD i (hole i)

/-- Fills the holes of a template all at once. What is put in is not read again. -/
def substitute (args : List (List Char)) (template : List Char) : List Char :=
  (parts args.length template).flatMap (Part.filled args)

/-- An argument that is no part of a hole, and makes none together with what is around it. -/
structure Inert (a : List Char) : Prop where
  opening : '{' ∉ a
  closing : '}' ∉ a
  strange : ∃ c ∈ a, c.isDigit = false

/-! ## Holes -/

theorem hole?_eq_some {count i : Nat} {c : Char} {cs : List Char} (h : hole? count (c :: cs) = some i) :
    i < count ∧ c :: cs = hole i ++ cs.drop ((hole i).length - 1) := by
  have hprefix := List.find?_some h
  rw [List.isPrefixOf_iff_prefix] at hprefix
  obtain ⟨rest, hrest⟩ := hprefix
  refine ⟨List.mem_range.mp (List.mem_of_find?_eq_some h), ?_⟩
  rw [hole, List.cons_append] at hrest
  obtain ⟨rfl, rfl⟩ := List.cons.inj hrest
  rw [hole, List.length_cons, Nat.add_sub_cancel, List.drop_left, List.cons_append]

theorem hole?_eq_none {count i : Nat} {text : List Char} (h : hole? count text = none) (hi : i < count) :
    ¬hole i <+: text := by
  have hprefix := List.find?_eq_none.mp h i (List.mem_range.mpr hi)
  rwa [List.isPrefixOf_iff_prefix] at hprefix

/-- No hole is the beginning of another. -/
theorem eq_of_hole_begins {i k : Nat} {rest : List Char} (h : hole k <+: hole i ++ rest) : k = i := by
  obtain ⟨ys, hys⟩ := h
  have hdigits (n : Nat) (zs : List Char) :
      (hole n ++ zs).tail.takeWhile Char.isDigit = Nat.toDigits 10 n := by
    rw [hole, List.cons_append, List.tail_cons, List.append_assoc,
      List.takeWhile_append_of_pos fun _ => Nat.isDigit_of_mem_toDigits (by decide) (by decide),
      List.singleton_append, List.takeWhile_cons_of_neg (by decide), List.append_nil]
  have hsame : Nat.toDigits 10 k = Nat.toDigits 10 i := by
    rw [← hdigits k ys, hys, hdigits]
  rw [← Nat.ofDigitChars_ten_toDigits (n := k), hsame, Nat.ofDigitChars_ten_toDigits]

theorem brace_not_mem_digits (i : Nat) : '{' ∉ Nat.toDigits 10 i ++ ['}'] := by
  rw [List.mem_append, not_or]
  refine ⟨fun hmem => ?_, by decide⟩
  exact absurd (Nat.isDigit_of_mem_toDigits (by decide) (by decide) hmem) (by decide)

section replaceAll

variable {value : List Char}

theorem replaceAll_cons_of_not_begins {mark : List Char} {c : Char} {cs : List Char} (h : ¬mark <+: c :: cs) :
    replaceAll mark value (c :: cs) = c :: replaceAll mark value cs := by
  rw [replaceAll, if_neg (by rwa [List.isPrefixOf_iff_prefix])]

theorem replaceAll_hole_append {i k : Nat} (h : k ≠ i) (ys : List Char) :
    replaceAll (hole k) value (hole i ++ ys) = hole i ++ replaceAll (hole k) value ys := by
  have hother : ¬hole k <+: hole i ++ ys := fun hprefix => h (eq_of_hole_begins hprefix)
  have hrest : replaceAll (hole k) value (Nat.toDigits 10 i ++ ['}'] ++ ys) =
      Nat.toDigits 10 i ++ ['}'] ++ replaceAll (hole k) value ys :=
    replaceAll_append_of_not_mem (brace_not_mem_digits i) ys
  have hcons (zs : List Char) : hole i ++ zs = '{' :: (Nat.toDigits 10 i ++ ['}'] ++ zs) := rfl
  rw [hcons] at hother
  rw [hcons, replaceAll_cons_of_not_begins hother, hrest, hcons]

end replaceAll

/-! ## Rounds -/

/-- An argument stands between digits and a closing brace. -/
theorem Inert.not_begins {a : List Char} (h : Inert a) {digits : List Char} (hdigits : ∀ c ∈ digits, c.isDigit)
    (rest : List Char) : ¬digits ++ ['}'] <+: a ++ rest := by
  intro hprefix
  rcases List.prefix_or_prefix_of_prefix hprefix (List.prefix_append a rest) with hinside | haround
  · exact h.closing (hinside.subset (List.mem_append_right _ List.mem_cons_self))
  · obtain ⟨c, hc, hstrange⟩ := h.strange
    rcases List.mem_append.mp (haround.subset hc) with hdigit | hclosing
    · rw [hdigits c hdigit] at hstrange
      cases hstrange
    · exact h.closing (List.mem_singleton.mp hclosing ▸ hc)

section rounds

variable {count : Nat} {args : List (List Char)}

theorem filled_slot_eq_or (args : List (List Char)) (i : Nat) :
    Part.filled args (.slot i) = hole i ∨ Part.filled args (.slot i) ∈ args := by
  rw [Part.filled, List.getD_eq_getElem?_getD]
  cases h : args[i]? with
  | none => exact .inl rfl
  | some a => exact .inr (List.mem_of_getElem? h)

/-- What starts no hole and no argument has been copied from the template. -/
theorem copied_of_prefix {c : Char} {cs text : List Char} (hc : c ≠ '{')
    (hargs : ∀ a ∈ args, ∀ rest, ¬c :: cs <+: a ++ rest)
    (h : c :: cs <+: (parts count text).flatMap (Part.filled args)) :
    ∃ rest, text = c :: rest ∧ cs <+: (parts count rest).flatMap (Part.filled args) := by
  cases text with
  | nil =>
    rw [parts] at h
    cases List.prefix_nil.mp h
  | cons d text =>
    rw [parts] at h
    split at h
    · rename_i i _
      rw [List.flatMap_cons] at h
      rcases filled_slot_eq_or args i with hhole | hmem
      · rw [hhole, hole, List.cons_append] at h
        exact absurd (List.cons_prefix_cons.mp h).1 hc
      · exact absurd h (hargs _ hmem _)
    · rw [List.flatMap_cons, Part.filled, List.singleton_append] at h
      obtain ⟨rfl, hrest⟩ := List.cons_prefix_cons.mp h
      exact ⟨text, rfl, hrest⟩

variable (hargs : ∀ a ∈ args, Inert a)

include hargs

/-- The end of a hole that is seen in the text with some arguments in place is one of the template. -/
theorem prefix_of_prefix_filled {digits : List Char} (hdigits : ∀ c ∈ digits, c.isDigit) {text : List Char}
    (h : digits ++ ['}'] <+: (parts count text).flatMap (Part.filled args)) : digits ++ ['}'] <+: text := by
  have hinert : ∀ a ∈ args, ∀ rest, ¬digits ++ ['}'] <+: a ++ rest := fun a ha => (hargs a ha).not_begins hdigits
  induction digits generalizing text with
  | nil =>
    obtain ⟨rest, rfl, -⟩ := copied_of_prefix (by decide) hinert h
    exact List.prefix_append ['}'] rest
  | cons d digits ih =>
    obtain ⟨hd, hrest⟩ := List.forall_mem_cons.mp hdigits
    have hbrace : d ≠ '{' := by
      rintro rfl
      cases hd
    obtain ⟨rest, rfl, hprefix⟩ := copied_of_prefix hbrace hinert h
    exact List.cons_prefix_cons.mpr ⟨rfl, ih hrest hprefix fun a ha => (hargs a ha).not_begins hrest⟩

/-- A round puts one argument more in place. -/
theorem replaceAll_filled (hcount : args.length < count) (a : List Char) (text : List Char) :
    replaceAll (hole args.length) a ((parts count text).flatMap (Part.filled args)) =
      (parts count text).flatMap (Part.filled (args ++ [a])) := by
  induction text using parts.induct count with
  | case1 => rw [parts, List.flatMap_nil, replaceAll, List.flatMap_nil]
  | case2 c cs i hi ih =>
    rw [parts, hi, List.flatMap_cons, List.flatMap_cons, ← ih]
    rcases Nat.lt_trichotomy i args.length with hbefore | rfl | hbehind
    · have hsame : Part.filled (args ++ [a]) (.slot i) = Part.filled args (.slot i) := by
        rw [Part.filled, Part.filled, List.getD_append _ _ _ _ hbefore]
      have hmem : Part.filled args (.slot i) ∈ args := by
        rw [Part.filled, List.getD_eq_getElem _ _ hbefore]
        exact List.getElem_mem hbefore
      rw [hsame, hole, replaceAll_append_of_not_mem (hargs _ hmem).opening]
    · have hhole : Part.filled args (.slot args.length) = hole args.length :=
        List.getD_eq_default _ _ (Nat.le_refl _)
      have hfilled : Part.filled (args ++ [a]) (.slot args.length) = a := by
        simp [Part.filled]
      rw [hhole, hfilled, hole, replaceAll_mark_append]
    · have hhole : Part.filled args (.slot i) = hole i := List.getD_eq_default _ _ (Nat.le_of_lt hbehind)
      have hstill : Part.filled (args ++ [a]) (.slot i) = hole i := by
        refine List.getD_eq_default _ _ ?_
        rwa [List.length_append, List.length_singleton]
      rw [hhole, hstill, replaceAll_hole_append (Nat.ne_of_lt hbehind)]
  | case3 c cs hnone ih =>
    have hcopied : ¬hole args.length <+: c :: (parts count cs).flatMap (Part.filled args) := by
      intro hprefix
      rw [hole] at hprefix
      obtain ⟨rfl, hrest⟩ := List.cons_prefix_cons.mp hprefix
      have hend := prefix_of_prefix_filled hargs
        (fun _ => Nat.isDigit_of_mem_toDigits (by decide) (by decide)) hrest
      exact hole?_eq_none hnone hcount (List.cons_prefix_cons.mpr ⟨rfl, hend⟩)
    rw [parts, hnone, List.flatMap_cons, List.flatMap_cons, ← ih, Part.filled, Part.filled, List.singleton_append,
      List.singleton_append, replaceAll_cons_of_not_begins hcopied]

end rounds

/-- Without arguments the parts are the template again. -/
theorem flatMap_filled_nil (count : Nat) (text : List Char) : (parts count text).flatMap (Part.filled []) = text := by
  induction text using parts.induct count with
  | case1 => rw [parts, List.flatMap_nil]
  | case2 c cs i hi ih =>
    rw [parts, hi, List.flatMap_cons, ih, (hole?_eq_some hi).2]
    rfl
  | case3 c cs hnone ih =>
    rw [parts, hnone, List.flatMap_cons, ih]
    rfl

/-- The rounds from some arguments on. -/
theorem fillFrom_filled (text : List Char) {done todo : List (List Char)} {count : Nat}
    (hcount : count = (done ++ todo).length) (h : ∀ a ∈ (done ++ todo).dropLast, Inert a) :
    fillFrom done.length ((parts count text).flatMap (Part.filled done)) todo =
      (parts count text).flatMap (Part.filled (done ++ todo)) := by
  induction todo generalizing done with
  | nil => rw [fillFrom, List.append_nil]
  | cons a todo ih =>
    have hdone : ∀ b ∈ done, Inert b := by
      intro b hb
      apply h
      rw [List.dropLast_append_of_ne_nil (List.cons_ne_nil a todo)]
      exact List.mem_append_left _ hb
    have hless : done.length < count := by
      rw [hcount, List.length_append, List.length_cons]
      omega
    rw [List.append_cons] at hcount h
    have hnext := ih hcount h
    rw [List.length_append, List.length_singleton] at hnext
    rw [fillFrom, replaceAll_filled hdone hless, hnext, ← List.append_cons]

/-- Filling is substitution all at once, for any template, if no argument but the last has a brace in it and each of
them something else than digits. -/
theorem fill_eq_substitute (template : String) {args : List String}
    (h : ∀ a ∈ args.dropLast, '{' ∉ a.toList ∧ '}' ∉ a.toList ∧ ∃ c ∈ a.toList, c.isDigit = false) :
    (fill template args).toList = substitute (args.map String.toList) template.toList := by
  have hinert : ∀ a ∈ ([] ++ args.map String.toList).dropLast, Inert a := by
    intro a ha
    rw [List.nil_append, ← List.map_dropLast] at ha
    obtain ⟨b, hb, rfl⟩ := List.mem_map.mp ha
    obtain ⟨opening, closing, strange⟩ := h b hb
    exact ⟨opening, closing, strange⟩
  have hrounds := fillFrom_filled template.toList rfl hinert
  rw [flatMap_filled_nil] at hrounds
  rw [fill, String.toList_ofList, substitute]
  exact hrounds

/-- Braces around a hole, a hole that is broken up, and a hole in the last argument. -/
theorem fill_eq_substitute_nested :
    let template := "\x7b\x7b0\x7d\x7d \x7b1\x7b0\x7d\x7d \x7b1\x7d"
    let args := ["1a", "\x7b0\x7d"]
    (∀ a ∈ args.dropLast, '{' ∉ a.toList ∧ '}' ∉ a.toList ∧ ∃ c ∈ a.toList, c.isDigit = false) ∧
      (fill template args).toList = substitute (args.map String.toList) template.toList ∧
      fill template args = "\x7b1a\x7d \x7b11a\x7d \x7b0\x7d" := by
  intro template args
  have hargs : ∀ a ∈ args.dropLast, '{' ∉ a.toList ∧ '}' ∉ a.toList ∧ ∃ c ∈ a.toList, c.isDigit = false := by
    intro a ha
    obtain rfl := List.mem_singleton.mp ha
    exact ⟨by decide, by decide, 'a', by decide, rfl⟩
  exact ⟨hargs, fill_eq_substitute template hargs, by decide +kernel⟩

/-- With digits alone an argument completes a hole, here the second one around the first. -/
example :
    let template := "\x7b\x7b0\x7d\x7d"
    fill template ["1", "b"] = "b" ∧ String.ofList (substitute [['1'], ['b']] template.toList) = "\x7b1\x7d" := by
  decide +kernel

end ScriptScan
