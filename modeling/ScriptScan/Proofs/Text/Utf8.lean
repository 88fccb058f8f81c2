-- SUMMARY: Decoded texts at a byte that is a character by itself.
import ScriptScan.Text.Utf8

/-!
# Decoding around single bytes

A byte below `0x80` begins a character of its own and continues none, well-formed or not. So a text can be
decoded on each side of it separately. Only the byte of the line feed decodes to one.
-/

namespace ScriptScan.Utf8

theorem decode?_eq_some_iff {bytes : List UInt8} {text : String} :
    decode? bytes = some text ↔ parts bytes = text.toList.map some := by
  have hmapM (ps : List (Option Char)) (cs : List Char) : ps.mapM id = some cs ↔ ps = cs.map some := by
    induction ps generalizing cs with
    | nil => cases cs <;> simp
    | cons p ps ih =>
      cases p with
      | none => cases cs <;> simp
      | some c =>
        cases cs with
        | nil => simp [Option.bind_eq_some_iff]
        | cons d cs =>
          simp only [List.mapM_cons, id, Option.bind_eq_bind, Option.bind_eq_some_iff, ih, Option.pure_def,
            Option.some.injEq, List.cons.injEq, List.map_cons]
          constructor
          · rintro ⟨_, rfl, _, h, rfl, rfl⟩
            exact ⟨rfl, h⟩
          · rintro ⟨rfl, h⟩
            exact ⟨_, rfl, _, h, rfl, rfl⟩
  rw [decode?, Option.map_eq_some_iff]
  constructor
  · rintro ⟨cs, hcs, rfl⟩
    simpa [hmapM] using hcs
  · intro h
    exact ⟨text.toList, (hmapM _ _).mpr h, String.ofList_toList⟩

/-! ## Reading up to a single byte -/

theorem Lead.le_low {b : UInt8} {lead : Lead} (h : Lead.ofByte? b = some lead) : 0x80 ≤ lead.low := by
  simp only [Lead.ofByte?] at h
  repeat' split at h
  all_goals simp only [Option.some.injEq, reduceCtorEq] at h
  all_goals subst h; simp

section single

variable {b : UInt8} (single : b.toNat < 0x80)

include single

theorem readTail_append {payload low high : Nat} (hlow : 0x80 ≤ low) (following : Nat) (xs ys : List UInt8) :
    readTail payload low high following (xs ++ b :: ys) =
      ((readTail payload low high following xs).1, (readTail payload low high following xs).2 ++ b :: ys) := by
  induction following generalizing payload low high xs with
  | zero => rfl
  | succ n ih =>
    cases xs with
    | nil =>
      have hlt : ¬low ≤ b.toNat := by omega
      simp [readTail, hlt]
    | cons x xs =>
      rw [List.cons_append]
      simp only [readTail]
      split
      · exact ih (Nat.le_refl _) xs
      · rfl

theorem read_append (x : UInt8) (xs ys : List UInt8) :
    read x (xs ++ b :: ys) = ((read x xs).1, (read x xs).2 ++ b :: ys) := by
  unfold read
  split
  · rename_i lead hlead
    exact readTail_append single (Lead.le_low hlead) lead.following xs ys
  · rfl

theorem read_single (ys : List UInt8) : read b ys = (some (Char.ofNat b.toNat), ys) := by
  simp [read, Lead.ofByte?, single, readTail]

theorem parts_append (xs ys : List UInt8) :
    parts (xs ++ b :: ys) = parts xs ++ some (Char.ofNat b.toNat) :: parts ys := by
  induction xs using parts.induct with
  | case1 =>
    have hread := read_single single ys
    rw [List.nil_append, parts, parts, hread, List.nil_append]
  | case2 x xs ih => rw [List.cons_append, parts, read_append single, ih, parts, List.cons_append]

/-- Bytes around a single one are decoded separately. -/
theorem decode?_append {xs ys : List UInt8} {text : String} (h : decode? (xs ++ b :: ys) = some text) :
    ∃ u v, decode? xs = some u ∧ decode? ys = some v ∧
      text.toList = u.toList ++ Char.ofNat b.toNat :: v.toList := by
  rw [decode?_eq_some_iff, parts_append single] at h
  obtain ⟨us, vs, htext, hxs, hys⟩ := List.map_eq_append_iff.mp h.symm
  obtain ⟨c, vs, rfl, hc, hys⟩ := List.map_eq_cons_iff.mp hys
  obtain rfl : c = Char.ofNat b.toNat := Option.some.inj hc
  refine ⟨String.ofList us, String.ofList vs, ?_, ?_, by simpa using htext⟩
  · simpa [decode?_eq_some_iff] using hxs.symm
  · simpa [decode?_eq_some_iff] using hys.symm

end single

/-! ## Line feeds -/

theorem eq_of_ofNat_eq_lineFeed {n : Nat} (h : Char.ofNat n = '\n') : n = 10 := by
  by_cases hvalid : n.isValidChar
  · rw [Char.ofNat, dif_pos hvalid] at h
    exact congrArg Char.toNat h
  · rw [Char.ofNat, dif_neg hvalid] at h
    exact absurd h (by decide)

theorem readTail_suffix (payload low high following : Nat) (bytes : List UInt8) :
    (readTail payload low high following bytes).2 <:+ bytes := by
  induction following generalizing payload low high bytes with
  | zero => exact List.suffix_refl _
  | succ n ih =>
    cases bytes with
    | nil => exact List.suffix_refl _
    | cons b bytes =>
      simp only [readTail]
      split
      · exact (ih ..).trans (List.suffix_cons b bytes)
      · exact List.suffix_refl _

theorem read_suffix (b : UInt8) (bytes : List UInt8) : (read b bytes).2 <:+ bytes := by
  unfold read
  split
  · exact readTail_suffix ..
  · exact List.suffix_refl _

/-- Continuation bytes only add to what the first byte contributes. -/
theorem le_of_readTail {payload low high following : Nat} {bytes rest : List UInt8} {c : Char}
    (hlow : 0x80 ≤ low) (hhigh : high ≤ 0xBF)
    (h : readTail payload low high following bytes = (some c, rest)) :
    ∃ n, c = Char.ofNat n ∧ (following ≠ 0 → payload * 64 + low % 64 ≤ n) ∧ payload ≤ n := by
  induction following generalizing payload low high bytes with
  | zero =>
    simp only [readTail, Prod.mk.injEq, Option.some.injEq] at h
    exact ⟨payload, h.1.symm, by simp, Nat.le_refl _⟩
  | succ k ih =>
    cases bytes with
    | nil => simp [readTail] at h
    | cons b bytes =>
      simp only [readTail] at h
      split at h
      · rename_i hb
        obtain ⟨n, hc, -, hle⟩ := ih (Nat.le_refl _) (Nat.le_refl _) h
        exact ⟨n, hc, fun _ => by omega, by omega⟩
      · simp at h

/-- A first byte that announces others leaves no value as low as that of a line feed. -/
theorem Lead.least {b : UInt8} {lead : Lead} (h : Lead.ofByte? b = some lead) :
    lead.high ≤ 0xBF ∧
      (lead.following = 0 ∧ lead.payload = b.toNat ∨
        lead.following ≠ 0 ∧ 10 < lead.payload * 64 + lead.low % 64) := by
  simp only [Lead.ofByte?] at h
  repeat' split at h
  all_goals simp only [Option.some.injEq, reduceCtorEq] at h
  all_goals subst h; simp; try omega

theorem read_ne_lineFeed {b : UInt8} (hb : b.toNat ≠ 10) (bytes : List UInt8) :
    (read b bytes).1 ≠ some '\n' := by
  unfold read
  split
  · rename_i lead hlead
    intro hc
    have hread : readTail lead.payload lead.low lead.high lead.following bytes = (some '\n', _) :=
      Prod.ext hc rfl
    obtain ⟨hhigh, ⟨hzero, hpayload⟩ | ⟨hmore, hleast⟩⟩ := Lead.least hlead
    · rw [hzero, readTail, Prod.mk.injEq, Option.some.injEq] at hread
      exact hb (hpayload.symm.trans (eq_of_ofNat_eq_lineFeed hread.1))
    · obtain ⟨n, hn, hle, -⟩ := le_of_readTail (Lead.le_low hlead) hhigh hread
      have hn := eq_of_ofNat_eq_lineFeed hn.symm
      have hle := hle hmore
      omega
  · exact Option.some_ne_none _ ∘ Eq.symm

theorem lineFeed_mem_of_parts {bytes : List UInt8} (h : some '\n' ∈ parts bytes) : 10 ∈ bytes := by
  induction bytes using parts.induct with
  | case1 => simp [parts] at h
  | case2 b bytes ih =>
    rw [parts] at h
    rcases List.mem_cons.mp h with h | h
    · have hb : b.toNat = 10 := Classical.byContradiction fun hb => read_ne_lineFeed hb bytes h.symm
      exact List.mem_cons.mpr (.inl (UInt8.toNat_inj.mp hb.symm))
    · exact List.mem_cons_of_mem b ((read_suffix b bytes).subset (ih h))

theorem lineFeed_mem {bytes : List UInt8} {text : String} (h : decode? bytes = some text)
    (hmem : '\n' ∈ text.toList) : 10 ∈ bytes := by
  rw [decode?_eq_some_iff] at h
  exact lineFeed_mem_of_parts (h ▸ List.mem_map_of_mem hmem)

end ScriptScan.Utf8
