-- SUMMARY: A listing for display can come from one list of tokens only, but for their lines.
import ScriptScan.Proofs.Listing.Reading

/-!
# Listings for display

A display escapes nothing, and the lexeme of a string may hold blanks, line feeds and whole lines that look like
those of other tokens. What tells tokens apart all the same is their shape: the name of the kind ends at the first
blank, a string at its second quote, a number at the first blank, and the lexeme fixes the literal.
-/

namespace ScriptScan

/-- A token but for its line. -/
def Token.content (t : Token) : Kind × String × Literal := (t.kind, t.lexeme, t.literal)

/-- The line of a token in a listing for display. A string may spread it over several. -/
def Token.row (t : Token) : List Char := (t.display ++ "\n").toList

/-- A listing that was not cut short. -/
def Listing.IsComplete {ρ : Type} (l : Listing ρ) : Prop := ∃ erred, l.result = .ok erred

/-! ## Rows -/

theorem toList_listingText_display (ts : List Token) : (listingText false ts).toList = ts.flatMap Token.row := by
  induction ts with
  | nil => rfl
  | cons t ts ih =>
    rw [listingText_cons, String.toList_append, ih, List.flatMap_cons]
    rfl

theorem Token.row_eq (t : Token) (text : List Char) :
    t.row ++ text = t.kind.name.toList ++ ' ' ::
      (t.lexeme.toList ++ ' ' :: (t.literal.display.toList ++ '\n' :: text)) := by
  simp [row, display]

theorem Token.row_congr {t u : Token} (h : t.content = u.content) : t.row = u.row := by
  obtain ⟨hkind, hlexeme, hliteral⟩ := by simpa [content] using h
  rw [row, row, display, display, hkind, hlexeme, hliteral]

theorem blank_not_mem_name (k : Kind) : ' ' ∉ k.name.toList := by
  cases k <;> decide

theorem Kind.name_injective {k l : Kind} (h : k.name = l.name) : k = l := by
  have hk := Kind.ofName?_name k
  rw [h, Kind.ofName?_name] at hk
  exact (Option.some.inj hk).symm

/-- Two texts agree up to the first blank. -/
theorem eq_of_append_blank {as bs xs ys : List Char} (has : ' ' ∉ as) (hbs : ' ' ∉ bs)
    (h : as ++ ' ' :: xs = bs ++ ' ' :: ys) : as = bs ∧ xs = ys := by
  have hne {cs : List Char} (hcs : ' ' ∉ cs) : ∀ c ∈ cs, ¬c = ' ' := fun c hc => ne_of_mem_of_not_mem hc hcs
  obtain ⟨hstart, -, hrest⟩ := eq_of_append_cons (hne has) (hne hbs) rfl rfl h
  exact ⟨hstart, hrest⟩

section rows

variable {t u : Token} {xs ys : List Char}

/-- The name of the kind ends at the first blank. -/
theorem kind_eq_of_row (h : t.row ++ xs = u.row ++ ys) :
    t.kind = u.kind ∧
      t.lexeme.toList ++ ' ' :: (t.literal.display.toList ++ '\n' :: xs) =
        u.lexeme.toList ++ ' ' :: (u.literal.display.toList ++ '\n' :: ys) := by
  rw [t.row_eq, u.row_eq] at h
  obtain ⟨hname, hrest⟩ := eq_of_append_blank (blank_not_mem_name t.kind) (blank_not_mem_name u.kind) h
  exact ⟨Kind.name_injective (String.toList_inj.mp hname), hrest⟩

/-- A string ends at its second quote, of whichever kind. -/
theorem string_eq_of_append {opening opening' closing closing' : Char} {body body' : List Char}
    (inside : ∀ c ∈ body, ¬IsQuote c) (closes : IsQuote closing) (inside' : ∀ c ∈ body', ¬IsQuote c)
    (closes' : IsQuote closing')
    (h : opening :: (body ++ [closing]) ++ xs = opening' :: (body' ++ [closing']) ++ ys) :
    opening = opening' ∧ body = body' ∧ closing = closing' := by
  rw [List.cons_append, List.cons_append, ← List.append_cons, ← List.append_cons] at h
  obtain ⟨hopening, hrest⟩ := List.cons.inj h
  obtain ⟨hbody, hclosing, -⟩ := eq_of_append_cons inside inside' closes closes' hrest
  exact ⟨hopening, hbody, hclosing⟩

theorem blank_not_mem_number {whole fraction : List Char} (digits : ∀ c ∈ whole, c.isDigit)
    (places : ∀ c ∈ fraction, c.isDigit) : ' ' ∉ (Segment.number whole fraction).text := by
  have hwhole : ' ' ∉ whole := fun hmem => absurd (digits _ hmem) (by decide)
  have hfraction : ' ' ∉ fraction := fun hmem => absurd (places _ hmem) (by decide)
  cases fraction with
  | nil => exact hwhole
  | cons d fraction => simp_all [Segment.text]

/-- A row is the row of one token only, whatever comes after it. -/
theorem Token.Shaped.content_eq (ht : t.Shaped) (hu : u.Shaped) (h : t.row ++ xs = u.row ++ ys) :
    t.content = u.content := by
  obtain ⟨hkind, hlexeme⟩ := kind_eq_of_row h
  cases ht with
  | @fixed kind _ symbol =>
    cases hu with
    | fixed =>
      obtain rfl : kind = _ := hkind
      rfl
    | string | number =>
      obtain rfl : kind = _ := hkind
      exact absurd rfl symbol
  | @string opening closing body _ opens inside closes =>
    cases hu with
    | @string opening' closing' body' _ opens' inside' closes' =>
      simp only [String.toList_ofList] at hlexeme
      obtain ⟨rfl, rfl, rfl⟩ := string_eq_of_append inside closes inside' closes' hlexeme
      rfl
    | fixed symbol =>
      obtain rfl : Kind.string = _ := hkind
      exact absurd rfl symbol
    | number => cases hkind
  | @number whole fraction _ nonempty digits places =>
    cases hu with
    | @number whole' fraction' _ nonempty' digits' places' =>
      simp only [String.toList_ofList] at hlexeme
      obtain ⟨htext, -⟩ := eq_of_append_blank (blank_not_mem_number digits places)
        (blank_not_mem_number digits' places') hlexeme
      -- the value is read from the lexeme
      have hvalue := read?_number nonempty digits places
      rw [htext, read?_number nonempty' digits' places'] at hvalue
      rw [content, content, htext, Option.some.inj hvalue]
    | fixed symbol =>
      obtain rfl : Kind.number = _ := hkind
      exact absurd rfl symbol
    | string => cases hkind

end rows

/-! ## Listings -/

/-- Rows up to an end mark are those of one list of tokens only. -/
theorem content_eq_of_rows {ts us : List Token} (hts : ∀ t ∈ ts, t.Shaped) (hus : ∀ u ∈ us, u.Shaped)
    {m n : Nat} (h : (ts ++ [Token.endAt m]).flatMap Token.row = (us ++ [Token.endAt n]).flatMap Token.row) :
    (ts ++ [Token.endAt m]).map Token.content = (us ++ [Token.endAt n]).map Token.content := by
  induction ts generalizing us with
  | nil =>
    cases us with
    | nil => rfl
    | cons u us =>
      obtain ⟨hkind, -⟩ := kind_eq_of_row h
      exact absurd hkind.symm (hus u List.mem_cons_self).kind_ne_endOfSource
  | cons t ts ih =>
    obtain ⟨ht, hts⟩ := List.forall_mem_cons.mp hts
    cases us with
    | nil =>
      obtain ⟨hkind, -⟩ := kind_eq_of_row h
      exact absurd hkind ht.kind_ne_endOfSource
    | cons u us =>
      obtain ⟨hu, hus⟩ := List.forall_mem_cons.mp hus
      have hcontent := ht.content_eq hu h
      simp only [List.cons_append, List.flatMap_cons, Token.row_congr hcontent, List.append_cancel_left_eq] at h
      simp only [List.cons_append, List.map_cons, hcontent, ih hts hus h]

/-- A listing that was not cut short is whole on its sink. -/
theorem Listing.IsComplete.kept {ρ : Type} [Reporter ρ] {json : Bool} {source : String} {capacity : Option Nat}
    {flushes : Bool} {r : ρ} (h : (listSource json source (.empty capacity flushes) r).IsComplete) :
    (listSource json source (.empty capacity flushes) r).out.kept.toList =
      bytes (listingText json (scan source).tokens.toList) := by
  obtain ⟨erred, hresult⟩ := h
  cases hfits : overruns capacity [] (bytes (listingText json (scan source).tokens.toList)) with
  | false =>
    rw [(listSource_after_of_fits json source flushes r hfits).1]
    cases capacity with
    | none => rfl
    | some room =>
      have hle : (bytes (listingText json (scan source).tokens.toList)).length ≤ room := by
        simpa [overruns] using hfits
      exact List.take_of_length_le hle
  | true =>
    cases capacity with
    | none => cases hfits
    | some room =>
      obtain ⟨-, _, _, _, -, -, -, hcut⟩ := listSource_after_of_cut json source flushes r hfits
      cases hresult.symm.trans hcut

theorem flatMap_row_congr {ts us : List Token} (h : ts.map Token.content = us.map Token.content) :
    ts.flatMap Token.row = us.flatMap Token.row := by
  induction ts generalizing us with
  | nil =>
    obtain rfl := List.map_eq_nil_iff.mp h.symm
    rfl
  | cons t ts ih =>
    obtain ⟨u, us, rfl, hu, hus⟩ := List.map_eq_cons_iff.mp h.symm
    rw [List.flatMap_cons, List.flatMap_cons, Token.row_congr hu.symm, ih hus.symm]

/-- Two whole listings for display are the same exactly if their sources have the same tokens, one by one and but
for their lines. -/
theorem listSource_display_eq_iff {ρ σ : Type} [Reporter ρ] [Reporter σ] (a b : String)
    (capacity capacity' : Option Nat) (flushes flushes' : Bool) (r : ρ) (r' : σ)
    (ha : (listSource false a (.empty capacity flushes) r).IsComplete)
    (hb : (listSource false b (.empty capacity' flushes') r').IsComplete) :
    (listSource false a (.empty capacity flushes) r).out.kept.toList =
        (listSource false b (.empty capacity' flushes') r').out.kept.toList ↔
      (scan a).tokens.toList.map Token.content = (scan b).tokens.toList.map Token.content := by
  have hshaped (source : String) : ∀ t ∈ tokensFrom 1 (segments source.toList), t.Shaped :=
    fun _ => shaped_of_mem_tokensFrom
  rw [ha.kept, hb.kept]
  constructor
  · intro h
    have hrows := congrArg String.toList (bytes_injective h)
    rw [toList_listingText_display, toList_listingText_display] at hrows
    rw [scan, scan, tokens_scanInto, tokens_scanInto] at hrows ⊢
    exact content_eq_of_rows (hshaped a) (hshaped b) hrows
  · intro h
    have hrows := flatMap_row_congr h
    rw [← toList_listingText_display, ← toList_listingText_display, String.toList_inj] at hrows
    rw [hrows]

/-- The string holds a line that looks like a token's, and the two sources differ in what is skipped. -/
theorem listSource_display_eq_imitation :
    let a := "'\nDOT . nil\n\"1.50"
    let b := " '\nDOT . nil\n\"\n1.50\\\\ 2"
    let listing (source : String) := listSource false source (.empty (some 80) true) Collection.empty
    (listing a).IsComplete ∧ (listing b).IsComplete ∧
      (listing a).out.kept.toList = (listing b).out.kept.toList ∧
      (scan a).tokens.toList.map Token.content = (scan b).tokens.toList.map Token.content := by
  intro a b listing
  have ha : (listing a).IsComplete := ⟨false, by decide +kernel⟩
  have hb : (listing b).IsComplete := ⟨false, by decide +kernel⟩
  have h : (listing a).out.kept.toList = (listing b).out.kept.toList := by decide +kernel
  exact ⟨ha, hb, h, (listSource_display_eq_iff a b _ _ _ _ _ _ ha hb).mp h⟩

end ScriptScan
