-- SUMMARY: A JSON listing, divided at its line feeds and read as objects, gives the tokens back.
import ScriptScan.Proofs.Listing.Capacity
import ScriptScan.Proofs.Number.Reading
import ScriptScan.Proofs.Text.Lines

/-!
# Listings read back

The JSON of a token is one line, and an object from which kind, lexeme, literal and line can be read again. Only
an infinite literal is lost, because JSON has no number for it.
-/

namespace ScriptScan

/-! ## Tokens from JSON -/

/-- The literal that a value stands for. -/
def Json.Value.literal? : Json.Value → Option Literal
  | .null => some .none
  | .truth _ => none
  | .number negative magnitude => some (.number (.signed negative magnitude.nearest))
  | .text value => some (.text value)

def Json.Value.text? : Json.Value → Option String
  | .text value => some value
  | _ => none

/-- The natural number that a value is written as, without a point or an exponent. -/
def Json.Value.natural? : Json.Value → Option Nat
  | .number false ⟨coefficient, 0⟩ => some coefficient
  | _ => none

/-- Reads a token from an object that has its four members, in any order, and no others. -/
def Token.ofJson? (cs : List Char) : Option Token := do
  let members ← Json.object? cs
  let kind ← (members.lookup "kind").bind Json.Value.text?
  let kind ← Kind.ofName? kind
  let lexeme ← (members.lookup "lexeme").bind Json.Value.text?
  let literal ← (members.lookup "literal").bind Json.Value.literal?
  let line ← (members.lookup "line").bind Json.Value.natural?
  if members.length = 4 then some ⟨kind, lexeme, literal, line⟩ else none

theorem Kind.ofName?_name (k : Kind) : Kind.ofName? k.name = some k := by
  -- the first kind with a name is the only one
  have hread : ∀ l ∈ Kind.all, Kind.ofName? l.name = some l := by decide
  exact hread k (Kind.mem_all k)

/-! ## Literals -/

namespace Literal

/-- What JSON keeps of a literal. -/
def finite : Literal → Literal
  | .number x => if x.isInfinite then .none else .number x
  | l => l

theorem json_eq_null {x : Binary64} (h : Binary64.infiniteRank ≤ x.rank) : json (.number x) = "null" := by
  rcases Nat.lt_or_eq_of_le h with hless | hequal
  · simp [json, jsonFormat, NumberFormat.render, Binary64.isNaN, hless]
  · simp [json, jsonFormat, NumberFormat.render, Binary64.isNaN, Binary64.isInfinite, hequal]

theorem stands_json {l : Literal} (h : ∀ x, l = .number x → x.isNaN = false) :
    ∃ v, Json.Stands l.json.toList v ∧ v.literal? = some l.finite := by
  cases l with
  | none => exact ⟨.null, Json.stands_null, rfl⟩
  | text value => exact ⟨.text value, Json.stands_quote value, rfl⟩
  | number x =>
    have hnan : x.rank ≤ Binary64.infiniteRank := by simpa [Binary64.isNaN] using h x rfl
    rcases Nat.lt_or_eq_of_le hnan with hless | hequal
    · obtain ⟨hword, d, hread, hsigned⟩ := jsonFormat.word?_render hless
      have hinfinite : x.isInfinite = false := by simpa [Binary64.isInfinite] using Nat.ne_of_lt hless
      refine ⟨_, Json.stands_word hword hread, ?_⟩
      rw [Json.Value.literal?, hsigned, finite, hinfinite]
      rfl
    · have hinfinite : x.isInfinite = true := by simpa [Binary64.isInfinite] using hequal
      refine ⟨.null, ?_, by rw [finite, hinfinite]; rfl⟩
      rw [json_eq_null (Nat.le_of_eq hequal.symm)]
      exact Json.stands_null

end Literal

/-! ## Tokens -/

namespace Token

/-- What JSON keeps of a token. -/
def finite (t : Token) : Token := { t with literal := t.literal.finite }

/-- The members of a token, given the value of its literal. -/
def members (t : Token) (literal : Json.Value) : List Json.Member :=
  [⟨"kind", (Json.quote t.kind.name).toList, .text t.kind.name⟩,
    ⟨"lexeme", (Json.quote t.lexeme).toList, .text t.lexeme⟩,
    ⟨"literal", t.literal.json.toList, literal⟩,
    ⟨"line", Nat.toDigits 10 t.line, .number false ⟨t.line, 0⟩⟩]

theorem toList_json (t : Token) (literal : Json.Value) :
    t.json.toList = '\x7b' :: Json.Member.written (t.members literal) := by
  have hkind : Json.quote "kind" = "\"kind\"" := by decide
  have hlexeme : Json.quote "lexeme" = "\"lexeme\"" := by decide
  have hliteral : Json.quote "literal" = "\"literal\"" := by decide
  have hline : Json.quote "line" = "\"line\"" := by decide
  unfold json
  simp [members, Json.Member.written, hkind, hlexeme, hliteral, hline]

theorem ofJson?_json {t : Token} (h : ∀ x, t.literal = .number x → x.isNaN = false) :
    ofJson? t.json.toList = some t.finite := by
  obtain ⟨v, hliteral, hvalue⟩ := t.literal.stands_json h
  have hline : Json.Stands (Nat.toDigits 10 t.line) (.number false ⟨t.line, 0⟩) :=
    Json.stands_word (fun c hc => Json.isWordChar_of_isDigit (isDigit_toDigits c hc)) (word?_toDigits _)
  have hstands : ∀ m ∈ t.members v, Json.Stands m.text m.value := by
    simp [members, Json.stands_quote, hliteral, hline]
  rw [ofJson?, toList_json t v, Json.object?_written hstands]
  simp [members, List.lookup_cons, Json.Value.text?, Json.Value.natural?, Kind.ofName?_name, hvalue, finite]

end Token

/-! ## Lines -/

namespace Json

theorem lineFeed_not_mem_escape (c : Char) : '\n' ∉ escape c := by
  have hdigit (n : Nat) (h : n < 16) : Nat.digitChar n ≠ '\n' := by
    revert n
    decide
  unfold escape
  split
  case h_8 _ _ _ hfeed _ _ _ _ =>
    split
    · rename_i hless
      have hhigh := hdigit (c.toNat / 16) (Nat.div_lt_of_lt_mul (Nat.lt_trans hless (by decide)))
      have hlow := hdigit (c.toNat % 16) (Nat.mod_lt _ (by decide))
      simp [hhigh.symm, hlow.symm]
    · simpa using Ne.symm hfeed
  all_goals decide

theorem lineFeed_not_mem_quote (text : String) : '\n' ∉ (quote text).toList := by
  simp [quote, lineFeed_not_mem_escape]

theorem lineFeed_not_mem_word {w : List Char} (h : ∀ c ∈ w, isWordChar c) : '\n' ∉ w :=
  fun hmem => absurd (h _ hmem) (by decide)

end Json

theorem Literal.lineFeed_not_mem_json (l : Literal) : '\n' ∉ l.json.toList := by
  cases l with
  | none => decide
  | text value => exact Json.lineFeed_not_mem_quote value
  | number x =>
    by_cases h : x.rank < Binary64.infiniteRank
    · exact Json.lineFeed_not_mem_word (jsonFormat.word?_render h).1
    · rw [json_eq_null (Nat.le_of_not_lt h)]
      decide

theorem Token.lineFeed_not_mem_json (t : Token) : '\n' ∉ t.json.toList := by
  have hline : '\n' ∉ Nat.toDigits 10 t.line := fun hmem => absurd (isDigit_toDigits _ hmem) (by decide)
  rw [t.toList_json .null]
  simp [members, Json.Member.written, Json.lineFeed_not_mem_quote, t.literal.lineFeed_not_mem_json, hline]

/-- A listing has a line for each token, and nothing after the last of them. -/
theorem pieces_listingText (ts : List Token) :
    pieces '\n' (listingText true ts).toList = ts.map (·.json.toList) ++ [[]] := by
  induction ts with
  | nil => rfl
  | cons t ts ih =>
    have hsplit : (listingText true (t :: ts)).toList = t.json.toList ++ '\n' :: (listingText true ts).toList := by
      simp [listingText_cons, Token.listed]
    rw [hsplit, pieces_append t.lineFeed_not_mem_json, ih, List.map_cons, List.cons_append]

/-! ## Scans -/

theorem isNaN_nearest (d : Decimal) : d.nearest.isNaN = false := by
  simp [Decimal.nearest, Binary64.isNaN, Binary64.rank_nearest, Binary64.nearestRank_le]

/-- A scan gives no number that is not one. -/
theorem isNaN_of_mem_scan {source : String} {t : Token} (ht : t ∈ (scan source).tokens.toList) {x : Binary64}
    (hx : t.literal = .number x) : x.isNaN = false := by
  rw [scan, tokens_scanInto, List.mem_append, List.mem_singleton] at ht
  rcases ht with ht | rfl
  · cases shaped_of_mem_tokensFrom ht with
    | number =>
      cases hx
      exact isNaN_nearest _
    | fixed | string => cases hx
  · cases hx

/-- The JSON listing of a source divides into one line for each token. Each line reads as a token that has the
kind, the lexeme, the literal and the line of the one listed, but for an infinite literal, which is lost. -/
theorem listSource_reads_back {ρ : Type} [Reporter ρ] (source : String) (flushes : Bool) (r : ρ) :
    ∃ text : String, (listSource true source (.empty none flushes) r).out.kept.toList = bytes text ∧
      ∃ lines, pieces '\n' text.toList = lines ++ [[]] ∧
        lines.map Token.ofJson? = (scan source).tokens.toList.map fun t => some t.finite := by
  refine ⟨_, (listSource_after_of_fits true source flushes r rfl).1, _, pieces_listingText _, ?_⟩
  rw [List.map_map]
  exact List.map_congr_left fun t ht => Token.ofJson?_json fun x hx => isNaN_of_mem_scan ht hx

end ScriptScan
