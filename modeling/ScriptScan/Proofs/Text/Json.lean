-- SUMMARY: A reader of JSON objects whose members are scalars, and its inverse on what is written.
import ScriptScan.Text.Json
import ScriptScan.Number.Decimal

/-!
# Reading JSON

The reader goes by the grammar of JSON: a text is first cut into lexemes, blanks between them being skipped, and
the lexemes are then read as one object. The values of its members are strings, numbers and the three words; an
object or an array inside the object is refused, and so is the escape of a surrogate.
-/

namespace ScriptScan.Json

/-! ## Numbers -/

inductive Value where
  | null
  | truth (value : Bool)
  /-- A number, exactly, and whether it has a minus sign. -/
  | number (negative : Bool) (magnitude : Decimal)
  | text (value : String)
  deriving DecidableEq

/-- Reads a run of digits. -/
def digits? (cs : List Char) : Option Nat :=
  if !cs.isEmpty && cs.all Char.isDigit then some (Nat.ofDigitChars 10 cs 0) else none

/-- Reads an exponent, from the character after its mark on. -/
def exponent? : List Char → Option Int
  | '+' :: cs => (digits? cs).map Int.ofNat
  | '-' :: cs => (digits? cs).map Int.negOfNat
  | cs => (digits? cs).map Int.ofNat

def isExponentMark (c : Char) : Bool := c == 'e' || c == 'E'

/-- A zero in front of other digits. -/
def hasSpareZero : List Char → Bool
  | '0' :: c :: _ => c.isDigit
  | _ => false

/-- Reads a number without a sign. -/
def magnitude? (cs : List Char) : Option Decimal :=
  let mantissa := cs.takeWhile (!isExponentMark ·)
  if hasSpareZero mantissa then none else
  match cs.dropWhile (!isExponentMark ·) with
  | [] => Decimal.read? mantissa
  | _ :: exponent =>
    (Decimal.read? mantissa).bind fun d =>
      (exponent? exponent).map fun e => ⟨d.coefficient, d.exponent + e⟩

/-- Reads a word: a name or a number. -/
def word? : List Char → Option Value
  | '-' :: cs => (magnitude? cs).map (.number true)
  | cs =>
    if cs = ['n', 'u', 'l', 'l'] then some .null
    else if cs = ['t', 'r', 'u', 'e'] then some (.truth true)
    else if cs = ['f', 'a', 'l', 's', 'e'] then some (.truth false)
    else (magnitude? cs).map (.number false)

/-! ## Strings -/

def hexDigit? (c : Char) : Option Nat :=
  if c.isDigit then some (c.toNat - 0x30)
  else if 'a' ≤ c ∧ c ≤ 'f' then some (c.toNat - 0x57)
  else if 'A' ≤ c ∧ c ≤ 'F' then some (c.toNat - 0x37)
  else none

/-- The character with a number of four hexadecimal digits. -/
def code? (a b c d : Char) : Option Char := do
  let a ← hexDigit? a
  let b ← hexDigit? b
  let c ← hexDigit? c
  let d ← hexDigit? d
  let n := ((a * 16 + b) * 16 + c) * 16 + d
  if n.isValidChar then some (Char.ofNat n) else none

/-- Reads an escape, from the character after its backslash on. -/
def unescape? : List Char → Option (Char × List Char)
  | '"' :: cs => some ('"', cs)
  | '\\' :: cs => some ('\\', cs)
  | '/' :: cs => some ('/', cs)
  | 'b' :: cs => some ('\x08', cs)
  | 'f' :: cs => some ('\x0c', cs)
  | 'n' :: cs => some ('\n', cs)
  | 'r' :: cs => some ('\r', cs)
  | 't' :: cs => some ('\t', cs)
  | 'u' :: a :: b :: c :: d :: cs => (code? a b c d).map fun e => (e, cs)
  | _ => none

theorem length_unescape? {cs rest : List Char} {c : Char} (h : unescape? cs = some (c, rest)) :
    rest.length < cs.length := by
  unfold unescape? at h
  split at h
  case h_9 =>
    obtain ⟨e, -, he⟩ := Option.map_eq_some_iff.mp h
    cases he
    simp only [List.length_cons]
    omega
  case h_10 => cases h
  all_goals
    cases h
    exact Nat.lt_succ_self _

/-- Reads a string, from the character after its opening quote on. -/
def body? : List Char → Option (List Char × List Char)
  | [] => none
  | '"' :: cs => some ([], cs)
  | '\\' :: cs =>
    match _h : unescape? cs with
    | none => none
    | some (c, rest) => (body? rest).map fun (body, rest) => (c :: body, rest)
  | c :: cs => if c.toNat < 0x20 then none else (body? cs).map fun (body, rest) => (c :: body, rest)
termination_by cs => cs.length
decreasing_by
  · exact Nat.lt_succ_of_lt (length_unescape? _h)
  · exact Nat.lt_succ_self _

theorem length_body? {cs body rest : List Char} (h : body? cs = some (body, rest)) : rest.length < cs.length := by
  fun_induction body? cs generalizing body rest with
  | case1 => cases h
  | case2 cs =>
    cases h
    exact Nat.lt_succ_self _
  | case3 => cases h
  | case4 cs c mid hescape ih =>
    obtain ⟨⟨tail, _⟩, htail, hresult⟩ := Option.map_eq_some_iff.mp h
    cases hresult
    exact Nat.lt_trans (ih htail) (Nat.lt_succ_of_lt (length_unescape? hescape))
  | case5 => cases h
  | case6 c cs _ _ _ ih =>
    obtain ⟨⟨tail, _⟩, htail, hresult⟩ := Option.map_eq_some_iff.mp h
    cases hresult
    exact Nat.lt_succ_of_lt (ih htail)

/-! ## Lexemes -/

inductive Lexeme where
  | opening
  | closing
  | colon
  | comma
  | value (v : Value)
  deriving DecidableEq

def isBlank (c : Char) : Bool := c == ' ' || c == '\t' || c == '\n' || c == '\r'

/-- The characters of words. -/
def isWordChar (c : Char) : Bool := c.isAlphanum || c == '+' || c == '-' || c == '.'

/-- Reads the lexeme that starts with `c`, or nothing if it is a blank. -/
def lexeme? (c : Char) (cs : List Char) : Option (List Lexeme × List Char) :=
  if isBlank c then some ([], cs)
  else if isWordChar c then
    (word? (c :: cs.takeWhile isWordChar)).map fun v => ([.value v], cs.dropWhile isWordChar)
  else match c with
    | '\x7b' => some ([.opening], cs)
    | '\x7d' => some ([.closing], cs)
    | ':' => some ([.colon], cs)
    | ',' => some ([.comma], cs)
    | '"' => (body? cs).map fun (body, rest) => ([.value (.text (String.ofList body))], rest)
    | _ => none

theorem length_lexeme? {c : Char} {cs rest : List Char} {found : List Lexeme}
    (h : lexeme? c cs = some (found, rest)) : rest.length ≤ cs.length := by
  unfold lexeme? at h
  split at h
  · cases h
    exact Nat.le_refl _
  · split at h
    · obtain ⟨v, -, hresult⟩ := Option.map_eq_some_iff.mp h
      cases hresult
      exact (List.dropWhile_suffix _).length_le
    · split at h
      case h_5 =>
        obtain ⟨⟨body, _⟩, hbody, hresult⟩ := Option.map_eq_some_iff.mp h
        cases hresult
        exact Nat.le_of_lt (length_body? hbody)
      case h_6 => cases h
      all_goals
        cases h
        exact Nat.le_refl _

/-- Reads all lexemes of a text. -/
def lexemes? : List Char → Option (List Lexeme)
  | [] => some []
  | c :: cs =>
    match _h : lexeme? c cs with
    | none => none
    | some (found, rest) => (lexemes? rest).map (found ++ ·)
termination_by cs => cs.length
decreasing_by exact Nat.lt_succ_of_le (length_lexeme? _h)

/-! ## Objects -/

/-- Reads members up to the closing brace, at least one. -/
def members? : List Lexeme → Option (List (String × Value))
  | [.value (.text name), .colon, .value v, .closing] => some [(name, v)]
  | .value (.text name) :: .colon :: .value v :: .comma :: rest => (members? rest).map ((name, v) :: ·)
  | _ => none

/-- Reads an object. -/
def object? (cs : List Char) : Option (List (String × Value)) :=
  (lexemes? cs).bind fun
    | [.opening, .closing] => some []
    | .opening :: rest => members? rest
    | _ => none

/-! ## Written strings -/

theorem hexDigit?_digitChar {n : Nat} (h : n < 16) : hexDigit? (Nat.digitChar n) = some n := by
  revert n
  decide

theorem code?_of_lt {c : Char} (h : c.toNat < 0x20) :
    code? '0' '0' (Nat.digitChar (c.toNat / 16)) (Nat.digitChar (c.toNat % 16)) = some c := by
  have hzero : hexDigit? '0' = some 0 := rfl
  have hhigh : hexDigit? (Nat.digitChar (c.toNat / 16)) = some (c.toNat / 16) := hexDigit?_digitChar (by omega)
  have hlow : hexDigit? (Nat.digitChar (c.toNat % 16)) = some (c.toNat % 16) := hexDigit?_digitChar (by omega)
  have hsum : ((0 * 16 + 0) * 16 + c.toNat / 16) * 16 + c.toNat % 16 = c.toNat := by omega
  have hvalid : c.toNat.isValidChar := c.valid
  rw [code?]
  simp only [hzero, hhigh, hlow, Option.bind_eq_bind, Option.bind_some, hsum, hvalid, if_true, Char.ofNat_toNat]

/-- A character stands for itself, or else a backslash comes first and the rest reads as the character. -/
theorem escape_eq_or (c : Char) :
    (escape c = [c] ∧ c ≠ '"' ∧ c ≠ '\\' ∧ ¬c.toNat < 0x20) ∨
      ∃ e, escape c = '\\' :: e ∧ ∀ rest, unescape? (e ++ rest) = some (c, rest) := by
  unfold escape
  split
  case h_8 _ hquote hbackslash _ _ _ _ _ =>
    split
    · rename_i hless
      refine .inr ⟨_, rfl, fun rest => ?_⟩
      simp only [List.cons_append, unescape?, code?_of_lt hless]
      rfl
    · rename_i hless
      exact .inl ⟨rfl, hquote, hbackslash, hless⟩
  all_goals exact .inr ⟨_, rfl, fun _ => rfl⟩

theorem body?_backslash {cs rest : List Char} {c : Char} (h : unescape? cs = some (c, rest)) :
    body? ('\\' :: cs) = (body? rest).map fun (body, rest) => (c :: body, rest) := by
  rw [body?]
  split
  · simp_all
  · simp_all

/-- Reading undoes the escape of a character. -/
theorem body?_escape (c : Char) (rest : List Char) :
    body? (escape c ++ rest) = (body? rest).map fun (body, rest) => (c :: body, rest) := by
  rcases escape_eq_or c with ⟨hself, hquote, hbackslash, hless⟩ | ⟨e, hescape, hread⟩
  · rw [hself, List.singleton_append, body?.eq_4 _ _ hquote hbackslash, if_neg hless]
  · rw [hescape, List.cons_append, body?_backslash (hread rest)]

theorem body?_quote (cs rest : List Char) :
    body? (cs.flatMap escape ++ '"' :: rest) = some (cs, rest) := by
  induction cs with
  | nil => simp [body?]
  | cons c cs ih =>
    rw [List.flatMap_cons, List.append_assoc, body?_escape, ih]
    rfl

/-! ## Written values -/

theorem lexemes?_cons {c : Char} {cs rest : List Char} {found : List Lexeme}
    (h : lexeme? c cs = some (found, rest)) : lexemes? (c :: cs) = (lexemes? rest).map (found ++ ·) := by
  rw [lexemes?]
  split <;> simp_all

/-- A text that reads as a value, with any character after it that cannot belong to a word. -/
def Stands (text : List Char) (v : Value) : Prop :=
  ∀ c rest, isWordChar c = false → lexemes? (text ++ c :: rest) = (lexemes? (c :: rest)).map (.value v :: ·)

theorem stands_quote (text : String) : Stands (quote text).toList (.text text) := by
  intro c rest _
  have hread : lexeme? '"' (text.toList.flatMap escape ++ '"' :: c :: rest) =
      some ([.value (.text text)], c :: rest) := by
    have hword : isWordChar '"' = false := by decide
    have hblank : isBlank '"' = false := by decide
    simp [lexeme?, hword, hblank, body?_quote]
  rw [quote, String.toList_ofList, List.cons_append, List.append_assoc, List.singleton_append, lexemes?_cons hread]
  rfl

theorem isBlank_of_isWordChar {c : Char} (h : isWordChar c = true) : isBlank c = false := by
  rw [Bool.eq_false_iff]
  intro hblank
  simp only [isBlank, Bool.or_eq_true, beq_iff_eq] at hblank
  rcases hblank with ((rfl | rfl) | rfl) | rfl <;> exact absurd h (by decide)

theorem isWordChar_of_isDigit {c : Char} (h : c.isDigit = true) : isWordChar c = true := by
  simp [isWordChar, Char.isAlphanum, h]

theorem stands_word {w : List Char} {v : Value} (hw : ∀ c ∈ w, isWordChar c) (hv : word? w = some v) :
    Stands w v := by
  intro c rest hc
  cases w with
  | nil => cases hv
  | cons d ds =>
    have hd : isWordChar d = true := hw d List.mem_cons_self
    have hds : ∀ c ∈ ds, isWordChar c := fun c hc => hw c (List.mem_cons_of_mem d hc)
    have htake : (ds ++ c :: rest).takeWhile isWordChar = ds := by
      rw [List.takeWhile_append_of_pos hds, List.takeWhile_cons_of_neg (by simp [hc]), List.append_nil]
    have hdrop : (ds ++ c :: rest).dropWhile isWordChar = c :: rest := by
      rw [List.dropWhile_append_of_pos hds, List.dropWhile_cons_of_neg (by simp [hc])]
    have hread : lexeme? d (ds ++ c :: rest) = some ([.value v], c :: rest) := by
      simp [lexeme?, isBlank_of_isWordChar hd, hd, htake, hdrop, hv]
    rw [List.cons_append, lexemes?_cons hread]
    rfl

theorem stands_null : Stands "null".toList .null :=
  stands_word (List.all_eq_true.mp (by decide)) rfl

/-! ## Written objects -/

/-- A member of an object, the text of its value, and the value. -/
structure Member where
  name : String
  text : List Char
  value : Value

namespace Member

/-- The text of members and of the brace after them. -/
def written : List Member → List Char
  | [] => ['\x7d']
  | [m] => (quote m.name).toList ++ ':' :: (m.text ++ ['\x7d'])
  | m :: ms => (quote m.name).toList ++ ':' :: (m.text ++ ',' :: written ms)

def lexemes : List Member → List Lexeme
  | [] => [.closing]
  | [m] => [.value (.text m.name), .colon, .value m.value, .closing]
  | m :: ms => .value (.text m.name) :: .colon :: .value m.value :: .comma :: lexemes ms

end Member

theorem lexemes?_member {m : Member} (h : Stands m.text m.value) {c : Char} (hc : isWordChar c = false)
    (rest : List Char) :
    lexemes? ((quote m.name).toList ++ ':' :: (m.text ++ c :: rest)) =
      (lexemes? (c :: rest)).map ([.value (.text m.name), .colon, .value m.value] ++ ·) := by
  have hcolon : lexeme? ':' (m.text ++ c :: rest) = some ([.colon], m.text ++ c :: rest) := rfl
  rw [stands_quote m.name ':' _ (by decide), lexemes?_cons hcolon, h c rest hc]
  simp [Function.comp_def]

theorem lexemes?_written {ms : List Member} (h : ∀ m ∈ ms, Stands m.text m.value) :
    lexemes? (Member.written ms) = some (Member.lexemes ms) := by
  have hclosing : lexemes? ['\x7d'] = some [.closing] := by
    rw [lexemes?_cons rfl, lexemes?]
    rfl
  fun_induction Member.written ms with
  | case1 => exact hclosing
  | case2 m => rw [lexemes?_member (h m List.mem_cons_self) (by decide), hclosing]; rfl
  | case3 m ms hne ih =>
    have hcomma (cs : List Char) : lexeme? ',' cs = some ([.comma], cs) := rfl
    rw [lexemes?_member (h m List.mem_cons_self) (by decide), lexemes?_cons (hcomma _),
      ih fun n hn => h n (List.mem_cons_of_mem m hn), Member.lexemes.eq_3 m ms hne]
    rfl

theorem members?_lexemes {ms : List Member} (h : ms ≠ []) :
    members? (Member.lexemes ms) = some (ms.map fun m => (m.name, m.value)) := by
  fun_induction Member.lexemes ms with
  | case1 => exact absurd rfl h
  | case2 m => rfl
  | case3 m ms hne ih =>
    rw [members?, ih hne]
    rfl

/-- Reading undoes the writing of an object. -/
theorem object?_written {ms : List Member} (h : ∀ m ∈ ms, Stands m.text m.value) :
    object? ('\x7b' :: Member.written ms) = some (ms.map fun m => (m.name, m.value)) := by
  have hopening (cs : List Char) : lexeme? '\x7b' cs = some ([.opening], cs) := rfl
  rw [object?, lexemes?_cons (hopening _), lexemes?_written h, Option.map_some, Option.bind_some,
    List.singleton_append]
  cases ms with
  | nil => rfl
  | cons m ms =>
    rw [← members?_lexemes (List.cons_ne_nil m ms)]
    cases ms <;> rfl

end ScriptScan.Json
