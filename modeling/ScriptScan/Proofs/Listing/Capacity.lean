-- SUMMARY: What a listing leaves on a sink of some capacity, and the failure it ends with.
import ScriptScan.Listing
import ScriptScan.Proofs.Scan.Run
import ScriptScan.Proofs.Output.Sink

/-!
# Listings under a capacity

A sink keeps the first bytes of a listing, as many as it has room for. The failure depends on where the room
ends: in JSON mode a token that does not fit fails differently from its line feed.
-/

namespace ScriptScan

/-- A token in its listed form, without its line feed. -/
def Token.listed (json : Bool) (t : Token) : String := if json then t.json else t.display

/-- A listing, each token on a line of its own. -/
def listingText (json : Bool) (ts : List Token) : String :=
  String.join (ts.map fun t => t.listed json ++ "\n")

theorem listingText_cons (json : Bool) (t : Token) (ts : List Token) :
    listingText json (t :: ts) = t.listed json ++ "\n" ++ listingText json ts := by
  rw [listingText, List.map_cons, String.join_cons, listingText]

theorem bytes_listingText_cons (json : Bool) (t : Token) (ts : List Token) :
    bytes (listingText json (t :: ts)) = bytes (t.listed json ++ "\n") ++ bytes (listingText json ts) := by
  rw [listingText_cons, bytes_append]

theorem bytes_listingText_concat (json : Bool) (ts : List Token) (t : Token) :
    bytes (listingText json (ts ++ [t])) = bytes (listingText json ts) ++ bytes (t.listed json ++ "\n") := by
  simp [listingText, String.join_append, String.join_cons, bytes_append]

/-- How the listing of a token fails whose line does not fit into the room that is left. -/
def Token.cut (json : Bool) (t : Token) (room : Nat) : Failure :=
  if json ∧ room < (bytes t.json).length then .json SinkFault.closed.message
  else .output SinkFault.closed.message

theorem Token.cut_json {t : Token} {start room : Nat} (hstart : start ≤ room)
    (hstop : room ≤ start + (bytes t.json).length) :
    room < start + (bytes t.json).length ∧ t.cut true (room - start) = .json SinkFault.closed.message ∨
      room = start + (bytes t.json).length ∧ t.cut true (room - start) = .output SinkFault.closed.message := by
  rcases Nat.lt_or_eq_of_le hstop with hless | hequal
  · have hroom : room - start < (bytes t.json).length := by omega
    exact .inl ⟨hless, if_pos ⟨rfl, hroom⟩⟩
  · have hroom : ¬room - start < (bytes t.json).length := by omega
    exact .inr ⟨hequal, if_neg fun h => hroom h.2⟩

section put

variable {capacity : Option Nat} (flushes : Bool) {written : List UInt8}

theorem put_after (text : String) (failure : String → Failure) :
    (Sink.after capacity flushes written).put text failure =
      (Sink.after capacity flushes (written ++ bytes text),
        if overruns capacity written (bytes text) then some (failure SinkFault.closed.message) else none) := by
  rw [Sink.put, Sink.write_after]
  cases overruns capacity written (bytes text) <;> rfl

theorem overruns_append (as bs : List UInt8) :
    overruns capacity written (as ++ bs) =
      (overruns capacity written as || overruns capacity (written ++ as) bs) := by
  cases capacity with
  | none => rfl
  | some room =>
    simp only [overruns, List.length_append, ← Bool.decide_or]
    refine decide_eq_decide.mpr ?_
    omega

/-! ## One token -/

theorem list_after_of_fits {json : Bool} {t : Token}
    (h : overruns capacity written (bytes (t.listed json ++ "\n")) = false) :
    t.list json (Sink.after capacity flushes written) =
      (Sink.after capacity flushes (written ++ bytes (t.listed json ++ "\n")), none) := by
  cases json with
  | false =>
    have hfits : overruns capacity written (bytes (t.display ++ "\n")) = false := h
    simp only [Token.list, Bool.false_eq_true, if_false, put_after, hfits]
    rfl
  | true =>
    have hlisted : t.listed true = t.json := rfl
    rw [hlisted, bytes_append, overruns_append, Bool.or_eq_false_iff] at h
    rw [hlisted, bytes_append, ← List.append_assoc]
    simp only [Token.list, if_true, put_after, h.1, h.2, Bool.false_eq_true, if_false]

/-- A line that does not fit is written as far as there is room. -/
theorem list_after_of_cut {json : Bool} {t : Token} {room : Nat}
    (h : overruns (some room) written (bytes (t.listed json ++ "\n")) = true) :
    ∃ kept, t.list json (Sink.after (some room) flushes written) =
        (Sink.after (some room) flushes kept, some (t.cut json (room - written.length))) ∧
      kept <+: written ++ bytes (t.listed json ++ "\n") ∧ room ≤ kept.length := by
  cases json with
  | false =>
    have hcut : overruns (some room) written (bytes (t.display ++ "\n")) = true := h
    refine ⟨_, ?_, List.prefix_refl _, ?_⟩
    · simp only [Token.list, Bool.false_eq_true, if_false, put_after, hcut]
      rfl
    · simp only [overruns, decide_eq_true_eq] at h
      rw [List.length_append]
      omega
  | true =>
    have hlisted : t.listed true = t.json := rfl
    rw [hlisted, bytes_append, overruns_append] at h
    rw [hlisted, bytes_append]
    cases hjson : overruns (some room) written (bytes t.json) with
    | true =>
      -- the token itself is cut
      have hroom : room - written.length < (bytes t.json).length := by simpa [overruns] using hjson
      refine ⟨written ++ bytes t.json, ?_, ?_, ?_⟩
      · simp [Token.list, put_after, hjson, Token.cut, hroom]
      · exact (List.prefix_append_right_inj written).mpr (List.prefix_append ..)
      · rw [List.length_append]
        omega
    | false =>
      -- only the line feed is
      have hroom : ¬room - written.length < (bytes t.json).length := by simpa [overruns] using hjson
      have hfeed : overruns (some room) (written ++ bytes t.json) (bytes "\n") = true := by
        simpa [hjson] using h
      refine ⟨written ++ (bytes t.json ++ bytes "\n"), ?_, List.prefix_refl _, ?_⟩
      · simp [Token.list, put_after, hjson, hfeed, Token.cut, hroom]
      · simp only [overruns, decide_eq_true_eq, List.length_append] at hfeed ⊢
        omega

/-! ## All tokens -/

theorem listTokens_after_of_fits {json : Bool} {ts : List Token}
    (h : overruns capacity written (bytes (listingText json ts)) = false) :
    listTokens json ts (Sink.after capacity flushes written) =
      (Sink.after capacity flushes (written ++ bytes (listingText json ts)), none) := by
  induction ts generalizing written with
  | nil => simp [listTokens, listingText, bytes]
  | cons t ts ih =>
    rw [bytes_listingText_cons, overruns_append, Bool.or_eq_false_iff] at h
    rw [listTokens, list_after_of_fits flushes h.1, bytes_listingText_cons, ← List.append_assoc]
    exact ih h.2

/-- A listing is cut in the line of the first token that does not fit. -/
theorem listTokens_after_of_cut {json : Bool} {ts : List Token} {room : Nat}
    (hfull : written.length ≤ room)
    (h : overruns (some room) written (bytes (listingText json ts)) = true) :
    ∃ before t later kept, ts = before ++ t :: later ∧
      overruns (some room) written (bytes (listingText json before)) = false ∧
      overruns (some room) written (bytes (listingText json (before ++ [t]))) = true ∧
      listTokens json ts (Sink.after (some room) flushes written) =
        (Sink.after (some room) flushes kept,
          some (t.cut json (room - (written ++ bytes (listingText json before)).length))) ∧
      kept.take room = (written ++ bytes (listingText json ts)).take room := by
  induction ts generalizing written with
  | nil => simp [listingText, bytes, overruns] at h
  | cons t ts ih =>
    cases hline : overruns (some room) written (bytes (t.listed json ++ "\n")) with
    | true =>
      obtain ⟨kept, hlist, hprefix, hlength⟩ := list_after_of_cut flushes hline
      obtain ⟨more, hmore⟩ := hprefix
      refine ⟨[], t, ts, kept, rfl, ?_, ?_, ?_, ?_⟩
      · simp [listingText, bytes, overruns]
      · simpa [listingText, String.join_cons] using hline
      · rw [listTokens, hlist]
        simp [listingText, bytes]
      · rw [bytes_listingText_cons, ← List.append_assoc, ← hmore, List.append_assoc,
          List.take_append_of_le_length hlength]
    | false =>
      rw [bytes_listingText_cons, overruns_append, hline, Bool.false_or] at h
      have hfull : (written ++ bytes (t.listed json ++ "\n")).length ≤ room := by
        simp only [overruns, decide_eq_false_iff_not, List.length_append] at hline ⊢
        omega
      obtain ⟨before, k, later, kept, rfl, hbefore, hcut, hlist, hkept⟩ := ih hfull h
      refine ⟨t :: before, k, later, kept, rfl, ?_, ?_, ?_, ?_⟩
      · rw [bytes_listingText_cons, overruns_append, hline, hbefore, Bool.false_or]
      · rw [List.cons_append, bytes_listingText_cons, overruns_append, hline, hcut, Bool.false_or]
      · rw [listTokens, list_after_of_fits flushes hline, bytes_listingText_cons, ← List.append_assoc]
        exact hlist
      · rw [hkept, bytes_listingText_cons, List.append_assoc]

end put

/-! ## Whole listings -/

section listSource

variable {ρ : Type} [Reporter ρ] (json : Bool) (source : String) (flushes : Bool) (r : ρ)

/-- A source is scanned to its end before its first token is listed. -/
theorem reporter_listSource (out : Sink) :
    (listSource json source out r).reporter = (scanInto source r).reporter := by
  rw [listSource]
  split <;> rfl

theorem listSource_after_of_fits {capacity : Option Nat}
    (h : overruns capacity [] (bytes (listingText json (scan source).tokens.toList)) = false) :
    let listing := listSource json source (.empty capacity flushes) r
    listing.out.kept.toList = limited capacity (bytes (listingText json (scan source).tokens.toList)) ∧
      listing.result = .ok (scan source).erred := by
  have hlist := listTokens_after_of_fits flushes h
  simp only [listSource, Sink.empty_eq_after, tokens_scanInto_eq_scan, hlist, erred_scanInto_eq_scan, and_true]
  rfl

/-- The room ends in the line of a token that is cut. -/
theorem bounds_of_cut {before : List Token} {t : Token} {room : Nat}
    (hbefore : overruns (some room) [] (bytes (listingText true before)) = false)
    (hcut : overruns (some room) [] (bytes (listingText true (before ++ [t]))) = true) :
    (bytes (listingText true before)).length ≤ room ∧
      room ≤ (bytes (listingText true before)).length + (bytes t.json).length := by
  have hstart : (bytes (listingText true before)).length ≤ room := by simpa [overruns] using hbefore
  have hlength : (bytes (listingText true (before ++ [t]))).length =
      (bytes (listingText true before)).length + (bytes t.json).length + 1 := by
    rw [bytes_listingText_concat, bytes_append, List.length_append, List.length_append, Nat.add_assoc]
    rfl
  simp only [overruns, decide_eq_true_eq, hlength, List.length_nil] at hcut
  omega

theorem listSource_after_of_cut {capacity : Nat}
    (h : overruns (some capacity) [] (bytes (listingText json (scan source).tokens.toList)) = true) :
    let listing := listSource json source (.empty (some capacity) flushes) r
    listing.out.kept.toList = (bytes (listingText json (scan source).tokens.toList)).take capacity ∧
      ∃ before t later, (scan source).tokens.toList = before ++ t :: later ∧
        overruns (some capacity) [] (bytes (listingText json before)) = false ∧
        overruns (some capacity) [] (bytes (listingText json (before ++ [t]))) = true ∧
        listing.result = .error (t.cut json (capacity - (bytes (listingText json before)).length)) := by
  obtain ⟨before, t, later, kept, htokens, hbefore, hcut, hlist, hkept⟩ :=
    listTokens_after_of_cut flushes (Nat.zero_le capacity) h
  simp only [listSource, Sink.empty_eq_after, tokens_scanInto_eq_scan, hlist]
  exact ⟨hkept, before, t, later, htokens, hbefore, hcut, rfl⟩

/-- All diagnostics of a source are handed over before its listing begins. The listing then keeps what there is
room for. If that is not all, it fails with the first line that does not fit: in JSON mode with the token, if
that is cut, or else with its line feed. -/
theorem listSource_under_capacity (capacity : Option Nat) :
    (∃ (fs : List Finding) (record : Log.Record), fs.map Finding.diagnostic = (scan source).diagnostics ∧
      (listSource json source (.empty capacity flushes) r).reporter =
        Reporter.log (fs.foldl Finding.tell r) record) ∧
    let listing := listSource json source (.empty capacity flushes) r
    let tokens := (scan source).tokens.toList
    let whole := bytes (listingText json tokens)
    listing.out.kept.toList = limited capacity whole ∧
    match capacity with
    | none => listing.result = .ok (scan source).erred
    | some room =>
      if whole.length ≤ room then listing.result = .ok (scan source).erred
      else if json then
        ∃ before t later, tokens = before ++ t :: later ∧
          let start := (bytes (listingText json before)).length
          let stop := start + (bytes t.json).length
          start ≤ room ∧
            (room < stop ∧ listing.result = .error (.json "closed") ∨
              room = stop ∧ listing.result = .error (.output "closed"))
      else listing.result = .error (.output "closed") := by
  refine ⟨⟨_, _, (diagnostics_scan source).symm, (reporter_listSource json source r _).trans
    (reporter_scanInto source r)⟩, ?_⟩
  intro listing tokens whole
  cases hfits : overruns capacity [] whole with
  | false =>
    obtain ⟨hkept, hresult⟩ := listSource_after_of_fits json source flushes r hfits
    refine ⟨hkept, ?_⟩
    cases capacity with
    | none => exact hresult
    | some room =>
      have hle : whole.length ≤ room := by simpa [overruns] using hfits
      simp only [hle, if_true]
      exact hresult
  | true =>
    cases capacity with
    | none => cases hfits
    | some room =>
      have hlt : ¬whole.length ≤ room := by simpa [overruns] using hfits
      obtain ⟨hkept, before, t, later, htokens, hbefore, hcut, hresult⟩ :=
        listSource_after_of_cut json source flushes r hfits
      refine ⟨hkept, ?_⟩
      simp only [hlt, if_false]
      cases json with
      | false =>
        simp only [Bool.false_eq_true, if_false]
        exact hresult
      | true =>
        obtain ⟨hstart, hstop⟩ := bounds_of_cut hbefore hcut
        refine ⟨before, t, later, htokens, hstart, ?_⟩
        rw [hresult]
        rcases t.cut_json hstart hstop with ⟨hless, hfailure⟩ | ⟨hequal, hfailure⟩
        · exact .inl ⟨hless, congrArg Except.error hfailure⟩
        · exact .inr ⟨hequal, congrArg Except.error hfailure⟩

end listSource

end ScriptScan
