-- SUMMARY: A prompt session takes the inputs that a script run takes, and stops at the first ill-formed line.
import ScriptScan.Proofs.Command.Script
import ScriptScan.Proofs.Prompt.Session

/-!
# Inputs that are no text

A session decodes its input line by line, and a script is decoded whole. No character reaches across a line feed,
so both refuse the same inputs. On streams that take everything a session stops for nothing else: it does what it
does for the lines before the ill-formed one, and nothing more.
-/

namespace ScriptScan

/-! ## Events on streams that take everything -/

namespace Limits

/-- Streams that take everything. -/
def unlimited : Limits := ⟨none, none, true⟩

theorem lost_unlimited (es : List Event) : lost unlimited es = false := by
  induction es with
  | nil => rfl
  | cons e es ih =>
    cases e with
    | read => rfl
    | report | write | flush | settle => exact ih

end Limits

/-- Nothing but an ill-formed line fails. -/
theorem failure?_unlimited_of_wellFormed {e : Event} (h : ∀ line, e = .read line → WellFormed line)
    (before : List Event) : e.failure? .unlimited before = none := by
  cases e with
  | read line =>
    obtain ⟨text, htext⟩ := wellFormed_iff_decode?.mp (h line rfl)
    simp [Event.failure?, htext]
  | report | write | flush => rfl
  | settle => simp [Event.failure?, Limits.lost_unlimited]

theorem failure?_read_of_not_wellFormed (l : Limits) {line : List UInt8} (h : ¬WellFormed line)
    (before : List Event) : (Event.read line).failure? l before = some (.input invalidText) := by
  simp [Event.failure?, not_wellFormed_iff_decode?.mp h]

/-! ## The lines of a session -/

/-- What a session does up to the end of some lines. -/
def openingEvents (look : Look) (ls : List (List UInt8)) : List Event :=
  [.say "Xolog REPL\n", .say "------------------\n"] ++ askEvents ++ ls.flatMap (turnEvents look)

theorem read_not_mem_answerEvents {look : Look} {source : String} {line : List UInt8} :
    Event.read line ∉ answerEvents look source := by
  intro h
  rw [answerEvents, List.mem_append, List.mem_append] at h
  rcases h with (h | h) | h
  · obtain ⟨d, -, hd⟩ := List.mem_map.mp h
    cases hd
  · obtain ⟨t, -, ht⟩ := List.mem_flatMap.mp h
    obtain ⟨text, failure, hwrite⟩ := mem_tokenEvents ht
    cases hwrite
  · cases List.mem_singleton.mp h

/-- A turn reads its own line and no other. -/
theorem eq_of_read_mem_turnEvents {look : Look} {line other : List UInt8}
    (h : Event.read other ∈ turnEvents look line) : other = line := by
  rw [turnEvents] at h
  rcases List.mem_cons.mp h with h | h
  · exact Event.read.inj h
  · split at h
    · cases h
    · rcases List.mem_append.mp h with h | h
      · exact absurd h read_not_mem_answerEvents
      · simp [askEvents, Event.say] at h

theorem failure?_opening (look : Look) {ls : List (List UInt8)} (h : ∀ line ∈ ls, WellFormed line) :
    ∀ e ∈ openingEvents look ls, ∀ before, e.failure? .unlimited before = none := by
  intro e he before
  refine failure?_unlimited_of_wellFormed ?_ before
  rintro other rfl
  rw [openingEvents, List.mem_append] at he
  rcases he with he | he
  · simp [askEvents, Event.say] at he
  · obtain ⟨line, hline, hread⟩ := List.mem_flatMap.mp he
    exact eq_of_read_mem_turnEvents hread ▸ h line hline

theorem happen_of_wellFormed (look : Look) {input : List UInt8} (h : ∀ line ∈ lines input, WellFormed line) :
    happen .unlimited [] (sessionEvents look input) =
      (openingEvents look (lines input) ++ [.say "\n"], none) := by
  have hsession : sessionEvents look input = openingEvents look (lines input) ++ [.say "\n"] := rfl
  rw [hsession, happen_append, happen_of_fine (failure?_opening look h), List.nil_append]
  exact happen_singleton ..

/-- The session stops at the first ill-formed line. -/
theorem happen_of_not_wellFormed (look : Look) {input : List UInt8} {own after : List (List UInt8)}
    {bad : List UInt8} (hlines : lines input = own ++ bad :: after) (hown : ∀ line ∈ own, WellFormed line)
    (hbad : ¬WellFormed bad) :
    happen .unlimited [] (sessionEvents look input) =
      (openingEvents look own ++ [.read bad], some (.input invalidText)) := by
  have hsession : ∃ later, sessionEvents look input = openingEvents look own ++ .read bad :: later := by
    refine ⟨after.flatMap (turnEvents look) ++ [.say "\n"], ?_⟩
    simp [sessionEvents, openingEvents, hlines, turnEvents, not_wellFormed_iff_decode?.mp hbad]
  obtain ⟨later, hsession⟩ := hsession
  rw [hsession, happen_append, happen_of_fine (failure?_opening look hown), List.nil_append]
  simp only [happen, failure?_read_of_not_wellFormed .unlimited hbad]

theorem exists_first_bad {input : List UInt8} (h : ¬WellFormed input) :
    ∃ own bad after, own <+: input ∧ lines input = lines own ++ bad :: after ∧
      (∀ line ∈ lines own, WellFormed line) ∧ ¬WellFormed bad := by
  have hsome : ((lines input).find? fun line => (Utf8.decode? line).isNone).isSome := by
    rw [wellFormed_iff_lines] at h
    simpa [not_wellFormed_iff_decode?] using h
  obtain ⟨bad, hfind⟩ := Option.isSome_iff_exists.mp hsome
  obtain ⟨hbad, xs, after, hlines, hxs⟩ := List.find?_eq_some_iff_append.mp hfind
  obtain ⟨own, tail, hinput, rfl, -⟩ := lines_eq_append hlines
  refine ⟨own, bad, after, ⟨tail, hinput.symm⟩, hlines, ?_, ?_⟩
  · intro line hline
    have hnone := hxs line hline
    refine Classical.byContradiction fun hbad => ?_
    simp [not_wellFormed_iff_decode?.mp hbad] at hnone
  · exact not_wellFormed_iff_decode?.mpr (Option.isNone_iff_eq_none.mp hbad)

/-! ## Sessions and scripts -/

theorem streams_unlimited_nil :
    Limits.unlimited.streams [] = (⟨.empty none true, .empty none true⟩ : Streams Sink) := by
  rw [Limits.streams, Limits.outSink, Limits.errSink, Sink.empty_eq_after]
  rfl

/-- A session that fails has done on its streams what a session over the lines before the ill-formed one does, but
for the line feed with which that one ends. -/
theorem streams_opening (look : Look) (own : List (List UInt8)) (bad : List UInt8) :
    let s := Limits.unlimited.streams (openingEvents look own ++ [.read bad])
    Limits.unlimited.streams (openingEvents look own ++ [.say "\n"]) = ⟨(s.out.write "\n").1, s.err⟩ := by
  have hread : Limits.unlimited.streams (openingEvents look own ++ [.read bad]) =
      Limits.unlimited.streams (openingEvents look own) := streams_concat rfl rfl
  have hout : outOf (openingEvents look own ++ [.say "\n"]) = outOf (openingEvents look own) ++ bytes "\n" := by
    simp [outOf, Event.out, Event.say]
  have herr : Limits.unlimited.errSink (openingEvents look own ++ [.say "\n"]) =
      Limits.unlimited.errSink (openingEvents look own) := errSink_append (List.forall_mem_singleton.mpr rfl)
  intro s
  simp only [s, hread]
  simp only [Limits.streams, Limits.outSink, hout, herr, Sink.write_after]

open Command in
/-- A session on streams that take everything fails only if its input is not that of a text, and then a script with
this content fails too. The session has then dealt with the lines before the first ill-formed one, as if there were
no others. -/
theorem converse_refuses_iff_runScript_refuses (look : Look) (input : List UInt8) (path : String) (out : Sink)
    (err : Transcript) :
    let start : Streams Sink := ⟨.empty none true, .empty none true⟩
    let (failure, s) := (Session.converse look input).runOn start
    let script := runScript look path (.ok input) out err
    let refusal := Outcome.ofFailure look.color out (err.log (.runningScript path)) (.script path invalidText)
    (failure = none ∨ failure = some (.input invalidText)) ∧
      (failure = some (.input invalidText) ↔ ¬∃ text : String, bytes text = input) ∧
      (script = refusal ↔ ¬∃ text : String, bytes text = input) ∧
      (script.exitStatus = 66 ↔ ¬∃ text : String, bytes text = input) ∧
      (failure = some (.input invalidText) →
        ∃ own bad after, own <+: input ∧ lines input = lines own ++ bad :: after ∧
          (∀ line ∈ lines own, WellFormed line) ∧ ¬WellFormed bad ∧
          (Session.converse look own).runOn start = (none, ⟨(s.out.write "\n").1, s.err⟩)) := by
  intro start
  have hstart : start = Limits.unlimited.streams [] := streams_unlimited_nil.symm
  have hrefusal := runScript_eq_refusal_iff look path out err input
  have hstatus := (runScript_exitStatus_eq_66_iff look path out err (.ok input)).trans exists_unreadable_ok_iff
  by_cases h : WellFormed input
  · have hhappen := happen_of_wellFormed look (wellFormed_iff_lines.mp h)
    rw [hstart, runOn_converse, hhappen]
    refine ⟨.inl rfl, ?_, hrefusal, hstatus, ?_⟩
    · exact ⟨nofun, fun hnot => absurd h hnot⟩
    · exact nofun
  · obtain ⟨own, bad, after, hown, hlines, hfine, hbad⟩ := exists_first_bad h
    have hhappen := happen_of_not_wellFormed look hlines hfine hbad
    rw [hstart, runOn_converse, hhappen]
    refine ⟨.inr rfl, ?_, hrefusal, hstatus, ?_⟩
    · exact ⟨fun _ => h, fun _ => rfl⟩
    · intro _
      refine ⟨own, bad, after, hown, hlines, hfine, hbad, ?_⟩
      rw [runOn_converse, happen_of_wellFormed look hfine, streams_opening]

/-- A line feed inside a character leaves an ill-formed line on either side. -/
example :
    let start : Streams Sink := ⟨.empty none true, .empty none true⟩
    let input : List UInt8 := [0x31, 10, 0xE2, 0x82, 10, 0xAC]
    lines input = lines [0x31, 10] ++ [0xE2, 0x82] :: [[0xAC]] ∧
      ((Session.converse ⟨false, false⟩ input).runOn start).1 = some (.input invalidText) := by
  decide +kernel

end ScriptScan
