-- SUMMARY: Which log records a run writes decides nothing else, and each record stands where it belongs.
import ScriptScan.Proofs.Command.Script
import ScriptScan.Proofs.Prompt.Episodes

/-!
# Runs and their logs

What a run goes through does not depend on the log filter. A transcript is the course of the run less the records that
the filter stops, so that all that is said of a course holds for each of its transcripts: only records go missing, and
the others keep their places.
-/

namespace ScriptScan.Command

/-! ## Splitting lists -/

section split

variable {α β : Type}

/-- An element of two lists in a row stands in one of them. -/
theorem split_append {xs ys front back : List α} {y : α} (h : xs ++ ys = front ++ y :: back) :
    (∃ rest, xs = front ++ y :: rest ∧ back = rest ++ ys) ∨ ∃ rest, front = xs ++ rest ∧ ys = rest ++ y :: back := by
  rcases List.append_eq_append_iff.mp h with hlater | ⟨rest, rfl, hrest⟩
  · exact .inr hlater
  · rcases List.cons_eq_append_iff.mp hrest with ⟨rfl, rfl⟩ | ⟨rest, rfl, rfl⟩
    · exact .inr ⟨[], by simp⟩
    · exact .inl ⟨rest, rfl, rfl⟩

theorem split_singleton {front back : List α} {x y : α} (h : [x] = front ++ y :: back) :
    front = [] ∧ x = y ∧ back = [] := by
  rcases List.singleton_eq_append_iff.mp h with ⟨hfront, hlast⟩ | ⟨-, hnone⟩
  · obtain ⟨rfl, rfl⟩ := List.cons.inj hlast
    exact ⟨hfront, rfl, rfl⟩
  · cases hnone

theorem split_flatMap {f : α → List β} {xs : List α} {front back : List β} {y : β}
    (h : xs.flatMap f = front ++ y :: back) :
    ∃ earlier x later before after, xs = earlier ++ x :: later ∧ f x = before ++ y :: after ∧
      front = earlier.flatMap f ++ before ∧ back = after ++ later.flatMap f := by
  induction xs generalizing front with
  | nil => exact absurd h.symm (List.append_ne_nil_of_right_ne_nil front (List.cons_ne_nil y back))
  | cons x xs ih =>
    rcases split_append h with ⟨after, hx, rfl⟩ | ⟨rest, rfl, hrest⟩
    · exact ⟨[], x, xs, front, after, rfl, hx, rfl, rfl⟩
    · obtain ⟨earlier, z, later, before, after, rfl, hz, rfl, rfl⟩ := ih hrest
      exact ⟨x :: earlier, z, later, before, after, rfl, hz, (List.append_assoc ..).symm, rfl⟩

/-- An element that has passed a filter had its place before. -/
theorem split_filter {p : α → Bool} {xs before after : List α} {x : α} (h : xs.filter p = before ++ x :: after) :
    ∃ front back, xs = front ++ x :: back ∧ before = front.filter p ∧ after = back.filter p := by
  obtain ⟨front, rest, rfl, rfl, hrest⟩ := List.filter_eq_append_iff.mp h
  obtain ⟨gap, back, rfl, hgap, -, rfl⟩ := List.filter_eq_cons_iff.mp hrest
  refine ⟨front ++ gap, back, (List.append_assoc ..).symm, ?_, rfl⟩
  rw [List.filter_append, List.filter_eq_nil_iff.mpr hgap, List.append_nil]

end split

/-! ## Notices -/

namespace Notice

/-- An entry as it stands on the error output. -/
def ofEntry (color : Bool) : Console.Entry → Notice
  | .line d => .line (d.reportLine color)
  | .record r => .log r

/-- A filter is about log records only. -/
def passes (filter : Log.Filter) : Notice → Bool
  | .log r => filter.enables r
  | .line _ => true

theorem filterMap_text?_filter (filter : Log.Filter) (ns : List Notice) :
    (ns.filter (passes filter)).filterMap text? = ns.filterMap text? := by
  rw [List.filterMap_filter]
  refine List.filterMap_congr ?_
  rintro (r | text) -
  · exact ite_self none
  · rfl

end Notice

namespace Transcript

/-- The transcript of some notices. -/
def after (filter : Log.Filter) (ns : List Notice) : Transcript :=
  ⟨filter, (ns.filter (Notice.passes filter)).toArray⟩

section after

variable (filter : Log.Filter) (ns : List Notice)

theorem write_after (text : String) : (after filter ns).write text = after filter (ns ++ [.line text]) := by
  have hpasses : [Notice.line text].filter (Notice.passes filter) = [.line text] := rfl
  simp [after, write, hpasses]

theorem log_after (r : Log.Record) : (after filter ns).log r = after filter (ns ++ [.log r]) := by
  cases h : filter.enables r <;> simp [after, log, Notice.passes, h]

theorem said_after : (after filter ns).said = ns.filterMap Notice.text? :=
  Notice.filterMap_text?_filter filter ns

end after

end Transcript

/-- A transcript takes everything. -/
def Transcript.recording (filter : Log.Filter) (color : Bool) : Recording where
  Stream := Transcript
  color
  holding es := .after filter (es.map (Notice.ofEntry color))
  write_line es d := by
    rw [List.map_append]
    exact Prod.ext (Transcript.write_after ..) rfl
  log_record es r := by
    rw [List.map_append]
    exact Transcript.log_after ..

/-! ## Courses -/

/-- What an episode has to say. -/
def episodeNotices (color : Bool) (e : Episode) : List Notice := e.entries.map (Notice.ofEntry color)

/-- What a scan has to say of the errors of a source. -/
def complaints (color : Bool) (source : String) : List Notice :=
  (findingsFrom 1 (segments source.toList)).flatMap fun f =>
    [.log f.record, .line (f.diagnostic.reportLine color)]

theorem episodeNotices_scan (color : Bool) (source : String) :
    episodeNotices color (.scan source) = complaints color source ++
      [.log (.scanFinished (scan source).tokens.size (1 + source.toList.count '\n') (scan source).erred)] := by
  simp only [episodeNotices, Episode.entries, Use.entries, List.map_append, List.map_flatMap]
  rfl

theorem filterMap_text?_complaints (color : Bool) (source : String) :
    (complaints color source).filterMap Notice.text? = (scan source).diagnostics.map (·.reportLine color) := by
  rw [complaints, diagnostics_scan, List.map_map, List.filterMap_flatMap]
  exact List.flatMap_pure_eq_map ..

/-- All that a run goes through, and how it fails if it does. -/
structure Course where
  episodes : List Episode
  failure : Option Failure

/-- What a run has to say. -/
def Course.notices (c : Course) (color : Bool) : List Notice :=
  c.episodes.flatMap (episodeNotices color) ++ (c.failure.map fun f => .line (f.reportLine color)).toList

section notices

variable {color : Bool} {c : Course} {front back : List Notice}

/-- A record belongs to one of the episodes. -/
theorem split_notices {r : Log.Record} (h : c.notices color = front ++ .log r :: back) :
    ∃ earlier e later before after, c.episodes = earlier ++ e :: later ∧
      episodeNotices color e = before ++ .log r :: after ∧ front = earlier.flatMap (episodeNotices color) ++ before ∧
      back = after ++ Course.notices ⟨later, c.failure⟩ color := by
  rcases split_append h with ⟨rest, hepisodes, rfl⟩ | ⟨rest, -, hfailure⟩
  · obtain ⟨earlier, e, later, before, after, hsplit, he, rfl, rfl⟩ := split_flatMap hepisodes
    exact ⟨earlier, e, later, before, after, hsplit, he, rfl, List.append_assoc ..⟩
  · -- A failure is not logged.
    have hmem : Notice.log r ∈ (c.failure.map fun f => Notice.line (f.reportLine color)).toList := by
      rw [hfailure]
      exact List.mem_append_right rest List.mem_cons_self
    simp at hmem

/-- While a source is scanned, only findings are logged, each right before its report. -/
theorem split_complaints {source : String} {r : Log.Record} (h : complaints color source = front ++ .log r :: back) :
    ∃ (f : Finding) (rest : List Notice), f.record = r ∧ back = .line (f.diagnostic.reportLine color) :: rest := by
  obtain ⟨_, f, _, before, after, -, hf, -, rfl⟩ := split_flatMap h
  rcases List.cons_eq_append_iff.mp hf with ⟨rfl, hfirst⟩ | ⟨before, rfl, hline⟩
  · obtain ⟨hrecord, rfl⟩ := List.cons.inj hfirst
    exact ⟨f, _, (Notice.log.inj hrecord).symm, rfl⟩
  · cases (split_singleton hline).2.1

theorem lexicalError_episodeNotices {e : Episode} {message : String} {line : Nat} {lexeme : String} {code : Nat}
    (h : episodeNotices color e = front ++ .log (.lexicalError message line lexeme code) :: back) :
    ∃ rest, back = .line (Diagnostic.reportLine color ⟨some line, "", message, code, .error⟩) :: rest := by
  cases e with
  | reading path => cases (split_singleton h).2.1
  | answered source => cases (split_singleton h).2.1
  | scan source =>
    rw [episodeNotices_scan] at h
    rcases split_append h with ⟨rest, hcomplaints, rfl⟩ | ⟨rest, -, hfinished⟩
    · obtain ⟨f, rest, hrecord, rfl⟩ := split_complaints hcomplaints
      obtain ⟨rfl, rfl, -, rfl⟩ := Log.Record.lexicalError.inj hrecord
      have hdiagnostic : f.diagnostic = ⟨some f.line, "", f.diagnostic.message, f.diagnostic.code, .error⟩ := by
        rw [Finding.diagnostic]
        cases f.error <;> rfl
      rw [← hdiagnostic]
      exact ⟨_, rfl⟩
    · cases (split_singleton hfinished).2.1

/-- That a scan is over is the last thing that it has to say. -/
theorem scanFinished_episodeNotices {e : Episode} {tokens lines : Nat} {erred : Bool}
    (h : episodeNotices color e = front ++ .log (.scanFinished tokens lines erred) :: back) :
    ∃ source, e = .scan source ∧ tokens = (scan source).tokens.size ∧ erred = (scan source).erred ∧
      front = complaints color source ∧ back = [] := by
  cases e with
  | reading path => cases (split_singleton h).2.1
  | answered source => cases (split_singleton h).2.1
  | scan source =>
    rw [episodeNotices_scan] at h
    rcases split_append h with ⟨rest, hcomplaints, -⟩ | ⟨rest, rfl, hfinished⟩
    · obtain ⟨f, _, hrecord, -⟩ := split_complaints hcomplaints
      cases hrecord
    · obtain ⟨rfl, hrecord, rfl⟩ := split_singleton hfinished
      obtain ⟨rfl, -, rfl⟩ := Log.Record.scanFinished.inj (Notice.log.inj hrecord)
      exact ⟨source, rfl, rfl, rfl, List.append_nil _, rfl⟩

end notices

/-! ## Transcripts of a course -/

/-- A transcript of a course. Only records that its filter stops are missing. -/
structure Transcript.Abridges (t : Transcript) (color : Bool) (c : Course) : Prop where
  notices : t.notices.toList = (c.notices color).filter (Notice.passes t.filter)
  /-- A record of a lexical error is followed by the report of that error. -/
  reported : ∀ before message line lexeme code after,
    t.notices.toList = before ++ .log (.lexicalError message line lexeme code) :: after →
      ∃ rest, after = .line (Diagnostic.reportLine color ⟨some line, "", message, code, .error⟩) :: rest
  /-- The record of a finished scan comes after all reports of the scan, and whatever has come before that; all that
  comes later follows it. -/
  finished : ∀ before tokens lines erred after,
    t.notices.toList = before ++ .log (.scanFinished tokens lines erred) :: after →
      ∃ earlier source later block, c.episodes = earlier ++ .scan source :: later ∧
        tokens = (scan source).tokens.size ∧ erred = (scan source).erred ∧
        before = (Course.notices ⟨earlier, none⟩ color).filter (Notice.passes t.filter) ++ block ∧
        block.filterMap Notice.text? = (scan source).diagnostics.map (·.reportLine color) ∧
        after = (Course.notices ⟨later, c.failure⟩ color).filter (Notice.passes t.filter)

theorem Transcript.abridges_after (filter : Log.Filter) (color : Bool) (c : Course) :
    (Transcript.after filter (c.notices color)).Abridges color c where
  notices := rfl
  reported before message line lexeme code after h := by
    obtain ⟨front, back, hnotices, -, rfl⟩ := split_filter h
    obtain ⟨_, e, _, _, _, -, he, -, rfl⟩ := split_notices hnotices
    obtain ⟨rest, rfl⟩ := lexicalError_episodeNotices he
    exact ⟨_, rfl⟩
  finished before tokens lines erred after h := by
    obtain ⟨front, back, hnotices, rfl, rfl⟩ := split_filter h
    obtain ⟨earlier, e, later, _, _, hsplit, he, rfl, rfl⟩ := split_notices hnotices
    obtain ⟨source, rfl, htokens, herred, rfl, rfl⟩ := scanFinished_episodeNotices he
    have hearlier : Course.notices ⟨earlier, none⟩ color = earlier.flatMap (episodeNotices color) := List.append_nil _
    refine ⟨earlier, source, later, (complaints color source).filter (Notice.passes filter), hsplit, htokens, herred,
      ?_, ?_, rfl⟩
    · rw [List.filter_append, hearlier]
      rfl
    · rw [Notice.filterMap_text?_filter, filterMap_text?_complaints]

/-! ## Courses of runs -/

/-- The sources that are scanned are texts of `inputs`, in order from the first one on. -/
def Course.Begins (c : Course) (inputs : List (Except ReadFault (List UInt8))) : Prop :=
  (scanned c.episodes).map (fun source => .ok (bytes source)) <+: inputs

/-- What a run leaves that has gone through a course. -/
def Course.outcome (c : Course) (color : Bool) (filter : Log.Filter) (out : Sink) (status : Nat) : Outcome :=
  ⟨status, out, .after filter (c.notices color)⟩

theorem holding_episodes (filter : Log.Filter) (color : Bool) (es : List Episode) :
    (Transcript.recording filter color).holding (es.flatMap Episode.entries) =
      Transcript.after filter (es.flatMap (episodeNotices color)) :=
  congrArg (Transcript.after filter) List.map_flatMap

section outcome

variable (es : List Episode) (color : Bool) (filter : Log.Filter) (out : Sink)

theorem outcome_of_failure (failure : Failure) :
    Outcome.ofFailure color out (.after filter (es.flatMap (episodeNotices color))) failure =
      Course.outcome ⟨es, some failure⟩ color filter out failure.exitStatus := by
  rw [Outcome.ofFailure, Transcript.write_after]
  rfl

theorem outcome_of_success (status : Nat) :
    (⟨status, out, .after filter (es.flatMap (episodeNotices color))⟩ : Outcome) =
      Course.outcome ⟨es, none⟩ color filter out status := by
  rw [Course.outcome, Course.notices, Option.map_none, Option.toList_none, List.append_nil]

end outcome

theorem exists_outcome_runSession (look : Look) (input : List UInt8) (out : Sink) :
    ∃ (c : Course) (left : Sink) (status : Nat), c.Begins ((lines input).map .ok) ∧
      ∀ filter, runSession look input out (.empty filter) = c.outcome look.color filter left status := by
  obtain ⟨failure, left, es, hbegins, hrun⟩ := exists_runOn_converse look.json input out
  have hcourse : Course.Begins ⟨es, failure⟩ ((lines input).map .ok) := by
    have hmap := hbegins.map (Except.ok : List UInt8 → Except ReadFault (List UInt8))
    rwa [List.map_map] at hmap
  refine ⟨⟨es, failure⟩, left, (failure.map Failure.exitStatus).getD 0, hcourse, ?_⟩
  intro filter
  have hsession : (Session.converse look input).runOn (⟨out, .empty filter⟩ : Streams Transcript) =
      (failure, ⟨left, .after filter (es.flatMap (episodeNotices look.color))⟩) := by
    rw [← holding_episodes]
    exact hrun (Transcript.recording filter look.color)
  rw [runSession, hsession]
  cases failure with
  | some failure => exact outcome_of_failure es look.color filter left failure
  | none => exact outcome_of_success es look.color filter left 0

theorem stream_scanInto_after (filter : Log.Filter) (color : Bool) (es : List Episode) (source : String) :
    (scanInto source
        (Console.on (Transcript.after filter (es.flatMap (episodeNotices color))) color)).reporter.stream =
      .after filter ((es ++ [Episode.scan source]).flatMap (episodeNotices color)) := by
  have hentries : es.flatMap Episode.entries ++ (Use.scan source).entries =
      (es ++ [Episode.scan source]).flatMap Episode.entries := by
    rw [List.flatMap_append, List.flatMap_singleton]
    rfl
  have hscan := ((Transcript.recording filter color).reporter_scanInto (es.flatMap Episode.entries) source).1
  rwa [hentries, holding_episodes, holding_episodes] at hscan

theorem exists_outcome_runScript (look : Look) (path : String) (content : Except ReadFault (List UInt8)) (out : Sink) :
    ∃ (c : Course) (left : Sink) (status : Nat), c.Begins [content] ∧
      ∀ filter, runScript look path content out (.empty filter) = c.outcome look.color filter left status := by
  have hreading (filter : Log.Filter) : (Transcript.empty filter).log (.runningScript path) =
      .after filter ([Episode.reading path].flatMap (episodeNotices look.color)) :=
    Transcript.log_after filter [] _
  rcases readable_or_unreadable content with ⟨source, rfl⟩ | ⟨cause, hcause⟩
  · cases hlist : listTokens look.json (scan source).tokens.toList out with
    | mk left failure =>
      refine ⟨⟨[.reading path, .scan source], failure⟩, left,
        (failure.map Failure.exitStatus).getD (if (scan source).erred then Outcome.scriptErred else 0),
        List.prefix_refl _, ?_⟩
      intro filter
      rw [runScript_bytes, listSource_eq, hlist, hreading]
      cases failure with
      | some failure =>
        simp only [stream_scanInto_after]
        exact outcome_of_failure _ look.color filter left failure
      | none =>
        simp only [stream_scanInto_after]
        exact outcome_of_success _ look.color filter left _
  · refine ⟨⟨[.reading path], some (.script path cause)⟩, out, (Failure.script path cause).exitStatus,
      List.nil_prefix, ?_⟩
    intro filter
    rw [runScript_of_unreadable look path out _ hcause, hreading]
    exact outcome_of_failure _ look.color filter out _

/-! ## Whole runs -/

/-- What a run may scan: its script, or the lines of its input. -/
def inputs (a : Arguments) (s : Surroundings) : List (Except ReadFault (List UInt8)) :=
  match a.scripts with
  | [] => (lines s.input).map .ok
  | path :: _ => [(s.files.onSystem s.input).read path]

/-- Whatever is to be logged, a run goes through the same course. -/
theorem exists_outcome_run {a : Arguments} (single : a.scripts.length ≤ 1) (s : Surroundings) :
    ∃ (c : Course) (left : Sink) (status : Nat), c.Begins (inputs a s) ∧
      ∀ {line : List String} {verbose : Bool}, Arguments.read line = .ok { a with verbose } →
        ∀ setting, run line { s with logSetting := setting } =
          c.outcome (s.look a).color (.ofSetting setting verbose) left status := by
  cases hscripts : a.scripts with
  | nil =>
    obtain ⟨c, left, status, hbegins, hrun⟩ := exists_outcome_runSession (s.look a) s.input s.out
    refine ⟨c, left, status, ?_, ?_⟩
    · rwa [inputs, hscripts]
    · intro line verbose hline setting
      rw [run, Plan.ofLine, hline]
      exact hrun _
  | cons path others =>
    obtain rfl : others = [] := by
      rw [hscripts, List.length_cons] at single
      exact List.eq_nil_of_length_eq_zero (by omega)
    obtain ⟨c, left, status, hbegins, hrun⟩ :=
      exists_outcome_runScript (s.look a) path ((s.files.onSystem s.input).read path) s.out
    refine ⟨c, left, status, ?_, ?_⟩
    · rwa [inputs, hscripts]
    · intro line verbose hline setting
      rw [run, Plan.ofLine, hline]
      exact hrun _

/-- Two runs on the same surroundings that differ in the verbosity and the setting of the log filter leave the same
output and the same lines on the error output, and end with the same status. Both transcripts are those of one course,
each less the records that its own filter stops; the records that are left stand where they belong. -/
theorem run_logs_apart {line line' : List String} {a : Arguments} {verbose : Bool}
    (h : Arguments.read line = .ok a) (h' : Arguments.read line' = .ok { a with verbose })
    (single : a.scripts.length ≤ 1) (s : Surroundings) (setting : Option String) :
    let o := run line s
    let o' := run line' { s with logSetting := setting }
    o'.out = o.out ∧ o'.exitStatus = o.exitStatus ∧ o'.err.said = o.err.said ∧
      o.err.filter = .ofSetting s.logSetting a.verbose ∧ o'.err.filter = .ofSetting setting verbose ∧
      ∃ c : Course, c.Begins (inputs a s) ∧
        o.err.Abridges (s.look a).color c ∧ o'.err.Abridges (s.look a).color c := by
  intro o o'
  obtain ⟨c, left, status, hbegins, hrun⟩ := exists_outcome_run single s
  have ho : o = c.outcome (s.look a).color (.ofSetting s.logSetting a.verbose) left status := hrun h s.logSetting
  have ho' : o' = c.outcome (s.look a).color (.ofSetting setting verbose) left status := hrun h' setting
  rw [ho, ho']
  refine ⟨rfl, rfl, ?_, rfl, rfl, c, hbegins, Transcript.abridges_after .., Transcript.abridges_after ..⟩
  exact (Transcript.said_after ..).trans (Transcript.said_after ..).symm

/-- A session that logs nothing, and the same one with all that the scanner logs. -/
theorem run_logs_apart_session :
    let s : Surroundings := ⟨[], bytes "@\n1\n", none, false, .empty none true⟩
    let o := run [] s
    let o' := run ["--verbose"] { s with logSetting := some "xolog_scanner=trace" }
    o'.out = o.out ∧ o'.exitStatus = o.exitStatus ∧ o'.err.said = o.err.said ∧
      o.err.notices = #[.line "[line 1] Error: Unexpected character: @\n"] ∧
      o'.err.notices = #[.log (.lexicalError "Unexpected character: @" 1 "@" 1001),
        .line "[line 1] Error: Unexpected character: @\n", .log (.scanFinished 1 1 true),
        .log (.scanFinished 2 1 false)] ∧
      ∃ c : Course, c.Begins [.ok (bytes "@"), .ok (bytes "1")] ∧ o.err.Abridges false c ∧ o'.err.Abridges false c := by
  intro s o o'
  have hread : Arguments.read [] = .ok .empty := by decide +kernel
  have hread' : Arguments.read ["--verbose"] = .ok { Arguments.empty with verbose := true } := by decide +kernel
  obtain ⟨hout, hstatus, hsaid, -, -, c, hbegins, habridges, habridges'⟩ :=
    run_logs_apart hread hread' (by decide) s (some "xolog_scanner=trace")
  refine ⟨hout, hstatus, hsaid, by decide +kernel, by decide +kernel, c, ?_, habridges, habridges'⟩
  have hinputs : inputs .empty s = [.ok (bytes "@"), .ok (bytes "1")] := by decide +kernel
  rwa [hinputs] at hbegins

end ScriptScan.Command
