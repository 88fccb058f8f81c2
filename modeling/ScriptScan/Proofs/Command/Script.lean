-- SUMMARY: What a run on one script ends with, whatever the options of the command line and the log filter are.
import ScriptScan.Command.Run
import ScriptScan.Proofs.Listing.Reading
import ScriptScan.Proofs.Text.Encoding

/-!
# Runs on a script

A script that cannot be read leaves one line. Any other is scanned first, with its errors reported one by one, and
listed then; how the listing goes decides before the errors do. Options and the log filter change how tokens and
reports look and which log records stand between the reports, and nothing else.
-/

namespace ScriptScan.Command

/-! ## What is said -/

/-- The text of a notice, unless it is a log record. -/
def Notice.text? : Notice → Option String
  | .log _ => none
  | .line text => some text

namespace Transcript

/-- The lines on the error output that are no log records. -/
def said (t : Transcript) : List String := t.notices.toList.filterMap Notice.text?

@[simp] theorem said_empty (filter : Log.Filter) : (Transcript.empty filter).said = [] := rfl

@[simp] theorem said_write (t : Transcript) (text : String) : (t.write text).said = t.said ++ [text] := by
  simp [said, write, Notice.text?]

@[simp] theorem said_log (t : Transcript) (r : Log.Record) : (t.log r).said = t.said := by
  rw [log]
  split <;> simp [said, Notice.text?]

end Transcript

/-! ## The console of a script -/

/-- A console on a transcript says the line of each finding, and never has a fault. -/
theorem foldl_tell_transcript (fs : List Finding) (c : Console Transcript) :
    let told := fs.foldl Finding.tell c
    told.stream.said = c.stream.said ++ fs.map (fun f => f.diagnostic.reportLine c.color) ∧
      told.fault = c.fault := by
  induction fs generalizing c with
  | nil => simp
  | cons f fs ih =>
    have hsaid : (Finding.tell c f).stream.said = c.stream.said ++ [f.diagnostic.reportLine c.color] := by
      have hstream : (Finding.tell c f).stream =
          (c.stream.log f.record).write (f.diagnostic.reportLine c.color) := rfl
      rw [hstream, Transcript.said_write, Transcript.said_log]
    have hfault : (Finding.tell c f).fault = c.fault := Option.or_none
    have hcolor : (Finding.tell c f).color = c.color := rfl
    obtain ⟨ihsaid, ihfault⟩ := ih (Finding.tell c f)
    rw [hsaid, hcolor, List.append_assoc] at ihsaid
    exact ⟨ihsaid, ihfault.trans hfault⟩

/-- All errors of a source are reported, however its listing goes. -/
theorem reporter_listSource_transcript (json : Bool) (source : String) (out : Sink) (err : Transcript)
    (color : Bool) :
    let console := (listSource json source out (Console.on err color)).reporter
    console.stream.said = err.said ++ (scan source).diagnostics.map (·.reportLine color) ∧
      console.fault = none := by
  obtain ⟨hsaid, hfault⟩ :=
    foldl_tell_transcript (findingsFrom 1 (segments source.toList)) (Console.on err color)
  have hreports : (scan source).diagnostics.map (·.reportLine color) =
      (findingsFrom 1 (segments source.toList)).map fun f => f.diagnostic.reportLine color := by
    rw [diagnostics_scan, List.map_map]
    rfl
  rw [reporter_listSource, reporter_scanInto, hreports]
  exact ⟨(Transcript.said_log ..).trans hsaid, hfault⟩

/-! ## Listings that fail -/

theorem failure_put {out left : Sink} {text : String} {make : String → Failure} {failure : Failure}
    (h : out.put text make = (left, some failure)) : ∃ cause, failure = make cause := by
  obtain ⟨fault, -, hfault⟩ := Option.map_eq_some_iff.mp (Prod.mk.inj h).2
  exact ⟨fault.message, hfault.symm⟩

theorem exitStatus_of_list {json : Bool} {t : Token} {out left : Sink} {failure : Failure}
    (h : t.list json out = (left, some failure)) : failure.exitStatus = 74 ∨ failure.exitStatus = 70 := by
  cases json with
  | false =>
    obtain ⟨cause, rfl⟩ := failure_put h
    exact .inl rfl
  | true =>
    simp only [Token.list, if_true] at h
    split at h
    · next hput =>
      obtain ⟨cause, rfl⟩ := failure_put (hput.trans h)
      exact .inr rfl
    · obtain ⟨cause, rfl⟩ := failure_put h
      exact .inl rfl

/-- A listing fails for its output, and not as if there were no script. -/
theorem exitStatus_of_listTokens {json : Bool} {ts : List Token} {out left : Sink} {failure : Failure}
    (h : listTokens json ts out = (left, some failure)) :
    failure.exitStatus = 74 ∨ failure.exitStatus = 70 := by
  induction ts generalizing out with
  | nil => cases h
  | cons t ts ih =>
    rw [listTokens] at h
    split at h
    · next hlist => exact exitStatus_of_list (hlist.trans h)
    · exact ih h

section full

variable (held : Nat) (make : String → Failure)

theorem put_full_lineFeed {text : String} (h : '\n' ∈ text.toList) :
    Sink.put ⟨.full held, true, #[]⟩ text make =
      (⟨.full held, true, #[]⟩, some (make SinkFault.noSpace.message)) := by
  simp [Sink.put, Sink.write, h]

/-- A text without a line feed waits in the line buffer. -/
theorem put_full_of_fits {text : String} (h : '\n' ∉ text.toList)
    (hfits : held + (bytes text).length ≤ Sink.lineBuffer) :
    Sink.put ⟨.full held, true, #[]⟩ text make = (⟨.full (held + (bytes text).length), true, #[]⟩, none) := by
  have hsize : ¬Sink.lineBuffer < held + text.utf8ByteSize := by simpa [bytes] using hfits
  simp [Sink.put, Sink.write, bytes, h, hsize]

end full

/-- A full device fails at the end of the first line. -/
theorem list_fullDevice {json : Bool} {t : Token}
    (h : json = true → (bytes t.json).length ≤ Sink.lineBuffer) :
    ∃ held, t.list json .fullDevice =
      (⟨.full held, true, #[]⟩, some (.output SinkFault.noSpace.message)) := by
  cases json with
  | false => exact ⟨0, put_full_lineFeed 0 .output (by simp)⟩
  | true =>
    have hfits : 0 + (bytes t.json).length ≤ Sink.lineBuffer := by
      have hlength := h rfl
      omega
    have hjson := put_full_of_fits 0 .json t.lineFeed_not_mem_json hfits
    have hfeed : Sink.put ⟨.full (0 + (bytes t.json).length), true, #[]⟩ "\n" .output = _ :=
      put_full_lineFeed _ .output (by decide)
    refine ⟨0 + (bytes t.json).length, ?_⟩
    simp only [Token.list, Sink.fullDevice, if_true, hjson, hfeed]

/-- The end mark sees to it that there is a first line. -/
theorem exists_first_token (source : String) : ∃ t ts, (scan source).tokens.toList = t :: ts := by
  rw [scan, tokens_scanInto]
  exact List.ne_nil_iff_exists_cons.mp (List.append_ne_nil_of_right_ne_nil _ (List.cons_ne_nil _ _))

/-! ## Scripts -/

/-- Why a script has no source: it cannot be read, or what is read is no text. -/
inductive Unreadable : Except ReadFault (List UInt8) → String → Prop
  | fault (f : ReadFault) : Unreadable (.error f) f.message
  | noText {input : List UInt8} (h : ¬WellFormed input) : Unreadable (.ok input) invalidText

theorem readable_or_unreadable (content : Except ReadFault (List UInt8)) :
    (∃ source : String, content = .ok (bytes source)) ∨ ∃ cause, Unreadable content cause := by
  cases content with
  | error f => exact .inr ⟨_, .fault f⟩
  | ok input =>
    by_cases h : WellFormed input
    · obtain ⟨source, rfl⟩ := h
      exact .inl ⟨source, rfl⟩
    · exact .inr ⟨_, .noText h⟩

theorem exists_unreadable_ok_iff {input : List UInt8} :
    (∃ cause, Unreadable (.ok input) cause) ↔ ¬WellFormed input := by
  constructor
  · rintro ⟨_, hcause⟩
    cases hcause with
    | noText h => exact h
  · intro h
    exact ⟨_, .noText h⟩

section runScript

variable (look : Look) (path : String) (out : Sink) (err : Transcript)

theorem runScript_of_unreadable {content : Except ReadFault (List UInt8)} {cause : String}
    (h : Unreadable content cause) :
    runScript look path content out err =
      .ofFailure look.color out (err.log (.runningScript path)) (.script path cause) := by
  cases h with
  | fault f => rfl
  | noText h => simp only [runScript, not_wellFormed_iff_decode?.mp h]

/-- The errors of a source come into play only when its listing is whole. -/
theorem runScript_bytes (source : String) :
    runScript look path (.ok (bytes source)) out err =
      let listing := listSource look.json source out (Console.on (err.log (.runningScript path)) look.color)
      match listing.result with
      | .error failure => .ofFailure look.color listing.out listing.reporter.stream failure
      | .ok erred => ⟨if erred then Outcome.scriptErred else 0, listing.out, listing.reporter.stream⟩ := by
  have hdecode : Utf8.decode? (bytes source) = some source := decode?_eq_some_iff_bytes.mpr rfl
  obtain ⟨-, hfault⟩ :=
    reporter_listSource_transcript look.json source out (err.log (.runningScript path)) look.color
  simp only [runScript, hdecode, Console.takeFault, hfault]
  cases (listSource look.json source out (Console.on (err.log (.runningScript path)) look.color)).result <;> rfl

theorem exitStatus_of_listSource {ρ : Type} [Reporter ρ] {json : Bool} {source : String} {r : ρ}
    {failure : Failure} (h : (listSource json source out r).result = .error failure) :
    failure.exitStatus = 74 ∨ failure.exitStatus = 70 := by
  rw [listSource] at h
  split at h
  · next hlist =>
    obtain rfl := Except.error.inj h
    exact exitStatus_of_listTokens hlist
  · cases h

/-- No other failure has the status of a script without a source. -/
theorem runScript_exitStatus_eq_66_iff (content : Except ReadFault (List UInt8)) :
    (runScript look path content out err).exitStatus = 66 ↔ ∃ cause, Unreadable content cause := by
  constructor
  · intro hstatus
    rcases readable_or_unreadable content with ⟨source, rfl⟩ | hcause
    · rw [runScript_bytes] at hstatus
      simp only at hstatus
      split at hstatus
      · next failure hresult =>
        rcases exitStatus_of_listSource out hresult with hfailure | hfailure
        all_goals exact absurd (hfailure.symm.trans hstatus) (by decide)
      · split at hstatus <;> cases hstatus
    · exact hcause
  · rintro ⟨cause, hcause⟩
    rw [runScript_of_unreadable look path out err hcause]
    rfl

theorem runScript_eq_refusal_iff (input : List UInt8) :
    runScript look path (.ok input) out err =
        .ofFailure look.color out (err.log (.runningScript path)) (.script path invalidText) ↔
      ¬WellFormed input := by
  constructor
  · intro h
    rw [← exists_unreadable_ok_iff, ← runScript_exitStatus_eq_66_iff look path out err, h]
    rfl
  · intro h
    exact runScript_of_unreadable look path out err (.noText h)

/-! ## What a script run says -/

/-- The lexical errors that an outcome reports, with no more than a failure behind them. -/
def Outcome.Reports (o : Outcome) (color : Bool) (ds : List Diagnostic) : Prop :=
  ∃ last, o.err.said = ds.map (·.reportLine color) ++ last ∧
    (last = [] ∨ ∃ failure : Failure, last = [failure.reportLine color])

variable {err} (silent : err.said = [])

include silent

theorem said_runScript_of_unreadable {content : Except ReadFault (List UInt8)} {cause : String}
    (h : Unreadable content cause) :
    (runScript look path content out err).err.said = [(Failure.script path cause).reportLine look.color] := by
  rw [runScript_of_unreadable look path out err h, Outcome.ofFailure, Transcript.said_write, Transcript.said_log,
    silent, List.nil_append]

theorem runScript_reports_of_unreadable {content : Except ReadFault (List UInt8)} {cause : String}
    (h : Unreadable content cause) : (runScript look path content out err).Reports look.color [] :=
  ⟨[_], said_runScript_of_unreadable look path out silent h, .inr ⟨_, rfl⟩⟩

theorem said_listSource (source : String) :
    let listing := listSource look.json source out (Console.on (err.log (.runningScript path)) look.color)
    listing.reporter.stream.said = (scan source).diagnostics.map (·.reportLine look.color) := by
  obtain ⟨hsaid, -⟩ :=
    reporter_listSource_transcript look.json source out (err.log (.runningScript path)) look.color
  rwa [Transcript.said_log, silent, List.nil_append] at hsaid

theorem runScript_reports (source : String) :
    (runScript look path (.ok (bytes source)) out err).Reports look.color (scan source).diagnostics := by
  have hsaid := said_listSource look path out silent source
  rw [runScript_bytes]
  simp only [Outcome.Reports]
  split
  · next failure _ =>
    refine ⟨[failure.reportLine look.color], ?_, .inr ⟨failure, rfl⟩⟩
    rw [Outcome.ofFailure, Transcript.said_write, hsaid]
  · exact ⟨[], by rw [hsaid, List.append_nil], .inl rfl⟩

theorem runScript_unlimited (source : String) (flushes : Bool) :
    let o := runScript look path (.ok (bytes source)) (.empty none flushes) err
    o.out.kept.toList = bytes (listingText look.json (scan source).tokens.toList) ∧
      o.err.said = (scan source).diagnostics.map (·.reportLine look.color) ∧
      o.exitStatus = if (scan source).diagnostics = [] then 0 else 65 := by
  have hfits : overruns none [] (bytes (listingText look.json (scan source).tokens.toList)) = false := rfl
  obtain ⟨hkept, hresult⟩ := listSource_after_of_fits look.json source flushes
    (Console.on (err.log (.runningScript path)) look.color) hfits
  have herred := erred_scan_iff source
  rw [runScript_bytes]
  simp only [hresult]
  refine ⟨hkept, said_listSource look path _ silent source, ?_⟩
  by_cases h : (scan source).diagnostics = [] <;> simp_all [Outcome.scriptErred]

theorem runScript_fullDevice (source : String)
    (hfits : look.json = true →
      ∀ t ∈ (scan source).tokens.toList, (bytes t.json).length ≤ Sink.lineBuffer) :
    let o := runScript look path (.ok (bytes source)) .fullDevice err
    o.exitStatus = 74 ∧ o.err.said = (scan source).diagnostics.map (·.reportLine look.color) ++
      [(Failure.output SinkFault.noSpace.message).reportLine look.color] := by
  obtain ⟨t, ts, htokens⟩ := exists_first_token source
  obtain ⟨held, hlist⟩ := list_fullDevice (t := t) fun hjson => hfits hjson t (htokens ▸ List.mem_cons_self)
  have hresult : (listSource look.json source .fullDevice
      (Console.on (err.log (.runningScript path)) look.color)).result =
        .error (.output SinkFault.noSpace.message) := by
    simp only [listSource, tokens_scanInto_eq_scan, htokens, listTokens, hlist]
  rw [runScript_bytes]
  simp only [hresult]
  refine ⟨rfl, ?_⟩
  rw [Outcome.ofFailure, Transcript.said_write, said_listSource look path _ silent source]

end runScript

/-! ## Two runs -/

section two

variable (path : String) (content : Except ReadFault (List UInt8))

/-- Which errors are reported is a matter of the content alone. -/
theorem exists_reports : ∃ ds, ∀ look out err, err.said = [] →
    (runScript look path content out err).Reports look.color ds := by
  rcases readable_or_unreadable content with ⟨source, rfl⟩ | ⟨cause, hcause⟩
  · refine ⟨(scan source).diagnostics, ?_⟩
    intro look out err silent
    exact runScript_reports look path out silent source
  · refine ⟨[], ?_⟩
    intro look out err silent
    exact runScript_reports_of_unreadable look path out silent hcause

theorem exitStatus_runScript_eq {out : Sink}
    (hout : (∃ flushes, out = .empty none flushes) ∨
      out = .fullDevice ∧ ∀ source : String, content = .ok (bytes source) →
        ∀ t ∈ (scan source).tokens.toList, (bytes t.json).length ≤ Sink.lineBuffer)
    {look look' : Look} {err err' : Transcript} (silent : err.said = []) (silent' : err'.said = []) :
    (runScript look path content out err).exitStatus = (runScript look' path content out err').exitStatus := by
  rcases readable_or_unreadable content with ⟨source, rfl⟩ | hcause
  · rcases hout with ⟨flushes, rfl⟩ | ⟨rfl, hfits⟩
    · rw [(runScript_unlimited look path silent source flushes).2.2,
        (runScript_unlimited look' path silent' source flushes).2.2]
    · have hfits := hfits source rfl
      rw [(runScript_fullDevice look path silent source fun _ => hfits).1,
        (runScript_fullDevice look' path silent' source fun _ => hfits).1]
  · rw [(runScript_exitStatus_eq_66_iff look path out err content).mpr hcause,
      (runScript_exitStatus_eq_66_iff look' path out err' content).mpr hcause]

end two

/-! ## Whole runs -/

theorem readFrom_dashes (a : Arguments) {path : String} (hname : path ≠ "") (hnone : a.scripts = []) :
    a.readFrom ["--", path] = .ok { a with scripts := [path] } := by
  have hdashes : "--".toList = ['-', '-'] := by decide
  simp [Arguments.readFrom, hdashes, Arguments.checkScripts, hnone, Ne.symm hname]

/-- Any options can stand before a script. -/
theorem ofLine_options (json verbose noColor : Bool) {path : String} (h : path ≠ "") :
    Plan.ofLine ((if json then ["--json"] else []) ++ (if verbose then ["--verbose"] else []) ++
      (if noColor then ["--no-color"] else []) ++ ["--", path]) =
        .script path ⟨json, verbose, noColor, [path]⟩ := by
  have hread : Arguments.read ((if json then ["--json"] else []) ++ (if verbose then ["--verbose"] else []) ++
      (if noColor then ["--no-color"] else []) ++ ["--", path]) = .ok ⟨json, verbose, noColor, [path]⟩ := by
    cases json <;> cases verbose <;> cases noColor <;> exact readFrom_dashes ⟨_, _, _, []⟩ h rfl
  rw [Plan.ofLine, hread]

/-- A transcript begins empty, whatever its filter lets pass. -/
theorem said_transcript (s : Surroundings) (a : Arguments) : (s.transcript a).said = [] :=
  Transcript.said_empty _

theorem run_of_script {line : List String} {path : String} {a : Arguments} (h : Plan.ofLine line = .script path a)
    (s : Surroundings) :
    run line s = runScript (s.look a) path ((s.files.onSystem s.input).read path) s.out (s.transcript a) := by
  rw [run, h]
  rfl

/-- A run on one script ends with 66 and a single line if there is no source. Otherwise it reports every lexical
error in order, whatever becomes of the tokens: with an output that takes everything they are all listed, and the
errors decide between 65 and 0; with a full device the run ends with 74, and the failure of the output comes last.
Two runs on the script report the same errors and have the same status, whatever their options and log settings. -/
theorem run_script_outcome {line : List String} {path : String} {a : Arguments}
    (h : Plan.ofLine line = .script path a) (s : Surroundings) :
    let content := (s.files.onSystem s.input).read path
    let color := (s.look a).color
    let o := run line s
    ((∃ source : String, content = .ok (bytes source)) ∨ ∃ cause, Unreadable content cause) ∧
    (∀ cause, Unreadable content cause →
      o.exitStatus = 66 ∧ o.out = s.out ∧ o.err.said = [(Failure.script path cause).reportLine color]) ∧
    (∀ source : String, content = .ok (bytes source) →
      let tokens := (scan source).tokens.toList
      let diagnostics := (scan source).diagnostics
      o.Reports color diagnostics ∧
      (∀ flushes, s.out = .empty none flushes →
        o.out.kept.toList = bytes (listingText a.json tokens) ∧
          o.err.said = diagnostics.map (·.reportLine color) ∧
          o.exitStatus = if diagnostics = [] then 0 else 65) ∧
      (s.out = .fullDevice → (a.json = true → ∀ t ∈ tokens, (bytes t.json).length ≤ Sink.lineBuffer) →
        o.exitStatus = 74 ∧ o.err.said = diagnostics.map (·.reportLine color) ++
          [(Failure.output SinkFault.noSpace.message).reportLine color])) ∧
    ∀ line' a' s', Plan.ofLine line' = .script path a' → s'.files = s.files → s'.input = s.input →
      let o' := run line' s'
      (∃ ds, o.Reports color ds ∧ o'.Reports (s'.look a').color ds) ∧
      (s'.out = s.out →
        ((∃ flushes, s.out = .empty none flushes) ∨
          s.out = .fullDevice ∧ ∀ source : String, content = .ok (bytes source) →
            ∀ t ∈ (scan source).tokens.toList, (bytes t.json).length ≤ Sink.lineBuffer) →
        o'.exitStatus = o.exitStatus) := by
  intro content color o
  have hrun : o = runScript (s.look a) path content s.out (s.transcript a) := run_of_script h s
  have hsilent := said_transcript s a
  refine ⟨readable_or_unreadable content, ?_, ?_, ?_⟩
  · intro cause hcause
    refine ⟨?_, ?_, ?_⟩
    · rw [hrun, runScript_exitStatus_eq_66_iff]
      exact ⟨cause, hcause⟩
    · rw [hrun, runScript_of_unreadable _ _ _ _ hcause, Outcome.ofFailure]
    · rw [hrun, said_runScript_of_unreadable _ _ _ hsilent hcause]
  · intro source hsource tokens diagnostics
    rw [hsource] at hrun
    refine ⟨?_, ?_, ?_⟩
    · rw [hrun]
      exact runScript_reports _ _ _ hsilent source
    · intro flushes hout
      rw [hrun, hout]
      exact runScript_unlimited _ _ hsilent source flushes
    · intro hout hfits
      rw [hrun, hout]
      exact runScript_fullDevice _ _ hsilent source hfits
  · intro line' a' s' h' hfiles hinput o'
    have hrun' : o' = runScript (s'.look a') path content s'.out (s'.transcript a') := by
      have hscript := run_of_script h' s'
      rwa [hfiles, hinput] at hscript
    obtain ⟨ds, hreports⟩ := exists_reports path content
    refine ⟨⟨ds, ?_, ?_⟩, ?_⟩
    · rw [hrun]
      exact hreports _ _ _ (said_transcript s a)
    · rw [hrun']
      exact hreports _ _ _ (said_transcript s' a')
    · intro hout hkind
      rw [hrun, hrun', hout]
      exact exitStatus_runScript_eq path content hkind (said_transcript s' a') (said_transcript s a)

/-- The report comes before the failure of the output, and that takes the status from it. -/
theorem run_script_outcome_full_device :
    let line := ["--json", "--verbose", "--no-color", "--", "a.xo"]
    let s : Surroundings := ⟨[(["a.xo"], .file (bytes "(@"))], [], some "debug", true, .fullDevice⟩
    Plan.ofLine line = .script "a.xo" ⟨true, true, true, ["a.xo"]⟩ ∧ (run line s).exitStatus = 74 ∧
      (run line s).err.said = ["[line 1] Error: Unexpected character: @\n",
        "error[xolog::output]: failed to write output: No space left on device (os error 28)\n"] := by
  intro line s
  have hplan : Plan.ofLine line = .script "a.xo" ⟨true, true, true, ["a.xo"]⟩ :=
    ofLine_options true true true (by decide)
  have hcontent : (s.files.onSystem s.input).read "a.xo" = .ok (bytes "(@") := by rfl
  have hfits : ∀ t ∈ (scan "(@").tokens.toList, (bytes t.json).length ≤ Sink.lineBuffer := by decide +kernel
  obtain ⟨-, -, houtcome, -⟩ := run_script_outcome hplan s
  obtain ⟨-, -, hfull⟩ := houtcome "(@" hcontent
  obtain ⟨hstatus, hsaid⟩ := hfull rfl fun _ => hfits
  exact ⟨hplan, hstatus, hsaid.trans (by decide +kernel)⟩

end ScriptScan.Command
