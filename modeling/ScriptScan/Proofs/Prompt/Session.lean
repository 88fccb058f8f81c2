-- SUMMARY: A prompt session under limits is its events, in their order, up to the first that fails.
import ScriptScan.Proofs.Scan.Run
import ScriptScan.Proofs.Prompt.Events

/-!
# Sessions under limits

`Performs` ties a part of a session to the events it stands for, whatever has happened before. Parts compose as
their events do, so each is dealt with by itself. The one part that is not the same before every history is an
answer: it has to begin with a line just read, since that is when the console forgets what it has lost.
-/

namespace ScriptScan

namespace Limits

def outSink (l : Limits) (happened : List Event) : Sink := .after l.out l.flushes (outOf happened)

def errSink (l : Limits) (happened : List Event) : Sink := .after l.err l.flushes (errOf happened)

/-- The streams when some events have happened. -/
def streams (l : Limits) (happened : List Event) : Streams Sink := ⟨l.outSink happened, l.errSink happened⟩

end Limits

section streams

variable {l : Limits} {before es : List Event}

theorem outSink_append (silent : ∀ e ∈ es, e.out = []) : l.outSink (before ++ es) = l.outSink before := by
  have hnone : outOf es = [] := List.flatMap_eq_nil_iff.mpr silent
  rw [Limits.outSink, outOf, List.flatMap_append, ← outOf, ← outOf, hnone, List.append_nil, Limits.outSink]

theorem errSink_append (silent : ∀ e ∈ es, e.err = []) : l.errSink (before ++ es) = l.errSink before := by
  have hnone : errOf es = [] := List.flatMap_eq_nil_iff.mpr silent
  rw [Limits.errSink, errOf, List.flatMap_append, ← errOf, ← errOf, hnone, List.append_nil, Limits.errSink]

theorem streams_concat {e : Event} (hout : e.out = []) (herr : e.err = []) :
    l.streams (before ++ [e]) = l.streams before := by
  rw [Limits.streams, outSink_append (List.forall_mem_singleton.mpr hout),
    errSink_append (List.forall_mem_singleton.mpr herr), Limits.streams]

end streams

/-- When some events have happened, a part of a session lets its own happen up to the first that fails. -/
def Performs {α : Type} (l : Limits) (before : List Event) (part : Session Sink α) (es : List Event)
    (a : α) : Prop :=
  part (l.streams before) =
    match happen l before es with
    | (happened, some failure) => (.error failure, l.streams happened)
    | (happened, none) => (.ok a, l.streams happened)

theorem Session.bind_apply {ε α β : Type} (part : Session ε α) (next : α → Session ε β) (s : Streams ε) :
    (part >>= next) s =
      match part s with
      | (.ok a, s) => next a s
      | (.error failure, s) => (.error failure, s) := by
  simp only [Bind.bind, ExceptT.bind, ExceptT.mk, StateT.bind]
  rcases part s with ⟨_ | _, s⟩ <;> rfl

section Performs

variable {l : Limits} {before : List Event}

theorem Performs.bind {α β : Type} {part : Session Sink α} {next : α → Session Sink β} {xs ys : List Event}
    {a : α} {b : β} (hpart : Performs l before part xs a) (hnext : Performs l (before ++ xs) (next a) ys b) :
    Performs l before (part >>= next) (xs ++ ys) b := by
  unfold Performs at *
  rw [Session.bind_apply, hpart, happen_append]
  cases h : happen l before xs with
  | mk happened failure =>
    cases failure with
    | some failure => rfl
    | none =>
      obtain rfl := happened_of_none h
      exact hnext

/-! ## Writing -/

/-- When some events have happened, a way of writing lets its own happen up to the first that fails. -/
def Writes (l : Limits) (before : List Event) (write : Sink → Sink × Option Failure) (es : List Event) : Prop :=
  write (l.outSink before) = (l.outSink (happen l before es).1, (happen l before es).2)

theorem Writes.trans {first second : Sink → Sink × Option Failure} {xs ys : List Event}
    (hfirst : Writes l before first xs) (hsecond : Writes l (before ++ xs) second ys) :
    Writes l before (fun out => match first out with
      | (out, some failure) => (out, some failure)
      | (out, none) => second out) (xs ++ ys) := by
  simp only [Writes] at *
  rw [hfirst, happen_append]
  cases h : happen l before xs with
  | mk happened failure =>
    cases failure with
    | some failure => rfl
    | none =>
      obtain rfl := happened_of_none h
      exact hsecond

theorem writes_put (text : String) (failure : String → Failure) :
    Writes l before (·.put text failure) [.write text (failure SinkFault.closed.message)] := by
  have hout : outOf (before ++ [.write text (failure SinkFault.closed.message)]) =
      outOf before ++ bytes text := by
    simp [outOf, Event.out]
  simp only [Writes, happen_singleton, Sink.put, Limits.outSink, Sink.write_after, hout, Event.failure?]
  split <;> rfl

theorem writes_token (json : Bool) (t : Token) : Writes l before (t.list json) (tokenEvents json t) := by
  cases json with
  | false => exact writes_put (t.display ++ "\n") .output
  | true => exact (writes_put t.json .json).trans (writes_put "\n" .output)

theorem writes_listTokens (json : Bool) (ts : List Token) :
    Writes l before (listTokens json ts) (ts.flatMap (tokenEvents json)) := by
  induction ts generalizing before with
  | nil => rfl
  | cons t ts ih =>
    rw [List.flatMap_cons]
    exact (writes_token json t).trans ih

/-! ## Reporting -/

/-- The console on which so many errors have been reported since a line was read. -/
def Limits.console (l : Limits) (color : Bool) (errors : Nat) (happened : List Event) : Console Sink :=
  ⟨l.errSink happened, color, errors, if lost l happened.reverse then some .closed else none⟩

theorem take_console (color : Bool) (errors : Nat) (d : Diagnostic) :
    (l.console color errors before).take d =
      l.console color (if d.isError then errors + 1 else errors)
        (before ++ [Event.report (d.reportLine color)]) := by
  have herr : errOf (before ++ [Event.report (d.reportLine color)]) =
      errOf before ++ bytes (d.reportLine color) := by
    simp [errOf, Event.err]
  have hwrite : ErrorStream.write (l.errSink before) (d.reportLine color) =
      (l.errSink (before ++ [Event.report (d.reportLine color)]),
        if overruns l.err (errOf before) (bytes (d.reportLine color)) then some .closed else none) := by
    rw [Limits.errSink, Limits.errSink, herr]
    exact Sink.write_after ..
  have hlost : lost l (before ++ [Event.report (d.reportLine color)]).reverse =
      (overruns l.err (errOf before) (bytes (d.reportLine color)) || lost l before.reverse) := by
    rw [List.reverse_append, List.reverse_singleton, List.singleton_append, lost, List.reverse_reverse]
  simp only [Console.take, Limits.console, hwrite, hlost]
  cases lost l before.reverse <;> cases overruns l.err (errOf before) (bytes (d.reportLine color)) <;> rfl

/-- A console attempts the line of every finding, whatever becomes of the lines before it. -/
theorem foldl_tell_console (color : Bool) (errors : Nat) (fs : List Finding) :
    ∃ total, fs.foldl Finding.tell (l.console color errors before) =
      l.console color total (before ++ fs.map fun f => Event.report (f.diagnostic.reportLine color)) := by
  induction fs generalizing before errors with
  | nil =>
    rw [List.map_nil, List.append_nil]
    exact ⟨errors, rfl⟩
  | cons f fs ih =>
    have htell : Finding.tell (l.console color errors before) f =
        (l.console color errors before).take f.diagnostic := rfl
    rw [List.foldl_cons, htell, take_console, List.map_cons, List.append_cons before _ (fs.map _)]
    exact ih _

/-! ## Parts of a session -/

theorem performs_say (text : String) : Performs l before (Session.say text) [.say text] () := by
  have hput : (l.outSink before).put text .output =
      (l.outSink (before ++ [.say text]), (Event.say text).failure? l before) := by
    have hwrites : Writes l before (·.put text .output) [.say text] := writes_put text .output
    rwa [Writes, happen_singleton] at hwrites
  have herr : l.errSink (before ++ [.say text]) = l.errSink before :=
    errSink_append (List.forall_mem_singleton.mpr rfl)
  simp only [Performs, happen_singleton, Session.say, Limits.streams, hput]
  cases (Event.say text).failure? l before <;> simp only [herr]

theorem performs_ask : Performs l before Session.ask askEvents () := by
  have hget (s : Streams Sink) : (get : Session Sink (Streams Sink)) s = (.ok s, s) := rfl
  have hflush (b : List Event) : (l.streams b).out.flush = if l.flushes then none else some .flushFailed :=
    Sink.flush_after ..
  have hsame : l.streams (before ++ [.say "> "] ++ [.flush]) = l.streams (before ++ [.say "> "]) :=
    streams_concat rfl rfl
  refine (performs_say "> ").bind ?_
  simp only [Performs, happen_singleton, Session.bind_apply, hget, hflush, Event.failure?]
  cases l.flushes <;> exact Prod.ext rfl hsame.symm

/-! ## Answers -/

theorem mem_tokenEvents {json : Bool} {t : Token} {e : Event} (h : e ∈ tokenEvents json t) :
    ∃ text failure, e = .write text failure := by
  cases json with
  | false =>
    obtain rfl := List.mem_singleton.mp h
    exact ⟨_, _, rfl⟩
  | true =>
    rcases List.mem_cons.mp h with rfl | h
    · exact ⟨_, _, rfl⟩
    · obtain rfl := List.mem_singleton.mp h
      exact ⟨_, _, rfl⟩

theorem lost_append_writes {ws : List Event} (writes : ∀ e ∈ ws, ∃ text failure, e = .write text failure) :
    lost l (before ++ ws).reverse = lost l before.reverse := by
  induction ws generalizing before with
  | nil => rw [List.append_nil]
  | cons e ws ih =>
    obtain ⟨⟨text, failure, rfl⟩, hws⟩ := List.forall_mem_cons.mp writes
    rw [List.append_cons, ih hws, List.reverse_append, List.reverse_singleton, List.singleton_append, lost]

/-- A listing leaves the error stream as it is, and what has been lost on it. -/
theorem happen_listing {json : Bool} {ts : List Token} {happened : List Event} {failure : Option Failure}
    (h : happen l before (ts.flatMap (tokenEvents json)) = (happened, failure)) :
    l.errSink happened = l.errSink before ∧ lost l happened.reverse = lost l before.reverse := by
  obtain ⟨ws, hbegins, rfl, -⟩ := happened_eq_append h
  have hwrites : ∀ e ∈ ws, ∃ text failure, e = .write text failure := by
    intro e he
    obtain ⟨t, -, he⟩ := List.mem_flatMap.mp (hbegins.mem he)
    exact mem_tokenEvents he
  refine ⟨errSink_append ?_, lost_append_writes hwrites⟩
  intro e he
  obtain ⟨text, failure, rfl⟩ := hwrites e he
  rfl

theorem outSink_reportEvents (look : Look) (source : String) :
    l.outSink (before ++ reportEvents look source) = l.outSink before := by
  refine outSink_append ?_
  intro e he
  obtain ⟨d, -, rfl⟩ := List.mem_map.mp he
  rfl

/-- A console set up when a line has just been read has lost nothing yet. -/
theorem reporter_scanInto_console (look : Look) (source : String) {line : List UInt8}
    (h : before.getLast? = some (.read line)) :
    ∃ errors, (scanInto source (Console.on (l.errSink before) look.color)).reporter =
      l.console look.color errors (before ++ reportEvents look source) := by
  obtain ⟨earlier, rfl⟩ := List.getLast?_eq_some_iff.mp h
  have hon : Console.on (l.errSink (earlier ++ [.read line])) look.color =
      l.console look.color 0 (earlier ++ [.read line]) := by
    rw [Limits.console, List.reverse_append, List.reverse_singleton, List.singleton_append, lost]
    rfl
  have hlog (c : Console Sink) (r : Log.Record) : Reporter.log c r = c := rfl
  rw [reporter_scanInto, hlog, hon, reportEvents, diagnostics_scan, List.map_map]
  exact foldl_tell_console look.color 0 _

/-- All reports are attempted before the first token is listed. -/
theorem happen_answerEvents (look : Look) (source : String) :
    happen l before (answerEvents look source) =
      match happen l (before ++ reportEvents look source)
        ((scan source).tokens.toList.flatMap (tokenEvents look.json)) with
      | (happened, some failure) => (happened, some failure)
      | (happened, none) => (happened ++ [.settle], Event.settle.failure? l happened) := by
  have hreports : ∀ e ∈ reportEvents look source, ∀ b, e.failure? l b = none := by
    intro e he b
    obtain ⟨d, -, rfl⟩ := List.mem_map.mp he
    rfl
  rw [answerEvents, List.append_assoc, happen_append, happen_of_fine hreports]
  show happen l _ (_ ++ [.settle]) = _
  rw [happen_append]
  rcases happen l (before ++ reportEvents look source) _ with ⟨happened, _ | failure⟩
  · exact happen_singleton happened .settle
  · rfl

theorem performs_answer (look : Look) (source : String) {line : List UInt8}
    (h : before.getLast? = some (.read line)) :
    Performs l before (Session.answer look source) (answerEvents look source) (scan source).erred := by
  obtain ⟨errors, hreporter⟩ := reporter_scanInto_console (l := l) look source h
  have hlist : Writes l (before ++ reportEvents look source) _ _ :=
    writes_listTokens look.json (scan source).tokens.toList
  rw [Writes, outSink_reportEvents] at hlist
  rw [Performs, happen_answerEvents]
  simp only [Session.answer, listSource, Limits.streams, hreporter, tokens_scanInto_eq_scan,
    erred_scanInto_eq_scan, hlist]
  -- the listing is cut short, or it is whole and the reports that were lost decide
  cases hhappen : happen l (before ++ reportEvents look source) _ with
  | mk happened failure =>
    obtain ⟨herr, hlost⟩ := happen_listing hhappen
    have hstreams : l.streams happened =
        ⟨l.outSink happened, l.errSink (before ++ reportEvents look source)⟩ := by
      rw [Limits.streams, herr]
    cases failure with
    | some failure => exact Prod.ext rfl hstreams.symm
    | none =>
      have hsettle : l.streams (happened ++ [.settle]) = l.streams happened := streams_concat rfl rfl
      simp only [Event.failure?, hlost, Limits.console]
      cases lost l (before ++ reportEvents look source).reverse <;>
        exact Prod.ext rfl (hsettle.trans hstreams).symm

/-! ## Whole sessions -/

theorem performs_logScanned (erred : Bool) : Performs l before (Session.logScanned erred) [] () := rfl

theorem performs_turn (look : Look) (line : List UInt8) :
    Performs l before (Session.turn look line) (turnEvents look line) () := by
  have hread : l.streams (before ++ [.read line]) = l.streams before := streams_concat rfl rfl
  rw [Session.turn, turnEvents]
  cases hsource : Utf8.decode? line with
  | none =>
    rw [Performs, happen_singleton, Event.failure?, hsource]
    exact Prod.ext rfl hread.symm
  | some source =>
    have hturn : Performs l (before ++ [.read line])
        (Session.answer look source >>= fun erred => Session.logScanned erred >>= fun _ => Session.ask)
        (answerEvents look source ++ ([] ++ askEvents)) () :=
      (performs_answer look source List.getLast?_concat).bind ((performs_logScanned _).bind performs_ask)
    rw [Performs, hread] at hturn
    rw [Performs, happen, Event.failure?, hsource]
    exact hturn

theorem performs_turns (look : Look) (ls : List (List UInt8)) :
    Performs l before (ls.forM (Session.turn look)) (ls.flatMap (turnEvents look)) () := by
  induction ls generalizing before with
  | nil => rfl
  | cons line ls ih =>
    rw [List.flatMap_cons]
    exact (performs_turn look line).bind ih

theorem performs_converse (look : Look) (input : List UInt8) :
    Performs l before (Session.converse look input) (sessionEvents look input) () := by
  have hgreet : Performs l before Session.greet
      ([.say "Xolog REPL\n", .say "------------------\n"] ++ askEvents) () :=
    (performs_say _).bind ((performs_say _).bind performs_ask)
  rw [sessionEvents, List.append_assoc]
  exact hgreet.bind ((performs_turns look (lines input)).bind (performs_say "\n"))

end Performs

theorem runOn_converse (l : Limits) (look : Look) (input : List UInt8) :
    (Session.converse look input).runOn (l.streams []) =
      ((happen l [] (sessionEvents look input)).2, l.streams (happen l [] (sessionEvents look input)).1) := by
  rw [Session.runOn, performs_converse]
  rcases happen l [] (sessionEvents look input) with ⟨happened, _ | failure⟩ <;> rfl

/-- Under any limits a session lets its events happen up to the first that fails, and ends with that failure.
Each stream then holds as much as it can of what has been written to it, and the rest of the input makes no
difference. -/
theorem converse_stops (look : Look) (input : List UInt8) (l : Limits) :
    let start : Streams Sink := ⟨.empty l.out l.flushes, .empty l.err l.flushes⟩
    let (failure, s) := (Session.converse look input).runOn start
    (failure = none ↔ Fine l (sessionEvents look input)) ∧
      ∃ happened, Stops l (sessionEvents look input) happened failure ∧
        s.out.kept.toList = limited l.out (outOf happened) ∧
        s.err.kept.toList = limited l.err (errOf happened) ∧
        ∀ other, failure ≠ none → happened <+: sessionEvents look other →
          (Session.converse look other).runOn start = (failure, s) := by
  intro start
  have hstart : start = l.streams [] := by
    rw [Limits.streams, Limits.outSink, Limits.errSink, outOf, errOf, List.flatMap_nil, List.flatMap_nil,
      ← Sink.empty_eq_after, ← Sink.empty_eq_after]
  have hrun := runOn_converse l look input
  cases h : happen l [] (sessionEvents look input) with
  | mk happened failure =>
    have hstops : Stops l (sessionEvents look input) happened failure := stops_iff.mpr h
    rw [hstart, hrun, h]
    refine ⟨hstops.eq_none_iff, happened, hstops, rfl, rfl, ?_⟩
    intro other hfailure hbegins
    rw [runOn_converse, stops_iff.mp (hstops.of_happened hfailure hbegins)]

/-- The reports of a line are lost before its tokens are cut short, but the cut is what counts. -/
example :
    let start : Streams Sink := ⟨.empty (some 40) true, .empty (some 0) true⟩
    ((Session.converse ⟨true, false⟩ "@".toUTF8.data.toList).runOn start).1 = some (.json "closed") := by
  decide +kernel

end ScriptScan
