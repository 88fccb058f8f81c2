-- SUMMARY: The events of a prompt session in their order, and where limited streams stop them.
import ScriptScan.Prompt
import ScriptScan.Proofs.Output.Sink

/-!
# Events of a session

The input fixes the events of a session before any of them happens, and each event fails or not by what has
happened before it. A failing event still happens, as far as the streams let it, and is the last to do so.
-/

namespace ScriptScan

/-- The capacities of the two streams, and whether they can be flushed. -/
structure Limits where
  out : Option Nat
  err : Option Nat
  flushes : Bool

inductive Event where
  | read (line : List UInt8)
  /-- Attempts a line on the error stream. A report that is lost does not fail yet. -/
  | report (text : String)
  /-- Writes to the output, with the failure if the text does not fit. -/
  | write (text : String) (failure : Failure)
  | flush
  /-- Fails if a report has been lost. -/
  | settle
  deriving DecidableEq

namespace Event

def out : Event → List UInt8
  | .write text _ => bytes text
  | .read _ | .report _ | .flush | .settle => []

def err : Event → List UInt8
  | .report text => bytes text
  | .read _ | .write _ _ | .flush | .settle => []

end Event

/-- All that events write to the output, if nothing limits it. -/
def outOf (es : List Event) : List UInt8 := es.flatMap Event.out

/-- All that events write to the error stream, if nothing limits it. -/
def errOf (es : List Event) : List UInt8 := es.flatMap Event.err

/-- A report has been lost since a line was read. The latest events come first. -/
def lost (l : Limits) : List Event → Bool
  | [] | .read _ :: _ => false
  | .report text :: earlier => overruns l.err (errOf earlier.reverse) (bytes text) || lost l earlier
  | .write _ _ :: earlier | .flush :: earlier | .settle :: earlier => lost l earlier

/-- The failure of an event, if it fails after those before it. -/
def Event.failure? (l : Limits) (before : List Event) : Event → Option Failure
  | .read line => if (Utf8.decode? line).isNone then some (.input invalidText) else none
  | .report _ => none
  | .write text failure => if overruns l.out (outOf before) (bytes text) then some failure else none
  | .flush => if l.flushes then none else some (.output SinkFault.flushFailed.message)
  | .settle => if lost l before.reverse then some (.output SinkFault.closed.message) else none

/-! ## Events in order -/

/-- No event fails. -/
def Fine (l : Limits) (es : List Event) : Prop :=
  ∀ before e later, es = before ++ e :: later → e.failure? l before = none

/-- Events happen in order, all of them or those up to the first that fails. -/
inductive Stops (l : Limits) (events : List Event) : List Event → Option Failure → Prop where
  | through (fine : Fine l events) : Stops l events events none
  | failing {before : List Event} {e : Event} {later : List Event} {failure : Failure}
      (split : events = before ++ e :: later) (fine : Fine l before)
      (fails : e.failure? l before = some failure) :
      Stops l events (before ++ [e]) (some failure)

/-- What has happened when events stop, and the failure they stop with, some having happened before. -/
def happen (l : Limits) (before : List Event) : List Event → List Event × Option Failure
  | [] => (before, none)
  | e :: es =>
    match e.failure? l before with
    | some failure => (before ++ [e], some failure)
    | none => happen l (before ++ [e]) es

section happen

variable {l : Limits}

theorem happen_append (before xs ys : List Event) :
    happen l before (xs ++ ys) =
      match happen l before xs with
      | (happened, some failure) => (happened, some failure)
      | (happened, none) => happen l happened ys := by
  induction xs generalizing before with
  | nil => rfl
  | cons x xs ih =>
    rw [List.cons_append, happen, happen]
    split
    · rfl
    · exact ih (before ++ [x])

theorem happen_singleton (before : List Event) (e : Event) :
    happen l before [e] = (before ++ [e], e.failure? l before) := by
  rw [happen]
  split
  · next h => rw [h]
  · next h => rw [h, happen]

/-- Only the first events happen, and all of them if none fails. -/
theorem happened_eq_append {before es happened : List Event} {failure : Option Failure}
    (h : happen l before es = (happened, failure)) :
    ∃ xs, xs <+: es ∧ happened = before ++ xs ∧ (failure = none → xs = es) := by
  induction es generalizing before with
  | nil =>
    obtain ⟨rfl, rfl⟩ := Prod.mk.inj h
    exact ⟨[], List.nil_prefix, by simp, fun _ => rfl⟩
  | cons e es ih =>
    rw [happen] at h
    split at h
    · obtain ⟨rfl, rfl⟩ := Prod.mk.inj h
      exact ⟨[e], List.prefix_append [e] es, rfl, nofun⟩
    · obtain ⟨xs, hbegins, rfl, hall⟩ := ih h
      refine ⟨e :: xs, List.cons_prefix_cons.mpr ⟨rfl, hbegins⟩, List.append_cons .. |>.symm, ?_⟩
      intro hnone
      rw [hall hnone]

theorem happened_of_none {before es happened : List Event} (h : happen l before es = (happened, none)) :
    happened = before ++ es := by
  obtain ⟨_, -, rfl, hall⟩ := happened_eq_append h
  rw [hall rfl]

theorem happen_of_fine {before es : List Event} (fine : ∀ e ∈ es, ∀ b, e.failure? l b = none) :
    happen l before es = (before ++ es, none) := by
  induction es generalizing before with
  | nil => rw [happen, List.append_nil]
  | cons e es ih =>
    obtain ⟨he, hes⟩ := List.forall_mem_cons.mp fine
    rw [happen, he before]
    exact (ih hes).trans (by rw [← List.append_cons])

theorem fine_nil : Fine l [] :=
  fun _ _ _ hsplit => absurd hsplit.symm (List.append_ne_nil_of_right_ne_nil _ (List.cons_ne_nil _ _))

theorem Fine.concat {before : List Event} {e : Event} (fine : Fine l before) (he : e.failure? l before = none) :
    Fine l (before ++ [e]) := by
  intro xs x ys hsplit
  rcases List.eq_nil_or_concat ys with rfl | ⟨zs, z, rfl⟩
  · obtain ⟨rfl, h⟩ := List.append_inj' hsplit rfl
    obtain rfl := List.singleton_inj.mp h
    exact he
  · -- the event stands before `e`
    have hsplit : before ++ [e] = (xs ++ x :: zs) ++ [z] := by simpa using hsplit
    obtain ⟨rfl, -⟩ := List.append_inj' hsplit rfl
    exact fine xs x zs rfl

theorem Fine.happen {before es : List Event} (fine : Fine l (before ++ es)) (later : List Event) :
    happen l before (es ++ later) = happen l (before ++ es) later := by
  induction es generalizing before with
  | nil => rw [List.nil_append, List.append_nil]
  | cons e es ih =>
    have hfirst := fine before e es rfl
    rw [List.append_cons] at fine ⊢
    rw [List.cons_append, ScriptScan.happen, hfirst]
    exact ih fine

theorem stops_happen {before : List Event} (fine : Fine l before) (es : List Event) :
    Stops l (before ++ es) (happen l before es).1 (happen l before es).2 := by
  induction es generalizing before with
  | nil =>
    rw [List.append_nil]
    exact .through fine
  | cons e es ih =>
    rw [happen]
    split
    · next failure hfails => exact .failing rfl fine hfails
    · next hnone =>
      rw [List.append_cons]
      exact ih (fine.concat hnone)

theorem stops_iff {es happened : List Event} {failure : Option Failure} :
    Stops l es happened failure ↔ happen l [] es = (happened, failure) := by
  constructor
  · intro h
    cases h with
    | through fine =>
      have hall : happen l [] (es ++ []) = happen l ([] ++ es) [] := Fine.happen fine []
      rwa [List.append_nil] at hall
    | @failing before e later _ split fine fails =>
      have hbefore : happen l [] (before ++ e :: later) = happen l ([] ++ before) (e :: later) :=
        Fine.happen fine _
      rw [split, hbefore, List.nil_append, happen, fails]
  · intro h
    have hstops : Stops l ([] ++ es) _ _ := stops_happen fine_nil es
    rwa [h] at hstops

theorem Stops.eq_none_iff {es happened : List Event} {failure : Option Failure}
    (h : Stops l es happened failure) : failure = none ↔ Fine l es := by
  cases h with
  | through fine => exact ⟨fun _ => fine, fun _ => rfl⟩
  | @failing before e later failure split _ fails =>
    refine ⟨nofun, ?_⟩
    intro fine
    rw [fine before e later split] at fails
    cases fails

/-- What would come after a failure makes no difference. -/
theorem Stops.of_happened {es others happened : List Event} {failure : Option Failure}
    (h : Stops l es happened failure) (hfailure : failure ≠ none) (hbegins : happened <+: others) :
    Stops l others happened failure := by
  cases h with
  | through => exact absurd rfl hfailure
  | @failing before e _ _ _ fine fails =>
    obtain ⟨rest, rfl⟩ := hbegins
    exact .failing (List.append_assoc ..) fine fails

end happen

/-! ## The events of a session -/

/-- Writes a part of a token or of the dialogue. -/
def Event.say (text : String) : Event := .write text (.output SinkFault.closed.message)

/-- Asks for a line. -/
def askEvents : List Event := [.say "> ", .flush]

/-- Writes a token. In JSON the line feed after it is a text of its own. -/
def tokenEvents (json : Bool) (t : Token) : List Event :=
  if json then [.write t.json (.json SinkFault.closed.message), .say "\n"] else [.say (t.display ++ "\n")]

/-- Reports the errors of a source. -/
def reportEvents (look : Look) (source : String) : List Event :=
  (scan source).diagnostics.map fun d => .report (d.reportLine look.color)

/-- Reports the errors of a source, lists its tokens, and only then fails if a report has been lost. -/
def answerEvents (look : Look) (source : String) : List Event :=
  reportEvents look source ++ (scan source).tokens.toList.flatMap (tokenEvents look.json) ++ [.settle]

/-- Reads a line, answers it and asks for the next. -/
def turnEvents (look : Look) (line : List UInt8) : List Event :=
  .read line :: match Utf8.decode? line with
    | none => []
    | some source => answerEvents look source ++ askEvents

/-- A whole session. -/
def sessionEvents (look : Look) (input : List UInt8) : List Event :=
  [.say "Xolog REPL\n", .say "------------------\n"] ++ askEvents ++ (lines input).flatMap (turnEvents look) ++
    [.say "\n"]

end ScriptScan
