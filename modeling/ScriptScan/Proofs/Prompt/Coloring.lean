-- SUMMARY: Color sets off the heading of each report, and changes nothing else in a session.
import ScriptScan.Proofs.Prompt.Episodes

/-!
# Sessions in color

A plain session and a colored one are the same session on two recordings. What is left to compare is a report in its
two looks, of which each is put together by itself.
-/

namespace ScriptScan

open Console (reports)

namespace Diagnostic

/-- The start of a report: the line that it is about, if it is about one, and the label. -/
def heading (d : Diagnostic) : String :=
  (match d.line with
    | some n => "[line " ++ n.repr ++ "] "
    | none => "") ++ d.category.label

/-- `d.Recolors plain colored`: the colored line is the plain one with the heading in bold and red. -/
def Recolors (d : Diagnostic) (plain colored : String) : Prop :=
  ∃ rest, plain = d.heading ++ (rest ++ "\n") ∧
    colored = "\x1b[1m" ++ "\x1b[31m" ++ d.heading ++ "\x1b[0m" ++ (rest ++ "\n")

theorem recolors_reportLine (d : Diagnostic) : d.Recolors (d.reportLine false) (d.reportLine true) := by
  refine ⟨(if d.location.isEmpty then "" else " " ++ d.location) ++ ": " ++ d.message, ?_, ?_⟩
  · cases hline : d.line <;>
      simp only [reportLine, display, heading, hline, Bool.false_eq_true, if_false, String.append_assoc]
  · cases hline : d.line <;> simp only [reportLine, colored, heading, hline, if_true, String.append_assoc]

end Diagnostic

theorem kept_foldl_receive (flushes color : Bool) (ds : List Diagnostic) :
    (ds.foldl Reporter.receive (Console.on (Sink.empty none flushes) color)).stream.kept.toList =
      bytes (reportText color ds) := by
  have hempty : Console.on (Sink.empty none flushes) color = .ofList color flushes [] := by
    rw [Sink.empty_eq_after]
    rfl
  have hreceived (earlier : List Diagnostic) :
      ds.foldl Reporter.receive (Console.ofList color flushes earlier) = .ofList color flushes (earlier ++ ds) := by
    induction ds generalizing earlier with
    | nil => rw [List.foldl_nil, List.append_nil]
    | cons d ds ih => rw [List.foldl_cons, (records_console color flushes).receive, ih, ← List.append_cons]
  rw [hempty, hreceived, List.nil_append]
  rfl

/-- A session whose error stream takes everything comes to the same end in color and without, with the same output
and the reports of the same diagnostics, those of the lines that it has scanned. Two consoles that receive the same
diagnostics write the same reports too. A report in color is the plain one with its heading in bold and red. -/
theorem converse_recolors (json : Bool) (input : List UInt8) (out : Sink) (flushes : Bool) :
    (let session (color : Bool) :=
      (Session.converse ⟨json, color⟩ input).runOn (⟨out, .empty none flushes⟩ : Streams Sink)
    (session true).1 = (session false).1 ∧ (session true).2.out = (session false).2.out ∧
      ∃ sources : List String, sources.map bytes <+: lines input ∧
        let ds := sources.flatMap fun source => (scan source).diagnostics
        ∀ color, (session color).2.err.kept.toList = bytes (String.join (ds.map (·.reportLine color)))) ∧
    (∀ (ds : List Diagnostic) (color : Bool),
      (ds.foldl Reporter.receive (Console.on (Sink.empty none flushes) color)).stream.kept.toList =
        bytes (String.join (ds.map (·.reportLine color)))) ∧
    ∀ d : Diagnostic, d.Recolors (d.reportLine false) (d.reportLine true) := by
  refine ⟨?_, fun ds color => kept_foldl_receive flushes color ds, Diagnostic.recolors_reportLine⟩
  intro session
  obtain ⟨failure, left, es, hbegins, hrun⟩ := exists_runOn_converse json input out
  have hsession (color : Bool) : session color =
      (failure, ⟨left, .after none flushes (bytes (reportText color (reports (es.flatMap Episode.entries))))⟩) := by
    have hsink := hrun (.sink flushes color)
    have hempty : (Recording.sink flushes color).holding [] = Sink.empty none flushes :=
      (Sink.empty_eq_after none flushes).symm
    rwa [hempty] at hsink
  refine ⟨?_, ?_, scanned es, hbegins, ?_⟩
  · rw [hsession, hsession]
  · rw [hsession, hsession]
  · intro ds color
    rw [hsession, reports_episodes]
    rfl

/-- The session stops at the line that is no text, and its report is all there is on the error stream. -/
example :
    let session (color : Bool) := (Session.converse ⟨false, color⟩ [0x40, 10, 0xFF]).runOn
      (⟨.empty none true, .empty none true⟩ : Streams Sink)
    (session true).1 = some (.input invalidText) ∧
      (session true).2.err.kept.toList =
        bytes "\x1b[1m\x1b[31m[line 1] Error\x1b[0m: Unexpected character: @\n" := by
  decide +kernel

end ScriptScan
