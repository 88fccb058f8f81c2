-- SUMMARY: Scans: from a source text to tokens, with lexical errors handed to a reporter on the way.
import ScriptScan.Source.Segment
import ScriptScan.Source.LexicalError
import ScriptScan.Report.Reporter

/-! # Scanning

A scan takes one segment after the other off the source. A segment is a token, or an error, or nothing.
An error never stops a scan: it is logged, handed to the reporter, and remembered. -/

namespace ScriptScan

/-! ## What a segment yields -/

inductive Yield where
  | nothing
  | token (kind : Kind) (literal : Literal)
  | error (e : LexicalError)
  deriving DecidableEq

namespace Segment

/-- The text of a segment as a string. -/
def lexeme (s : Segment) : String := String.ofList s.text

/-- What a segment yields. The literal of a string is what stands between its quotes. -/
def yield : Segment → Yield
  | .fixed kind => .token kind .none
  | .blank _ | .comment _ => .nothing
  | .string _ body _ => .token .string (.text (String.ofList body))
  | .number whole fraction =>
    match Decimal.read? (Segment.number whole fraction).text with
    | some value => .token .number (.number value.nearest)
    | none => .error (.invalidNumber (Segment.number whole fraction).lexeme)
  | .unexpected c => .error (.unexpectedCharacter c)
  | .unterminated _ _ => .error .unterminatedString

/-- The number of line feeds in a segment. -/
def lineFeeds (s : Segment) : Nat := s.text.count '\n'

end Segment

/-! ## Scans -/

/-- A scan under way, or a finished one. -/
structure Scan (ρ : Type) where
  /-- The source from the next segment on. -/
  rest : List Char
  /-- The line of the next segment, counted from 1. -/
  line : Nat
  tokens : Array Token
  /-- Whether there has been an error. -/
  erred : Bool
  reporter : ρ

namespace Scan

variable {ρ : Type} [Reporter ρ]

def start (source : String) (reporter : ρ) : Scan ρ := ⟨source.toList, 1, #[], false, reporter⟩

/-- Logs an error and hands it to the reporter. -/
def fail (s : Scan ρ) (e : LexicalError) (lexeme : String) : Scan ρ :=
  let d := e.diagnostic s.line
  let logged := Reporter.log s.reporter (.lexicalError d.message s.line lexeme d.code)
  { s with erred := true, reporter := Reporter.receive logged d }

/-- Takes a segment off the source, leaving `rest`. A segment counts for the line on which it ends. -/
def take (s : Scan ρ) (segment : Segment) (rest : List Char) : Scan ρ :=
  let s := { s with rest, line := s.line + segment.lineFeeds }
  match segment.yield with
  | .nothing => s
  | .token kind literal => { s with tokens := s.tokens.push ⟨kind, segment.lexeme, literal, s.line⟩ }
  | .error e => s.fail e segment.lexeme

@[simp] theorem rest_take (s : Scan ρ) (segment : Segment) (rest : List Char) :
    (s.take segment rest).rest = rest := by
  unfold take
  split <;> rfl

/-- Takes the next segment, if there is one. -/
def step (s : Scan ρ) : Scan ρ :=
  match s.rest with
  | [] => s
  | c :: cs =>
    let (segment, rest) := Segment.read c cs
    s.take segment rest

/-- Takes all segments. -/
def run (s : Scan ρ) : Scan ρ :=
  match _h : s.rest with
  | [] => s
  | _ :: _ => s.step.run
termination_by s.rest.length
decreasing_by
  rename_i c cs
  simp only [step, _h, rest_take, List.length_cons]
  exact Nat.lt_succ_of_le (Segment.length_read c cs)

/-- Marks the end of the source and logs that the scan is over. -/
def finish (s : Scan ρ) : Scan ρ :=
  let tokens := s.tokens.push (.endAt s.line)
  { s with tokens, reporter := Reporter.log s.reporter (.scanFinished tokens.size s.line s.erred) }

end Scan

/-! ## Whole scans -/

/-- Scans a source, handing its errors to a reporter. The last token is the end mark. -/
def scanInto {ρ : Type} [Reporter ρ] (source : String) (reporter : ρ) : Scan ρ :=
  (Scan.start source reporter).run.finish

/-- Scans a source, collecting its errors. -/
def scan (source : String) : Scan Collection := scanInto source .empty

/-- The diagnostics of a scan. -/
def Scan.diagnostics (s : Scan Collection) : List Diagnostic := s.reporter.diagnostics.toList

/-- The log records of a scan. -/
def scanRecords (source : String) : List Log.Record :=
  (scanInto source Journal.empty).reporter.records.toList

end ScriptScan
