-- SUMMARY: The ways in which a reporter is used, and what it is after some of them.
import ScriptScan.Scan

/-! # Uses of a reporter

A reporter lives longer than one scan. It is lent to a scan and comes back with what the scan has found, and
between scans it takes reports and diagnostics. -/

namespace ScriptScan

inductive Use where
  | report (line : Nat) (location message : String)
  | receive (d : Diagnostic)
  | scan (source : String)

namespace Use

/-- What a scan says besides its diagnostics. -/
structure Answer where
  tokens : Array Token
  /-- Whether the scan has found an error. -/
  erred : Bool
  deriving DecidableEq

variable {ρ : Type} [Reporter ρ]

/-- The reporter after one use, and the answer if that is a scan. -/
def on (r : ρ) : Use → ρ × Option Answer
  | .report line location message => (Reporter.report r line location message, none)
  | .receive d => (Reporter.receive r d, none)
  | .scan source =>
    let s := scanInto source (Lent.mk r)
    (s.reporter.owned, some ⟨s.tokens, s.erred⟩)

/-- The reporter after some uses. -/
def onAll (r : ρ) (us : List Use) : ρ := us.foldl (fun r u => (on r u).1) r

end Use

end ScriptScan
