-- SUMMARY: Log filters: lists of directives, which choose the records that are written.
import ScriptScan.Log.Directive
import ScriptScan.Text.Pieces

/-! # Log filters

A filter is a list of directives separated by commas. Of the directives about a record the most specific one
decides, and of two equally specific ones the later. What no directive is about is written from the level of
errors up. -/

namespace ScriptScan.Log

/-- The directives of a filter, the ones given later further back. -/
abbrev Filter := List Directive

namespace Filter

/-- Reads a filter. Empty directives are passed over. -/
def read? (text : String) : Option Filter :=
  ((pieces ',' text.toList).filter (!·.isEmpty)).mapM Directive.read?

/-- The directive that decides about a record, `best` being the one so far. -/
def decisive (r : Record) (best : Directive) : Filter → Directive
  | [] => best
  | d :: ds => decisive r (if d.covers r && d.isAsSpecific best then d else best) ds

/-- Whether a record is written. -/
def enables (filter : Filter) (r : Record) : Bool :=
  r.level.rank ≤ (decisive r ⟨[], none, none, .error⟩ filter).level.rank

/-- The filter without a setting. It is about the scanner, and about nothing else that logs. -/
def standard (verbose : Bool) : Filter :=
  let level := if verbose then Level.debug else Level.warn
  [⟨"xolog_cli".toList, none, none, level⟩, ⟨"xolog_scanner".toList, none, none, level⟩]

/-- The filter for a setting. One that cannot be read counts as none. -/
def ofSetting (setting : Option String) (verbose : Bool) : Filter :=
  (setting.bind read?).getD (standard verbose)

end Filter

end ScriptScan.Log
