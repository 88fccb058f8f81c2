-- SUMMARY: Scanning a source and listing its tokens on a sink.
import ScriptScan.Scan
import ScriptScan.Failure
import ScriptScan.Output.Sink

/-! # Token listings

Tokens are listed one to a line, for display or as JSON. The listing ends at the first fault. A fault inside
the JSON of a token is told apart from one on the line feed after it. -/

namespace ScriptScan

/-- Writes a text; a fault becomes the given failure. -/
def Sink.put (sink : Sink) (text : String) (failure : String → Failure) : Sink × Option Failure :=
  let (sink, fault) := sink.write text
  (sink, fault.map (failure ·.message))

/-- Writes one token and a line feed. -/
def Token.list (json : Bool) (t : Token) (out : Sink) : Sink × Option Failure :=
  if json then
    match out.put t.json .json with
    | (out, some failure) => (out, some failure)
    | (out, none) => out.put "\n" .output
  else out.put (t.display ++ "\n") .output

/-- Writes tokens up to the first failure. -/
def listTokens (json : Bool) : List Token → Sink → Sink × Option Failure
  | [], out => (out, none)
  | t :: ts, out =>
    match t.list json out with
    | (out, some failure) => (out, some failure)
    | (out, none) => listTokens json ts out

/-- What a listing leaves behind. -/
structure Listing (ρ : Type) where
  out : Sink
  reporter : ρ
  /-- Whether the source had errors, unless the listing failed. -/
  result : Except Failure Bool

/-- Scans a source, and then lists its tokens. -/
def listSource {ρ : Type} [Reporter ρ] (json : Bool) (source : String) (out : Sink) (reporter : ρ) :
    Listing ρ :=
  let s := scanInto source reporter
  match listTokens json s.tokens.toList out with
  | (out, some failure) => ⟨out, s.reporter, .error failure⟩
  | (out, none) => ⟨out, s.reporter, .ok s.erred⟩

end ScriptScan
