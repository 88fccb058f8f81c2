-- SUMMARY: Output sinks that may fail, and what they have kept.

/-! # Sinks

A sink takes the bytes of a text and keeps what its medium accepts. A bounded medium keeps the first bytes up
to its capacity, in the middle of a text if need be, and fails from there on. A full device keeps nothing;
a line buffer in front of it hides that until a line ends or the buffer overflows. -/

namespace ScriptScan

/-- Why a sink failed. -/
inductive SinkFault where
  | closed
  | flushFailed
  | noSpace
  deriving DecidableEq

def SinkFault.message : SinkFault → String
  | .closed => "closed"
  | .flushFailed => "flush failed"
  | .noSpace => "No space left on device (os error 28)"

/-- Where the bytes go. -/
inductive Medium where
  | unbounded
  /-- Room for so many more bytes. -/
  | bounded (room : Nat)
  /-- A device without space, behind a line buffer that holds so many bytes. -/
  | full (held : Nat)
  deriving DecidableEq

structure Sink where
  medium : Medium
  flushes : Bool
  kept : Array UInt8
  deriving DecidableEq

namespace Sink

/-- A sink with an optional capacity that has kept nothing. -/
def empty (capacity : Option Nat) (flushes : Bool) : Sink :=
  ⟨match capacity with | some room => .bounded room | none => .unbounded, flushes, #[]⟩

/-- A full device. -/
def fullDevice : Sink := ⟨.full 0, true, #[]⟩

/-- The size of a line buffer. -/
def lineBuffer : Nat := 1024

/-- Writes a text. -/
def write (sink : Sink) (text : String) : Sink × Option SinkFault :=
  let bytes := text.toUTF8.data
  match sink.medium with
  | .unbounded => ({ sink with kept := sink.kept ++ bytes }, none)
  | .bounded room =>
    ({ sink with medium := .bounded (room - bytes.size), kept := sink.kept ++ bytes.take room },
      if bytes.size ≤ room then none else some .closed)
  | .full held =>
    if text.toList.contains '\n' || lineBuffer < held + bytes.size then (sink, some .noSpace)
    else ({ sink with medium := .full (held + bytes.size) }, none)

/-- Flushes what has been written. -/
def flush (sink : Sink) : Option SinkFault :=
  if !sink.flushes then some .flushFailed
  else match sink.medium with
    | .full (_ + 1) => some .noSpace
    | _ => none

end Sink

end ScriptScan
