-- SUMMARY: What a sink holds, as a function of all the bytes that have been written to it.
import ScriptScan.Output.Sink

/-! # Contents of sinks -/

namespace ScriptScan

/-- The bytes of a text. -/
def bytes (text : String) : List UInt8 := text.toUTF8.data.toList

theorem bytes_append (a b : String) : bytes (a ++ b) = bytes a ++ bytes b := by
  simp [bytes, String.toByteArray_append]

theorem bytes_injective {a b : String} (h : bytes a = bytes b) : a = b :=
  String.toByteArray_inj.mp (ByteArray.ext (Array.toList_inj.mp h))

/-- What a capacity leaves of some bytes. -/
def limited (capacity : Option Nat) (written : List UInt8) : List UInt8 :=
  match capacity with
  | some room => written.take room
  | none => written

/-- Some of `more` does not fit after `written`. -/
def overruns (capacity : Option Nat) (written more : List UInt8) : Bool :=
  match capacity with
  | some room => room - written.length < more.length
  | none => false

namespace Sink

variable (capacity : Option Nat) (flushes : Bool) (written : List UInt8)

/-- A sink to which some bytes have been written, as many as there may be. -/
def after : Sink where
  medium := match capacity with
    | some room => .bounded (room - written.length)
    | none => .unbounded
  flushes
  kept := (limited capacity written).toArray

theorem empty_eq_after : Sink.empty capacity flushes = after capacity flushes [] := by
  cases capacity <;> simp [empty, after, limited]

theorem write_after (text : String) :
    (after capacity flushes written).write text =
      (after capacity flushes (written ++ bytes text),
        if overruns capacity written (bytes text) then some .closed else none) := by
  cases capacity with
  | none => simp [write, after, limited, overruns, bytes]
  | some room =>
    have hkept : (limited (some room) written).toArray ++ text.toUTF8.data.take (room - written.length) =
        (limited (some room) (written ++ bytes text)).toArray := by
      simp [limited, bytes, List.take_append]
    have hroom : room - written.length - text.toUTF8.data.size = room - (written ++ bytes text).length := by
      simp [bytes, Nat.sub_sub]
    have hfault : (if text.toUTF8.data.size ≤ room - written.length then none else some SinkFault.closed) =
        if overruns (some room) written (bytes text) then some .closed else none := by
      simp only [overruns, decide_eq_true_eq, bytes, Array.length_toList, ← Nat.not_le, ite_not]
    simp only [write, after]
    rw [hkept, hroom, hfault]

theorem flush_after : (after capacity flushes written).flush = if flushes then none else some .flushFailed := by
  cases capacity <;> cases flushes <;> rfl

end Sink

end ScriptScan
