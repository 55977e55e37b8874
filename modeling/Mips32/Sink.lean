import Mips32.Fault
import Mips32.Text.Utf8

/-! # Sinks — where bytes end up

    A sink accepts bytes, and may have room for only so many in total.  When
    something no longer fits it accepts what does, and REFUSES the rest: with a
    failure of its own, or by silently accepting nothing, which is a failure as
    well.  Writing nothing never fails.

    A refusal is final: a call that was merely interrupted is made again, so an
    interruption refuses nothing.  Flushing may fail whether there is room or
    not, and in any way. -/

namespace Mips32

/-- A failure for good. -/
structure Refusal extends Failure where
  final : kind ≠ .interrupted := by decide
deriving DecidableEq, Repr

/-- A sink for bytes. -/
structure Sink where
  /-- How many bytes still fit; any number if there is no limit. -/
  room : Option Nat := none
  /-- How the sink refuses what does not fit; silently if it says nothing. -/
  refusal : Option Refusal := none
  /-- How a flush fails, if it does. -/
  flushRefusal : Option Failure := none
  /-- What was accepted so far. -/
  accepted : Array UInt8 := #[]
  /-- How much was accepted at each flush, the first flush first. -/
  flushed : List Nat := []
deriving DecidableEq, Repr

/-- What a sink that was just opened takes: how much, and how it refuses more. -/
structure Limits where
  /-- How many bytes fit; any number if there is no limit. -/
  room : Option Nat := none
  /-- How what does not fit is refused; silently if nothing is said. -/
  refusal : Option Refusal := none
  /-- How a flush fails, if it does. -/
  flushRefusal : Option Failure := none
deriving DecidableEq, Repr

/-- An empty sink with these limits. -/
def Limits.sink (l : Limits) : Sink where
  room := l.room
  refusal := l.refusal
  flushRefusal := l.flushRefusal

/-- No write and no flush fails. -/
structure Limits.Free (l : Limits) : Prop where
  room : l.room = none
  flush : l.flushRefusal = none

namespace Sink

/-- How often the sink was flushed. -/
def flushes (s : Sink) : Nat := s.flushed.length

/-- The failure of a write that does not fit, in these words if the sink has none
    of its own. -/
def overflowSaying (s : Sink) (words : String) : Failure :=
  match s.refusal with
  | some refusal => refusal.toFailure
  | none => ⟨.writeZero, words⟩

/-- The failure of a write that does not fit. -/
def overflow (s : Sink) : Failure := s.overflowSaying "failed to write whole buffer"

/-- Writes bytes: as many as fit, and a failure if that is not all of them. -/
def write (s : Sink) (bytes : List UInt8) : Option Failure × Sink :=
  match s.room with
  | none => (none, { s with accepted := s.accepted ++ bytes })
  | some n =>
    (if bytes.length ≤ n then none else some s.overflow,
      { s with
        room := some (n - bytes.length)
        accepted := s.accepted ++ bytes.take n })

/-- Flushes. -/
def flush (s : Sink) : Option Failure × Sink :=
  (s.flushRefusal, { s with flushed := s.flushed ++ [s.accepted.size] })

end Sink

end Mips32
