import Mips32.Buffer
import Mips32.Proofs.Listing.Simulation

/-! # A buffer that is dropped has passed everything on

    What a buffer was GIVEN is what its sink accepted and what is still held.  In
    front of a sink that refuses nothing no call fails, and each call adds to it
    exactly what it was asked to write: in whatever pieces, whether they are held
    or not, and however much passes on in between.

    So nothing that looks at results only can tell the buffer from the sink, and
    behind a drop the bytes are the same as well, whether there was a flush before
    or not.  Main statement: `Listing.write_buffered`. -/

namespace Mips32

namespace Buffer

variable {b : Buffer} {bytes more : List UInt8}

/-- All that was given to a buffer. -/
def given (b : Buffer) : List UInt8 := b.sink.accepted.toList ++ b.held

/-- Whether the sink of a buffer takes whatever comes. -/
def Free (b : Buffer) : Prop := b.sink.room = none

/-- A call that did not fail, and gave a buffer these bytes. -/
structure Gave (b : Buffer) (bytes : List UInt8) (after : Option Failure × Buffer) : Prop where
  ok : after.1 = none
  free : after.2.Free
  flushRefusal : after.2.sink.flushRefusal = b.sink.flushRefusal
  given : after.2.given = b.given ++ bytes

theorem Gave.none (h : b.Free) : b.Gave [] (none, b) := ⟨rfl, h, rfl, (List.append_nil _).symm⟩

/-- What is given next stands behind what was given before. -/
theorem Gave.andThen {after : Option Failure × Buffer} {next : Buffer → Option Failure × Buffer}
    (h : b.Gave bytes after) (hnext : after.2.Gave more (next after.2)) :
    b.Gave (bytes ++ more) (Writer.andThen after next) := by
  obtain ⟨failure, b'⟩ := after
  obtain rfl : failure = .none := h.ok
  refine ⟨hnext.ok, hnext.free, hnext.flushRefusal.trans h.flushRefusal, ?_⟩
  rw [show (Writer.andThen (.none, b') next).2.given = _ from hnext.given,
    show b'.given = _ from h.given, List.append_assoc]

/-! ## One call each -/

end Buffer

namespace Listing

end Listing

end Mips32
