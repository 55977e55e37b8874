import Mips32.Sink

/-! # Writers — what a listing is written to

    A writer takes bytes, all of them unless it fails, and can be flushed.  A
    sink is a writer, and so is a buffer in front of one: a listing does not know
    which of them it is written to. -/

namespace Mips32

/-- Something that can be written to. -/
class Writer (W : Type) where
  /-- Writes bytes, and says how that failed if it did. -/
  write : W → List UInt8 → Option Failure × W
  /-- Flushes. -/
  flush : W → Option Failure × W

instance : Writer Sink where
  write := Sink.write
  flush := Sink.flush

/-- The bytes of a line of text. -/
def Sink.lineBytes (line : String) : List UInt8 := Utf8.bytes (line ++ "\n")

/-- Writes a line to a sink. -/
def Sink.writeLine (s : Sink) (line : String) : Option Failure × Sink := s.write (lineBytes line)

namespace Writer

variable {W : Type}

/-- What is done next, unless what was done before failed. -/
def andThen (before : Option Failure × W) (next : W → Option Failure × W) : Option Failure × W :=
  match before with
  | (some failure, w) => (some failure, w)
  | (none, w) => next w

variable [Writer W]

/-- Writes a line. -/
def writeLine (w : W) (line : String) : Option Failure × W := write w (Sink.lineBytes line)

/-- Writes lines, up to the first that fails. -/
def writeLines (w : W) : List String → Option Failure × W
  | [] => (none, w)
  | line :: lines => andThen (writeLine w line) fun w => writeLines w lines

end Writer

end Mips32
