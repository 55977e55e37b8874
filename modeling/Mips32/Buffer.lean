import Mips32.Writer

/-! # Buffered writers — what stands in front of a sink

    A buffered writer HOLDS what it is given, and passes it on when more comes
    than it can hold, when it is flushed, and when it is dropped.  One that goes
    line by line passes on each line as it ends, too.

    A drop is the last chance of what is still held, and the only one if the
    buffer was not flushed.  That it fails is then told to nobody.

    What is written at once, such as a line, reaches the buffer in PIECES.  How it
    is cut is up to whoever formats it; only the pieces together are certain. -/

namespace Mips32

/-- A way to hand over bytes in pieces. -/
structure Pieces where
  /-- The pieces, the first one first. -/
  cut : List UInt8 → List (List UInt8)
  flatten_cut : ∀ bytes, (cut bytes).flatten = bytes

/-- The bytes up to and including the last line feed. -/
def wholeLines (bytes : List UInt8) : List UInt8 :=
  (bytes.reverse.dropWhile (· ≠ 0x0A)).reverse

/-- The bytes behind the last line feed. -/
def lineBegun (bytes : List UInt8) : List UInt8 :=
  (bytes.reverse.takeWhile (· ≠ 0x0A)).reverse

/-- A sink and the bytes that are held back from it. -/
structure Buffer where
  /-- How many bytes can be held. -/
  capacity : Nat
  /-- Whether each line is passed on as it ends. -/
  byLine : Bool
  /-- The pieces in which it is written to. -/
  pieces : Pieces
  /-- Where the bytes go. -/
  sink : Sink
  /-- The bytes that are held. -/
  held : List UInt8 := []

namespace Buffer

open Writer (andThen)

/-- Passes on all that is held.  What the sink does not accept is still held. -/
def drain (b : Buffer) : Option Failure × Buffer :=
  match b.sink.write b.held with
  | (none, sink) => (none, { b with sink, held := [] })
  | (some _, sink) =>
    (some (b.sink.overflowSaying "failed to write the buffered data"),
      { b with sink, held := b.held.drop (sink.accepted.size - b.sink.accepted.size) })

/-- Writes past what is held. -/
def writeThrough (b : Buffer) (bytes : List UInt8) : Option Failure × Buffer :=
  let (failure, sink) := b.sink.write bytes
  (failure, { b with sink })

/-- Holds more bytes, behind those that are held. -/
def hold (b : Buffer) (bytes : List UInt8) : Option Failure × Buffer :=
  (none, { b with held := b.held ++ bytes })

/-- Makes space for so many bytes, if there is not enough. -/
def makeSpace (b : Buffer) (n : Nat) : Option Failure × Buffer :=
  if b.capacity - b.held.length < n then b.drain else (none, b)

/-- Takes bytes.  As many as could be held at most are not held at all. -/
def take (b : Buffer) (bytes : List UInt8) : Option Failure × Buffer :=
  andThen (b.makeSpace bytes.length) fun b' =>
    if b.capacity ≤ bytes.length then b'.writeThrough bytes else b'.hold bytes

/-- Passes on whole lines, together with what is held in front of them. -/
def takeLines (b : Buffer) (bytes : List UInt8) : Option Failure × Buffer :=
  if b.held = [] then b.writeThrough bytes else andThen (b.take bytes) drain

/-- Passes on what is held, if it is whole lines. -/
def drainLines (b : Buffer) : Option Failure × Buffer :=
  if b.held.getLast? = some 0x0A then b.drain else (none, b)

/-- Takes bytes, line by line. -/
def takeByLine (b : Buffer) (bytes : List UInt8) : Option Failure × Buffer :=
  if wholeLines bytes = [] then andThen b.drainLines (·.take bytes)
  else andThen (b.takeLines (wholeLines bytes)) (·.take (lineBegun bytes))

/-- Takes pieces, up to the first that fails. -/
def pour (b : Buffer) : List (List UInt8) → Option Failure × Buffer
  | [] => (none, b)
  | piece :: pieces =>
    andThen (if b.byLine then b.takeByLine piece else b.take piece) (·.pour pieces)

/-- Writes bytes, piece by piece. -/
def write (b : Buffer) (bytes : List UInt8) : Option Failure × Buffer := b.pour (b.pieces.cut bytes)

/-- Passes on what is held, and flushes the sink. -/
def flush (b : Buffer) : Option Failure × Buffer :=
  andThen b.drain fun b =>
    let (failure, sink) := b.sink.flush
    (failure, { b with sink })

/-- Drops the buffer: what it holds is passed on, if the sink accepts it. -/
def drop (b : Buffer) : Sink := b.drain.2.sink

instance : Writer Buffer where
  write := write
  flush := flush

/-- The buffer of a file. -/
def file (pieces : Pieces) (sink : Sink) : Buffer where
  capacity := 8192
  byLine := false
  pieces
  sink

/-- The buffer of the standard output. -/
def standard (pieces : Pieces) (sink : Sink) : Buffer where
  capacity := 1024
  byLine := true
  pieces
  sink

end Buffer

end Mips32
