import Mips32.Address
import Mips32.BitRange

/-! # Faults — why a word did not decode

    A word whose encoding is reserved is a fault of that word alone, and
    decoding goes on behind it.  A stream that ends inside a word, or that
    cannot be read, ENDS the decoding. -/

namespace Mips32

/-- The class of a failed read or write.  A call that was interrupted can be made
    again; no other class makes a difference to the decoder or the listing. -/
inductive FailureKind
  | other | unexpectedEof | permissionDenied | wouldBlock | timedOut | interrupted
  | writeZero
  /-- Any other class, told apart from the rest by a number. -/
  | unlisted (number : Nat)
deriving DecidableEq, Repr

/-- A failed read or write, in the words of whoever refused it. -/
structure Failure where
  /-- Its class. -/
  kind : FailureKind
  /-- Its wording. -/
  text : String
deriving DecidableEq, Repr

/-- Why there is no instruction where one was looked for. -/
inductive Fault
  /-- The encoding of the word is reserved.  `function` is the second field that
      the word's family looked at, if it looks at one. -/
  | unrecognized (address : Address) (word : Word) (opcode : Nat) (function : Option Nat)
  /-- The stream ended behind `available` bytes of a word. -/
  | truncated (address : Address) (available : Nat)
  /-- The stream could not be read. -/
  | unreadable (failure : Failure)
deriving DecidableEq, Repr

namespace Fault

/-- The second field in the wording of an unrecognized word. -/
def functionText : Option Nat → String
  | none => ""
  | some f => ", function " ++ Numeral.hexPadded 2 f

/-- The wording of a fault. -/
def message : Fault → String
  | .unrecognized address word opcode function =>
    "unrecognized instruction " ++ Numeral.hexPadded 8 word.toNat
      ++ " at " ++ Numeral.hex address.toNat
      ++ " (opcode " ++ Numeral.hexPadded 2 opcode ++ functionText function ++ ")"
  | .truncated address available =>
    "truncated instruction at " ++ Numeral.hex address.toNat
      ++ ": expected 4 bytes, found " ++ Numeral.decimal available
  | .unreadable failure => "failed to read instruction stream: " ++ failure.text

/-- Whether decoding can go on behind the fault. -/
def isRecoverable : Fault → Bool
  | .unrecognized .. => true
  | .truncated .. => false
  | .unreadable _ => false

end Fault

end Mips32
