import Mips32.Text.Numeral
import Mips32.Text.Quoted

/-! # Addresses

    Words stand four bytes apart in a 32-bit address space, which WRAPS: the
    word behind the last one has address zero again.

    A user writes an address in decimal, or in hexadecimal behind `0x`. -/

namespace Mips32

/-- The address of a word. -/
abbrev Address := BitVec 32

namespace Address

/-- The address of the word with this index, counted from the one at `base`. -/
def word (base : Address) (index : Nat) : Address := base + BitVec.ofNat 32 index * 4

/-- Why a text is no address. -/
structure Fault where
  /-- The text. -/
  text : String
  /-- What is wrong with its digits. -/
  reason : Numeral.Fault
deriving DecidableEq, Repr

/-- The wording of a bad address, with the text in quotes. -/
def Fault.message (e : Fault) : String :=
  "invalid address " ++ Quoted.quote e.text ++ ": " ++ e.reason.message

/-- The number that a text writes, below the end of the address space. -/
def number : List Char → Except Numeral.Fault Nat
  | '0' :: 'x' :: cs => Numeral.read 16 0x100000000 cs
  | '0' :: 'X' :: cs => Numeral.read 16 0x100000000 cs
  | cs => Numeral.read 10 0x100000000 cs

/-- Reads an address. -/
def read (text : String) : Except Fault Address :=
  match number text.toList with
  | .ok n => .ok (BitVec.ofNat 32 n)
  | .error e => .error ⟨text, e⟩

end Address

end Mips32
