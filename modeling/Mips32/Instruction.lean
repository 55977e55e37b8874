import Mips32.Fault
import Mips32.Opcode

/-! # Decoding one word

    A word at an address is an instruction exactly when the opcode tables have
    an entry for it.  Otherwise the fault tells where the lookup went: the
    opcode, and the second field if the family looks at one. -/

namespace Mips32

/-- A decoded instruction. -/
structure Instruction where
  /-- Where the word stands. -/
  address : Address
  /-- The word itself. -/
  word : Word
  /-- The operation. -/
  mnemonic : Mnemonic
  /-- The layout of the word. -/
  format : Format
  /-- The operands in assembler syntax, empty if there are none. -/
  operands : String
deriving DecidableEq, Repr

/-- The instruction as one line of assembler text. -/
def Instruction.text (i : Instruction) : String :=
  if i.operands = "" then i.mnemonic.name else i.mnemonic.name ++ " " ++ i.operands

/-- What one word, or the end of a broken stream, decodes to. -/
abbrev Item := Except Fault Instruction

/-- Decodes the word at an address. -/
def decode (w : Word) (address : Address) : Item :=
  match Descriptor.of? w with
  | some d =>
    .ok {
      address
      word := w
      mnemonic := d.mnemonic
      format := d.format
      operands := d.shape.text w }
  | none =>
    .error (.unrecognized address w w.opcode.toNat ((Family.of w).subField w))

/-- The text of an instruction, or the message of a fault. -/
def Item.text : Item → String
  | .ok i => i.text
  | .error e => e.message

end Mips32
