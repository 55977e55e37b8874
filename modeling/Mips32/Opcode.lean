import Mips32.Mnemonic
import Mips32.Operand

/-! # Opcode tables — which words are instructions

    The primary opcode selects one of four FAMILIES.  Three of them hand over
    to a second field of the word; the fourth is decided by the opcode alone.
    Each family lists its defined slots in ascending order, and a slot that is
    not listed is reserved.

    The all-zero word stands outside the tables: it would be a shift of the
    zero register by nothing, and is `nop`. -/

namespace Mips32

/-- The layout of an instruction word. -/
inductive Format
  /-- Three registers, a shift amount and a function code. -/
  | register
  /-- Two registers and a 16-bit immediate. -/
  | immediate
  /-- A 26-bit target. -/
  | jump
deriving DecidableEq, Repr

/-- The layout as a manual calls it. -/
def Format.name : Format → String
  | .register => "R-type"
  | .immediate => "I-type"
  | .jump => "J-type"

/-- What a table says about an instruction. -/
structure Descriptor where
  /-- The operation. -/
  mnemonic : Mnemonic
  /-- The layout of the word. -/
  format : Format
  /-- Which operands are written, and how. -/
  shape : Shape
deriving DecidableEq, Repr

/-- The descriptor of the all-zero word. -/
def Descriptor.nop : Descriptor := ⟨.nop, .register, .empty⟩

/-- The table that an instruction word is looked up in. -/
inductive Family
  /-- Opcode 0, selected by the function code. -/
  | special
  /-- Opcode 1, selected by the target field. -/
  | regImm
  /-- Opcode 0x1c, selected by the function code. -/
  | special2
  /-- Every other opcode, selected by itself. -/
  | primary
deriving DecidableEq, Repr

namespace Family

/-- The family of a word, by its primary opcode. -/
def of (w : Word) : Family :=
  if w.opcode = 0x00 then .special
  else if w.opcode = 0x01 then .regImm
  else if w.opcode = 0x1C then .special2
  else .primary

/-- The value that selects a slot of the family. -/
def selector : Family → Word → Nat
  | .special, w => w.funct.toNat
  | .regImm, w => w.rt.toNat
  | .special2, w => w.funct.toNat
  | .primary, w => w.opcode.toNat

/-- The value of the second field, where the family has one. -/
def subField (f : Family) (w : Word) : Option Nat :=
  match f with
  | .primary => none
  | _ => some (f.selector w)

/-- The defined slots, ascending. -/
def rows : Family → List (Nat × Descriptor)
  | .special =>
    [(0x00, ⟨.sll, .register, .shift⟩),
     (0x02, ⟨.srl, .register, .shift⟩),
     (0x03, ⟨.sra, .register, .shift⟩),
     (0x04, ⟨.sllv, .register, .shiftVariable⟩),
     (0x06, ⟨.srlv, .register, .shiftVariable⟩),
     (0x07, ⟨.srav, .register, .shiftVariable⟩),
     (0x08, ⟨.jr, .register, .jumpRegister⟩),
     (0x09, ⟨.jalr, .register, .jumpLinkRegister⟩),
     (0x0C, ⟨.syscall, .register, .code⟩),
     (0x0D, ⟨.brk, .register, .code⟩),
     (0x10, ⟨.mfhi, .register, .moveFrom⟩),
     (0x11, ⟨.mthi, .register, .moveTo⟩),
     (0x12, ⟨.mflo, .register, .moveFrom⟩),
     (0x13, ⟨.mtlo, .register, .moveTo⟩),
     (0x18, ⟨.mult, .register, .sourceTarget⟩),
     (0x19, ⟨.multu, .register, .sourceTarget⟩),
     (0x1A, ⟨.div, .register, .sourceTarget⟩),
     (0x1B, ⟨.divu, .register, .sourceTarget⟩),
     (0x20, ⟨.add, .register, .destinationSourceTarget⟩),
     (0x21, ⟨.addu, .register, .destinationSourceTarget⟩),
     (0x22, ⟨.sub, .register, .destinationSourceTarget⟩),
     (0x23, ⟨.subu, .register, .destinationSourceTarget⟩),
     (0x24, ⟨.and, .register, .destinationSourceTarget⟩),
     (0x25, ⟨.or, .register, .destinationSourceTarget⟩),
     (0x26, ⟨.xor, .register, .destinationSourceTarget⟩),
     (0x27, ⟨.nor, .register, .destinationSourceTarget⟩),
     (0x2A, ⟨.slt, .register, .destinationSourceTarget⟩),
     (0x2B, ⟨.sltu, .register, .destinationSourceTarget⟩)]
  | .regImm =>
    [(0x00, ⟨.bltz, .immediate, .branchZero⟩),
     (0x01, ⟨.bgez, .immediate, .branchZero⟩),
     (0x08, ⟨.tgei, .immediate, .trapImmediate⟩),
     (0x09, ⟨.tgeiu, .immediate, .trapImmediate⟩),
     (0x0A, ⟨.tlti, .immediate, .trapImmediate⟩),
     (0x0B, ⟨.tltiu, .immediate, .trapImmediate⟩),
     (0x0C, ⟨.teqi, .immediate, .trapImmediate⟩),
     (0x0E, ⟨.tnei, .immediate, .trapImmediate⟩),
     (0x10, ⟨.bltzal, .immediate, .branchZero⟩),
     (0x11, ⟨.bgezal, .immediate, .branchZero⟩)]
  | .special2 =>
    [(0x00, ⟨.madd, .register, .sourceTarget⟩),
     (0x01, ⟨.maddu, .register, .sourceTarget⟩),
     (0x02, ⟨.mul, .register, .destinationSourceTarget⟩),
     (0x04, ⟨.msub, .register, .sourceTarget⟩),
     (0x05, ⟨.msubu, .register, .sourceTarget⟩),
     (0x20, ⟨.clz, .register, .destinationSource⟩),
     (0x21, ⟨.clo, .register, .destinationSource⟩)]
  | .primary =>
    [(0x02, ⟨.j, .jump, .jump⟩),
     (0x03, ⟨.jal, .jump, .jump⟩),
     (0x04, ⟨.beq, .immediate, .branch⟩),
     (0x05, ⟨.bne, .immediate, .branch⟩),
     (0x06, ⟨.blez, .immediate, .branchZero⟩),
     (0x07, ⟨.bgtz, .immediate, .branchZero⟩),
     (0x08, ⟨.addi, .immediate, .arithmeticImmediate⟩),
     (0x09, ⟨.addiu, .immediate, .arithmeticImmediate⟩),
     (0x0A, ⟨.slti, .immediate, .arithmeticImmediate⟩),
     (0x0B, ⟨.sltiu, .immediate, .arithmeticImmediate⟩),
     (0x0C, ⟨.andi, .immediate, .logicalImmediate⟩),
     (0x0D, ⟨.ori, .immediate, .logicalImmediate⟩),
     (0x0E, ⟨.xori, .immediate, .logicalImmediate⟩),
     (0x0F, ⟨.lui, .immediate, .loadImmediate⟩),
     (0x18, ⟨.llo, .immediate, .loadImmediate⟩),
     (0x19, ⟨.lhi, .immediate, .loadImmediate⟩),
     (0x1A, ⟨.trap, .jump, .trapCode⟩),
     (0x20, ⟨.lb, .immediate, .memory⟩),
     (0x21, ⟨.lh, .immediate, .memory⟩),
     (0x22, ⟨.lwl, .immediate, .memory⟩),
     (0x23, ⟨.lw, .immediate, .memory⟩),
     (0x24, ⟨.lbu, .immediate, .memory⟩),
     (0x25, ⟨.lhu, .immediate, .memory⟩),
     (0x26, ⟨.lwr, .immediate, .memory⟩),
     (0x28, ⟨.sb, .immediate, .memory⟩),
     (0x29, ⟨.sh, .immediate, .memory⟩),
     (0x2A, ⟨.swl, .immediate, .memory⟩),
     (0x2B, ⟨.sw, .immediate, .memory⟩),
     (0x2E, ⟨.swr, .immediate, .memory⟩),
     (0x30, ⟨.ll, .immediate, .memory⟩),
     (0x38, ⟨.sc, .immediate, .memory⟩)]

/-- The descriptor in a slot, unless the slot is reserved. -/
def slot? (f : Family) (slot : Nat) : Option Descriptor := f.rows.lookup slot

end Family

/-- The descriptor of a word, unless its encoding is reserved. -/
def Descriptor.of? (w : Word) : Option Descriptor :=
  if w = 0 then some .nop
  else (Family.of w).slot? ((Family.of w).selector w)

end Mips32
