/-! # Mnemonics

    The operation names of the instruction set, in the order of the opcode
    tables.  `nop` is the name of the all-zero word alone. -/

namespace Mips32

/-- The operation of an instruction. -/
inductive Mnemonic
  -- the all-zero word
  | nop
  -- selected by the function code, opcode zero
  | sll | srl | sra | sllv | srlv | srav | jr | jalr | syscall | brk | mfhi
  | mthi | mflo | mtlo | mult | multu | div | divu | add | addu | sub | subu
  | and | or | xor | nor | slt | sltu
  -- selected by the target field
  | bltz | bgez | tgei | tgeiu | tlti | tltiu | teqi | tnei | bltzal | bgezal
  -- selected by the function code, opcode 0x1c
  | madd | maddu | mul | msub | msubu | clz | clo
  -- selected by the opcode alone
  | j | jal | beq | bne | blez | bgtz | addi | addiu | slti | sltiu | andi
  | ori | xori | lui | llo | lhi | trap | lb | lh | lwl | lw | lbu | lhu | lwr
  | sb | sh | swl | sw | swr | ll | sc
deriving DecidableEq, Repr

/-- The operation as the assembler writes it. -/
def Mnemonic.name : Mnemonic → String
  | .nop => "nop"
  | .sll => "sll"
  | .srl => "srl"
  | .sra => "sra"
  | .sllv => "sllv"
  | .srlv => "srlv"
  | .srav => "srav"
  | .jr => "jr"
  | .jalr => "jalr"
  | .syscall => "syscall"
  | .brk => "break"
  | .mfhi => "mfhi"
  | .mthi => "mthi"
  | .mflo => "mflo"
  | .mtlo => "mtlo"
  | .mult => "mult"
  | .multu => "multu"
  | .div => "div"
  | .divu => "divu"
  | .add => "add"
  | .addu => "addu"
  | .sub => "sub"
  | .subu => "subu"
  | .and => "and"
  | .or => "or"
  | .xor => "xor"
  | .nor => "nor"
  | .slt => "slt"
  | .sltu => "sltu"
  | .bltz => "bltz"
  | .bgez => "bgez"
  | .tgei => "tgei"
  | .tgeiu => "tgeiu"
  | .tlti => "tlti"
  | .tltiu => "tltiu"
  | .teqi => "teqi"
  | .tnei => "tnei"
  | .bltzal => "bltzal"
  | .bgezal => "bgezal"
  | .madd => "madd"
  | .maddu => "maddu"
  | .mul => "mul"
  | .msub => "msub"
  | .msubu => "msubu"
  | .clz => "clz"
  | .clo => "clo"
  | .j => "j"
  | .jal => "jal"
  | .beq => "beq"
  | .bne => "bne"
  | .blez => "blez"
  | .bgtz => "bgtz"
  | .addi => "addi"
  | .addiu => "addiu"
  | .slti => "slti"
  | .sltiu => "sltiu"
  | .andi => "andi"
  | .ori => "ori"
  | .xori => "xori"
  | .lui => "lui"
  | .llo => "llo"
  | .lhi => "lhi"
  | .trap => "trap"
  | .lb => "lb"
  | .lh => "lh"
  | .lwl => "lwl"
  | .lw => "lw"
  | .lbu => "lbu"
  | .lhu => "lhu"
  | .lwr => "lwr"
  | .sb => "sb"
  | .sh => "sh"
  | .swl => "swl"
  | .sw => "sw"
  | .swr => "swr"
  | .ll => "ll"
  | .sc => "sc"

end Mips32
