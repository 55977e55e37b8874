import Mips32.Word
import Mips32.Text.Numeral

/-! # Instruction words as text

    A word is shown as eight hexadecimal digits, or taken apart into its
    fields. -/

namespace Mips32.Word

/-- The word in eight hexadecimal digits. -/
def text (w : Word) : String := Numeral.hexPadded 8 w.toNat

/-- The fields of a word with their names, lowest first. -/
def fieldTexts (w : Word) : List String :=
  ["funct: " ++ Numeral.decimal w.funct.toNat,
   "sa: " ++ Numeral.decimal w.sa.toNat,
   "rd: " ++ Numeral.decimal w.rd.toNat,
   "rt: " ++ Numeral.decimal w.rt.toNat,
   "rs: " ++ Numeral.decimal w.rs.toNat,
   "opcode: " ++ Numeral.decimal w.opcode.toNat]

/-- The word and its fields, each in decimal. -/
def dump (w : Word) : String :=
  "InstructionWord \x7b "
    ++ ", ".intercalate (("<value>: " ++ Numeral.decimal w.toNat) :: w.fieldTexts)
    ++ " \x7d"

end Mips32.Word
