import Mips32.Register
import Mips32.Word
import Mips32.Text.Numeral

/-! # Operands in assembler syntax

    The operands of an instruction are written by its SHAPE: a fixed sequence
    of operands and punctuation.  Each operand takes its value from one place
    of the word, so a shape says which bits of a word its text shows. -/

namespace Mips32

namespace Word

/-- The source register. -/
def source (w : Word) : Register := .ofField (w.rs.setWidth 32)

/-- The target register. -/
def target (w : Word) : Register := .ofField (w.rt.setWidth 32)

/-- The destination register. -/
def destination (w : Word) : Register := .ofField (w.rd.setWidth 32)

end Word

/-- One operand, by where its value stands in the word and how it is written. -/
inductive Operand
  /-- The source register. -/
  | source
  /-- The target register. -/
  | target
  /-- The destination register. -/
  | destination
  /-- The shift amount, in decimal. -/
  | shiftAmount
  /-- The immediate with its sign, in hexadecimal. -/
  | signedImmediate
  /-- The immediate without a sign, in hexadecimal. -/
  | unsignedImmediate
  /-- The 20-bit code, in hexadecimal; zero is not written. -/
  | code
  /-- The sign-extended jump field as an address, in decimal. -/
  | jumpTarget
  /-- The 26-bit jump field, in hexadecimal. -/
  | jumpField
deriving DecidableEq, Repr

/-- The operand of a word in assembler syntax. -/
def Operand.text (o : Operand) (w : Word) : String :=
  match o with
  | .source => w.source.text
  | .target => w.target.text
  | .destination => w.destination.text
  | .shiftAmount => Numeral.decimal w.sa.toNat
  | .signedImmediate => Numeral.hexSigned w.signedImmediate
  | .unsignedImmediate => Numeral.hex w.immediate.toNat
  | .code => if w.code = 0 then "" else Numeral.hex w.code.toNat
  | .jumpTarget => Numeral.decimal w.jumpTarget.toNat
  | .jumpField => Numeral.hex w.jumpField.toNat

/-- A piece of an operand list. -/
inductive Piece
  /-- Punctuation. -/
  | mark (text : String)
  /-- An operand. -/
  | operand (operand : Operand)
deriving DecidableEq, Repr

/-- The piece as it is written for a word. -/
def Piece.text (p : Piece) (w : Word) : String :=
  match p with
  | .mark t => t
  | .operand o => o.text w

/-- The operand list of an instruction: which operands, and in which order. -/
inductive Shape
  /-- No operands at all. -/
  | empty
  /-- `rd, rt, sa` -/
  | shift
  /-- `rd, rt, rs` -/
  | shiftVariable
  /-- `rs` -/
  | jumpRegister
  /-- `rd, rs` -/
  | jumpLinkRegister
  /-- `rd` -/
  | moveFrom
  /-- `rs` -/
  | moveTo
  /-- `rs, rt` -/
  | sourceTarget
  /-- `rd, rs, rt` -/
  | destinationSourceTarget
  /-- `rd, rs` -/
  | destinationSource
  /-- The code of a system call or a breakpoint, unless it is zero. -/
  | code
  /-- `rs, rt, offset` -/
  | branch
  /-- `rs, offset` -/
  | branchZero
  /-- `rs, immediate` -/
  | trapImmediate
  /-- `rt, rs, immediate` with a sign. -/
  | arithmeticImmediate
  /-- `rt, rs, immediate` without a sign. -/
  | logicalImmediate
  /-- `rt, immediate` without a sign. -/
  | loadImmediate
  /-- `rt, offset(rs)` -/
  | memory
  /-- A jump target. -/
  | jump
  /-- A trap code. -/
  | trapCode
deriving DecidableEq, Repr

namespace Shape

/-- Operands with a comma and a space between them. -/
def commaSeparated (os : List Operand) : List Piece :=
  (os.map Piece.operand).intersperse (.mark ", ")

/-- The operand list of a shape, piece by piece. -/
def pieces : Shape → List Piece
  | .empty => []
  | .shift => commaSeparated [.destination, .target, .shiftAmount]
  | .shiftVariable => commaSeparated [.destination, .target, .source]
  | .jumpRegister => commaSeparated [.source]
  | .jumpLinkRegister => commaSeparated [.destination, .source]
  | .moveFrom => commaSeparated [.destination]
  | .moveTo => commaSeparated [.source]
  | .sourceTarget => commaSeparated [.source, .target]
  | .destinationSourceTarget => commaSeparated [.destination, .source, .target]
  | .destinationSource => commaSeparated [.destination, .source]
  | .code => commaSeparated [.code]
  | .branch => commaSeparated [.source, .target, .signedImmediate]
  | .branchZero => commaSeparated [.source, .signedImmediate]
  | .trapImmediate => commaSeparated [.source, .signedImmediate]
  | .arithmeticImmediate => commaSeparated [.target, .source, .signedImmediate]
  | .logicalImmediate => commaSeparated [.target, .source, .unsignedImmediate]
  | .loadImmediate => commaSeparated [.target, .unsignedImmediate]
  | .memory =>
    commaSeparated [.target, .signedImmediate]
      ++ [.mark "(", .operand .source, .mark ")"]
  | .jump => commaSeparated [.jumpTarget]
  | .trapCode => commaSeparated [.jumpField]

/-- The operands of a word, written in this shape. -/
def text (s : Shape) (w : Word) : String :=
  s.pieces.foldr (fun p rest => p.text w ++ rest) ""

end Shape

end Mips32
