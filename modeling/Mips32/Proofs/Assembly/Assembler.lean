import Mips32.Opcode
import Mips32.Proofs.BitRange
import Mips32.Proofs.Numeral

/-! # A reference assembler

    A line of assembler text is a name and, behind a space, the operands.  The
    name is looked up in the opcode tables, which give the opcode, the selector
    and the FORM of the operands; each operand is a number that is put in its
    place of the word.  Bits that nothing is put in are zero.

    Nothing here refers to how operands are written: places and forms are
    spelled out again, so that writing and reading can be compared. -/

namespace Mips32.Assembler

/-! ## Operands -/

/-- An argument of an instruction, by the place of the word that it is put in. -/
inductive Argument
  | rs
  | rt
  | rd
  | sa
  | immediate
  | code
  | target
deriving DecidableEq, Repr

/-- The lowest bit of an argument. -/
def Argument.offset : Argument → Nat
  | .rs => 21
  | .rt => 16
  | .rd => 11
  | .sa => 6
  | .immediate => 0
  | .code => 6
  | .target => 0

/-- How many bits an argument has. -/
def Argument.width : Argument → Nat
  | .rs => 5
  | .rt => 5
  | .rd => 5
  | .sa => 5
  | .immediate => 16
  | .code => 20
  | .target => 26

theorem Argument.width_pos (a : Argument) : 0 < a.width := by
  cases a <;> decide

theorem Argument.fits (a : Argument) : a.offset + a.width ≤ 32 := by
  cases a <;> decide

/-- The bits that an argument is put in. -/
def Argument.range (a : Argument) : BitRange := ⟨a.offset, a.width, a.width_pos, a.fits⟩

/-- The number of a register, by its name behind a dollar sign. -/
def register? : List Char → Option Int
  | '$' :: name => (Register.names.idxOf? (String.ofList name)).map fun n : Nat => (n : Int)
  | _ => none

/-- The number that the text of an argument stands for.  A code may be absent. -/
def Argument.number? (a : Argument) (cs : List Char) : Option Int :=
  match a with
  | .rs => register? cs
  | .rt => register? cs
  | .rd => register? cs
  | .sa => Numeral.integer? cs
  | .immediate => Numeral.integer? cs
  | .code => if cs = [] then some 0 else Numeral.integer? cs
  | .target => Numeral.integer? cs

/-! ## Operand lists -/

/-- A part of an operand list as it is read. -/
inductive Part
  /-- Punctuation, which has to stand there. -/
  | mark (text : String)
  /-- An argument. -/
  | read (argument : Argument)
deriving DecidableEq, Repr

/-- Operands with a comma and a space between them. -/
def commas (arguments : List Argument) : List Part :=
  (arguments.map Part.read).intersperse (.mark ", ")

/-- The operands of a shape in the order in which they are read. -/
def form : Shape → List Part
  | .empty => []
  | .shift => commas [.rd, .rt, .sa]
  | .shiftVariable => commas [.rd, .rt, .rs]
  | .jumpRegister => commas [.rs]
  | .jumpLinkRegister => commas [.rd, .rs]
  | .moveFrom => commas [.rd]
  | .moveTo => commas [.rs]
  | .sourceTarget => commas [.rs, .rt]
  | .destinationSourceTarget => commas [.rd, .rs, .rt]
  | .destinationSource => commas [.rd, .rs]
  | .code => commas [.code]
  | .branch => commas [.rs, .rt, .immediate]
  | .branchZero => commas [.rs, .immediate]
  | .trapImmediate => commas [.rs, .immediate]
  | .arithmeticImmediate => commas [.rt, .rs, .immediate]
  | .logicalImmediate => commas [.rt, .rs, .immediate]
  | .loadImmediate => commas [.rt, .immediate]
  | .memory => [.read .rt, .mark ", ", .read .immediate, .mark "(", .read .rs, .mark ")"]
  | .jump => commas [.target]
  | .trapCode => commas [.target]

/-- Whether an operand may go on with this character. -/
def isInner (c : Char) : Bool := c ∉ [',', ' ', '(', ')']

/-- Reads the parts of an operand list, the last of which has to end with the
    text, and puts all numbers in one word. -/
def parse : List Part → List Char → Option Word
  | [], [] => some 0
  | [], _ :: _ => none
  | .mark t :: parts, cs =>
    if t.toList.isPrefixOf cs then parse parts (cs.drop t.toList.length) else none
  | .read a :: parts, cs =>
    match a.number? (cs.takeWhile isInner), parse parts (cs.dropWhile isInner) with
    | some v, some w => some (a.range.put v ||| w)
    | _, _ => none

theorem parse_mark (t : String) (parts : List Part) (rest : List Char) :
    parse (.mark t :: parts) (t.toList ++ rest) = parse parts rest := by
  rw [parse, if_pos (List.isPrefixOf_iff_prefix.mpr (List.prefix_append ..)), List.drop_left]

theorem parse_read {a : Argument} {parts : List Part} {cs rest : List Char} {v : Int} {w : Word}
    (hin : ∀ c ∈ cs, isInner c = true) (hstop : ∀ c, rest.head? = some c → isInner c = false)
    (hv : a.number? cs = some v) (hw : parse parts rest = some w) :
    parse (.read a :: parts) (cs ++ rest) = some (a.range.put v ||| w) := by
  obtain ⟨htake, hdrop⟩ := takeWhile_of_boundary hin hstop
  rw [parse, htake, hdrop, hv, hw]

/-- The bits that the operands of a list are put in. -/
def bitsOf : List Part → Word
  | [] => 0
  | .mark _ :: parts => bitsOf parts
  | .read a :: parts => a.range.bits ||| bitsOf parts

/-! ## Instructions -/

/-- Where the primary opcode stands. -/
def opcodeRange : BitRange where
  offset := 26
  width := 6

/-- Where the field stands that selects a slot of a family. -/
def selectorRange : Family → BitRange
  | .special => { offset := 0, width := 6 }
  | .regImm => { offset := 16, width := 5 }
  | .special2 => { offset := 0, width := 6 }
  | .primary => opcodeRange

/-- The primary opcode of a slot. -/
def opcodeOf : Family → Nat → Nat
  | .special, _ => 0x00
  | .regImm, _ => 0x01
  | .special2, _ => 0x1C
  | .primary, slot => slot

/-- The word of a slot with all operands zero. -/
def base (f : Family) (slot : Nat) : Word :=
  opcodeRange.put (opcodeOf f slot) ||| (selectorRange f).put slot

/-- The bits that tell the slots of the tables apart. -/
def baseBits (f : Family) : Word := opcodeRange.bits ||| (selectorRange f).bits

/-- The rows of a family as the assembler needs them, by name. -/
def rowsOf (f : Family) : List (String × Word × Shape) :=
  f.rows.map fun row => (row.2.mnemonic.name, base f row.1, row.2.shape)

/-- All instructions by name, the all-zero word included. -/
def table : List (String × Word × Shape) :=
  ("nop", 0, .empty) :: (rowsOf .special ++ rowsOf .regImm ++ rowsOf .special2 ++ rowsOf .primary)

/-- The word that a line of assembler text stands for. -/
def assemble (text : String) : Option Word :=
  match table.lookup (String.ofList (text.toList.takeWhile (· ≠ ' '))) with
  | none => none
  | some (word, shape) =>
    (parse (form shape) ((text.toList.dropWhile (· ≠ ' ')).drop 1)).map (word ||| ·)

/-- The bits of a word that its text shows: the opcode and the selector by the
    name, the others by the operands. -/
def shown (w : Word) : Word :=
  match Descriptor.of? w with
  | none => 0
  | some d => baseBits (Family.of w) ||| bitsOf (form d.shape)

end Mips32.Assembler
