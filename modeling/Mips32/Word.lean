import Mips32.BitRange

/-! # Instruction words — the three layouts

    Every instruction is one word, laid out in one of three ways:

        R-type: opcode:6 rs:5 rt:5 rd:5 sa:5 funct:6
        I-type: opcode:6 rs:5 rt:5 immediate:16
        J-type: opcode:6 target:26

    The six R-type fields can be read and assigned one at a time; the payloads
    of the other two layouts OVERLAP them and are read through bit ranges. -/

namespace Mips32

/-- The fields of the R-type layout, lowest first. -/
inductive Field
  /-- Function code. -/
  | funct
  /-- Shift amount. -/
  | sa
  /-- Destination register. -/
  | rd
  /-- Target register. -/
  | rt
  /-- Source register, the base of a memory access. -/
  | rs
  /-- Primary opcode. -/
  | opcode
deriving DecidableEq, Repr

namespace Field

/-- The lowest bit of the field. -/
def offset : Field → Nat
  | .funct => 0
  | .sa => 6
  | .rd => 11
  | .rt => 16
  | .rs => 21
  | .opcode => 26

/-- How many bits the field has. -/
def width : Field → Nat
  | .funct => 6
  | .sa => 5
  | .rd => 5
  | .rt => 5
  | .rs => 5
  | .opcode => 6

/-- A word whose bits inside the field are set. -/
def mask (f : Field) : Word := (BitVec.allOnes f.width).setWidth 32 <<< f.offset

end Field

/-- A way to read and to assign the fields of words. -/
structure Accessors where
  /-- Reads a field. -/
  get : Word → Field → Nat
  /-- Assigns a value to a field. -/
  set : Word → Field → Nat → Word

/-- Accessors that go by where the fields stand: one is read from its bits and
    nothing else, and assigned by putting the lowest bits of the value there. -/
structure Accessors.Lawful (a : Accessors) : Prop where
  testBit_get : ∀ w f i,
    (a.get w f).testBit i = (decide (i < f.width) && w.getLsbD (f.offset + i))
  getLsbD_set : ∀ w f value i, i < 32 →
    (a.set w f value).getLsbD i
      = if f.offset ≤ i ∧ i < f.offset + f.width then value.testBit (i - f.offset)
        else w.getLsbD i

namespace Word

/-- What the field holds. -/
def field (w : Word) (f : Field) : BitVec f.width := w.extractLsb' f.offset f.width

/-- The word with the field replaced by the bits of `value` that fit; all other
    bits stay. -/
def assign (w : Word) (f : Field) (value : Nat) : Word :=
  (w &&& ~~~f.mask) ||| ((BitVec.ofNat 32 value <<< f.offset) &&& f.mask)

/-- The accessors of the decoder. -/
def accessors : Accessors where
  get w f := (w.field f).toNat
  set := assign

/-- The primary opcode. -/
def opcode (w : Word) : BitVec 6 := w.field .opcode

/-- The source register's number. -/
def rs (w : Word) : BitVec 5 := w.field .rs

/-- The target register's number. -/
def rt (w : Word) : BitVec 5 := w.field .rt

/-- The destination register's number. -/
def rd (w : Word) : BitVec 5 := w.field .rd

/-- The shift amount. -/
def sa (w : Word) : BitVec 5 := w.field .sa

/-- The function code. -/
def funct (w : Word) : BitVec 6 := w.field .funct

/-- Where an immediate operand stands. -/
def immediateRange : BitRange where
  offset := 0
  width := 16

/-- Where a jump carries its target. -/
def jumpRange : BitRange where
  offset := 0
  width := 26

/-- Where a system call or a breakpoint carries its code. -/
def codeRange : BitRange where
  offset := 6
  width := 20

/-- The 16-bit immediate, without a sign. -/
def immediate (w : Word) : Word := immediateRange.read w

/-- The 16-bit immediate in two's complement. -/
def signedImmediate (w : Word) : Int := immediateRange.readSigned w

/-- The 26-bit jump field. -/
def jumpField (w : Word) : Word := jumpRange.read w

/-- The jump field in two's complement, as an address: a field with its top bit
    set names an address whose six upper bits are set. -/
def jumpTarget (w : Word) : Word := BitVec.ofInt 32 (jumpRange.readSigned w)

/-- The 20-bit code of a system call or a breakpoint. -/
def code (w : Word) : Word := codeRange.read w

end Word

end Mips32
