import Mips32.BitRange

/-! # General purpose registers

    There are 32 registers, numbered from zero, and five bits name each of them.
    A register is its number; the assembler's name comes from one list. -/

namespace Mips32

/-- A general purpose register, by its number. -/
structure Register where
  /-- The register's number. -/
  index : Fin 32
deriving DecidableEq, Repr

namespace Register

/-- The assembler's names in the order of the registers' numbers. -/
def names : List String :=
  ["zero", "at", "v0", "v1", "a0", "a1", "a2", "a3",
   "t0", "t1", "t2", "t3", "t4", "t5", "t6", "t7",
   "s0", "s1", "s2", "s3", "s4", "s5", "s6", "s7",
   "t8", "t9", "k0", "k1", "gp", "sp", "fp", "ra"]

/-- Whatever stands above the five lowest bits, these are the number of a
    register. -/
theorem toNat_field_lt (field : Word) : (field &&& 0b11111).toNat < 32 := by
  rw [BitVec.toNat_and]
  exact Nat.and_lt_two_pow field.toNat (n := 5) (by decide)

/-- The register that a field names.  Only its five lowest bits count. -/
def ofField (field : Word) : Register := ⟨(field &&& 0b11111).toNat, toNat_field_lt field⟩

theorem index_ofField (field : Word) : (ofField field).index.val = field.toNat % 32 := by
  show (field &&& 0b11111).toNat = _
  rw [BitVec.toNat_and]
  exact Nat.and_two_pow_sub_one_eq_mod field.toNat 5

/-- A field of five bits names the register with its own number. -/
@[simp] theorem index_ofField_setWidth (f : BitVec 5) :
    (ofField (f.setWidth 32)).index.val = f.toNat := by
  rw [index_ofField, BitVec.toNat_setWidth]
  omega

/-- The register's name without the sigil. -/
def name (r : Register) : String := names.get r.index

/-- The register as an operand. -/
def text (r : Register) : String := "$" ++ r.name

/-- The register's name with a capital first letter, as a heading has it. -/
def title (r : Register) : String := r.name.capitalize

/-- A number beyond the last register was asked for. -/
structure OutOfBounds where
  /-- The number. -/
  index : Nat
deriving DecidableEq, Repr

/-- The wording of a bad register number. -/
def OutOfBounds.message (e : OutOfBounds) : String :=
  "index out of bounds: the len is 32 but the index is " ++ toString e.index

/-- The name of the register with this number, if there is one. -/
def nameAt (index : Nat) : Except OutOfBounds String :=
  match names[index]? with
  | some n => .ok n
  | none => .error ⟨index⟩

end Register

end Mips32
