import Mathlib.Algebra.Group.Nat.Defs
import Mips32.Address

/-! # Address arithmetic

    The index of a word is cut to 32 bits before it is multiplied, and the
    product and the sum wrap.  All of that is harmless: the address is the base
    plus four for each word, MODULO the address space, and going on from an
    address is the same as counting on from the base.

    A quarter of the address space is as many words as there is room for: the
    address tells the index of a word up to that number, and no more. -/

namespace Mips32.Address

/-- **CUTTING THE INDEX IS HARMLESS**: the address of a word is the plain sum
    modulo the address space. -/
theorem toNat_word (base : Address) (i : Nat) :
    (base.word i).toNat = (base.toNat + 4 * i) % 2 ^ 32 := by
  have hfour : (4 : Address).toNat = 4 := rfl
  simp only [word, BitVec.toNat_add, BitVec.toNat_mul, BitVec.toNat_ofNat, hfour]
  omega

@[simp] theorem word_zero (base : Address) : base.word 0 = base := by
  simp [word]

/-- Counting on from the address of a word. -/
theorem word_word (base : Address) (i j : Nat) : (base.word i).word j = base.word (i + j) := by
  apply BitVec.eq_of_toNat_eq
  simp only [toNat_word]
  omega

/-- The words of a stream are as far off alignment as its base. -/
theorem toNat_word_mod_four (base : Address) (i : Nat) :
    (base.word i).toNat % 4 = base.toNat % 4 := by
  rw [toNat_word]
  omega

/-- **AN ADDRESS IS SHARED** exactly by the words whose distance is a whole number of
    times the words that there is room for. -/
theorem word_eq_word_iff (base : Address) (i j : Nat) :
    base.word i = base.word j ↔ i % 2 ^ 30 = j % 2 ^ 30 := by
  rw [← BitVec.toNat_inj, toNat_word, toNat_word]
  omega

end Mips32.Address
