import Mathlib.Algebra.Group.Nat.Defs
import Mips32.Word

/-! # Fields in plain arithmetic

    A field is read by division with remainder, so a word is told apart by the
    numbers that its bits stand for.  The six fields lie side by side and fill
    the word: `eq_of_fields`. -/

namespace Mips32.Word

/-- A field holds what is left of the word above its offset, modulo its
    width. -/
theorem toNat_field (w : Word) (f : Field) :
    (w.field f).toNat = w.toNat / 2 ^ f.offset % 2 ^ f.width := by
  rw [field, BitVec.extractLsb'_toNat, Nat.shiftRight_eq_div_pow]

/-- The primary opcode is what stands above the other 26 bits. -/
theorem toNat_opcode (w : Word) : w.opcode.toNat = w.toNat / 2 ^ 26 := by
  have hlt : w.toNat / 2 ^ 26 < 2 ^ 6 := by
    have := w.isLt
    omega
  exact (toNat_field w .opcode).trans (Nat.mod_eq_of_lt hlt)

theorem toNat_funct (w : Word) : w.funct.toNat = w.toNat % 2 ^ 6 := by
  rw [show w.funct.toNat = _ from toNat_field w .funct]
  show w.toNat / 2 ^ 0 % 2 ^ 6 = _
  rw [Nat.pow_zero, Nat.div_one]

theorem toNat_rs (w : Word) : w.rs.toNat = w.toNat / 2 ^ 21 % 2 ^ 5 := toNat_field w .rs

theorem toNat_rt (w : Word) : w.rt.toNat = w.toNat / 2 ^ 16 % 2 ^ 5 := toNat_field w .rt

theorem toNat_rd (w : Word) : w.rd.toNat = w.toNat / 2 ^ 11 % 2 ^ 5 := toNat_field w .rd

theorem toNat_sa (w : Word) : w.sa.toNat = w.toNat / 2 ^ 6 % 2 ^ 5 := toNat_field w .sa

/-- **THE FIELDS MAKE UP THE WORD**, each of them at its own place. -/
theorem toNat_eq_fields (w : Word) :
    w.toNat = w.opcode.toNat * 2 ^ 26 + w.rs.toNat * 2 ^ 21 + w.rt.toNat * 2 ^ 16
      + w.rd.toNat * 2 ^ 11 + w.sa.toNat * 2 ^ 6 + w.funct.toNat := by
  rw [toNat_opcode, toNat_rs, toNat_rt, toNat_rd, toNat_sa, toNat_funct]
  omega

/-- Words that cannot be told apart by their fields are the same. -/
theorem eq_of_fields {w w' : Word} (h : ∀ f, w.field f = w'.field f) : w = w' := by
  apply BitVec.eq_of_toNat_eq
  rw [toNat_eq_fields w, toNat_eq_fields w', opcode, h .opcode, rs, h .rs, rt, h .rt, rd, h .rd,
    sa, h .sa, funct, h .funct]
  rfl

end Mips32.Word
