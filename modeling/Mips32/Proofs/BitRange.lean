import Mathlib.Algebra.Group.Int.Defs
import Mathlib.Algebra.Group.Nat.Defs
import Mips32.BitRange

/-! # The bits of a range

    Reading a range moves its bits down, and PUTTING a number there moves the
    number up; the word in between is the one with all other bits cleared.  Sign
    extension by two shifts is the balanced remainder modulo the width.

    Main statements: `BitRange.toNat_read` and `signed_eq_bmod` say what is read
    in plain arithmetic, and `BitRange.put_eq_and` says when a number is what a
    word holds in a range. -/

namespace Mips32

/-- **SIGN EXTENSION IS A REMAINDER**: pushed up and shifted back, a value is the
    remainder modulo the width that lies closest to zero. -/
theorem signed_eq_bmod (value : Word) {width : Nat} (hpos : 0 < width) (hle : width ≤ 32) :
    signed value width = (value.toNat : Int).bmod (2 ^ width) := by
  have hup : 0 < 2 ^ (32 - width) := Nat.two_pow_pos _
  have heven : 2 ∣ 2 ^ width := ⟨2 ^ (width - 1), by rw [← Nat.pow_succ']; congr 1; omega⟩
  have hword : 2 ^ 32 = 2 ^ (32 - width) * 2 ^ width := by
    rw [← Nat.pow_add, Nat.sub_add_cancel hle]
  have hvalue : ((value.toNat <<< (32 - width) : Nat) : Int)
      = ((2 ^ (32 - width) : Nat) : Int) * (value.toNat : Int) := by
    rw [Nat.shiftLeft_eq, Nat.mul_comm, Int.natCast_mul]
  rw [signed, BitVec.toInt_sshiftRight, BitVec.toInt_shiftLeft, Int.shiftRight_eq_div_pow,
    hvalue, hword, Int.mod_bmod_mul_of_pos _ _ hup heven]
  exact Int.mul_ediv_cancel_left _ (by omega)

/-- Words that agree in a mask agree in each part of it, whatever else the masks
    hold. -/
theorem and_eq_and_of_or {w w' m n n' : Word} (h : w &&& (m ||| n) = w' &&& (m ||| n')) :
    w &&& m = w' &&& m := by
  have habsorb (v k : Word) : v &&& (m ||| k) &&& m = v &&& m := by
    apply BitVec.eq_of_getLsbD_eq
    intro i hi
    simp only [BitVec.getLsbD_and, BitVec.getLsbD_or]
    cases m.getLsbD i <;> simp
  rw [← habsorb w n, h, habsorb]

namespace BitRange

theorem toNat_mask (r : BitRange) : r.mask.toNat = 2 ^ r.width - 1 := by
  rw [mask, BitVec.toNat_setWidth_of_le r.width_le, BitVec.toNat_allOnes]

/-- **READING IS DIVISION WITH REMAINDER**: drop the bits below the range, keep
    as many as the range has. -/
theorem toNat_read (r : BitRange) (w : Word) :
    (r.read w).toNat = w.toNat / 2 ^ r.offset % 2 ^ r.width := by
  rw [read, BitVec.toNat_and, BitVec.toNat_ushiftRight, toNat_mask,
    Nat.and_two_pow_sub_one_eq_mod, Nat.shiftRight_eq_div_pow]

theorem toNat_read_lt (r : BitRange) (w : Word) : (r.read w).toNat < 2 ^ r.width := by
  rw [toNat_read]
  exact Nat.mod_lt _ (Nat.two_pow_pos _)

theorem read_emod (r : BitRange) (w : Word) :
    ((r.read w).toNat : Int) % 2 ^ r.width = (r.read w).toNat := by
  have hlt := toNat_read_lt r w
  have hcast : ((2 ^ r.width : Nat) : Int) = 2 ^ r.width := by simp
  rw [← hcast]
  exact Int.emod_eq_of_lt (by omega) (by omega)

/-- In two's complement a range holds the same number, up to its width. -/
theorem readSigned_emod (r : BitRange) (w : Word) :
    r.readSigned w % 2 ^ r.width = (r.read w).toNat := by
  have hcast : ((2 ^ r.width : Nat) : Int) = 2 ^ r.width := by simp
  rw [readSigned, signed_eq_bmod _ r.width_pos r.width_le, ← hcast, Int.bmod_emod, hcast]
  exact read_emod r w

/-- What a range holds in two's complement is what its own bits stand for there,
    on their own. -/
theorem readSigned_eq_toInt (r : BitRange) (w : Word) :
    r.readSigned w = ((r.read w).setWidth r.width).toInt := by
  rw [readSigned, signed_eq_bmod _ r.width_pos r.width_le, BitVec.toInt_eq_toNat_bmod,
    BitVec.toNat_setWidth, Nat.mod_eq_of_lt (toNat_read_lt r w)]

/-- The bits of a range, where they stand in a word. -/
def bits (r : BitRange) : Word := r.mask <<< r.offset

/-- The word that holds a number in a range, as far as it fits, and nothing
    else. -/
def put (r : BitRange) (v : Int) : Word := BitVec.ofInt 32 (v % 2 ^ r.width) <<< r.offset

theorem getLsbD_mask (r : BitRange) (i : Nat) : r.mask.getLsbD i = decide (i < r.width) := by
  have := r.width_le
  rw [mask, BitVec.getLsbD_setWidth, BitVec.getLsbD_allOnes]
  by_cases hi : i < r.width
  · simp [hi]
    omega
  · simp [hi]

/-- Moved up again, what was read of a word is the word without its other
    bits. -/
theorem read_shiftLeft (r : BitRange) (w : Word) : r.read w <<< r.offset = w &&& r.bits := by
  apply BitVec.eq_of_getLsbD_eq
  intro i hi
  by_cases hlow : i < r.offset
  · simp [bits, hlow]
  · have hback : r.offset + (i - r.offset) = i := by omega
    simp [read, bits, hlow, hi, hback]

/-- Moved down again, the bits of a range are what is read of it. -/
theorem read_eq_ushiftRight (r : BitRange) (w : Word) : r.read w = (w &&& r.bits) >>> r.offset := by
  apply BitVec.eq_of_getLsbD_eq
  intro i hi
  have hback : r.offset + i - r.offset = i := by omega
  have hfits := r.fits
  have hbit : (decide (i < r.width) : Bool)
      = (decide (r.offset + i < 32) && !decide (r.offset + i < r.offset) && decide (i < r.width)) := by
    by_cases h : i < r.width
    · simp [h]
      omega
    · simp [h]
  simp only [read, bits, BitVec.getLsbD_and, BitVec.getLsbD_ushiftRight, BitVec.getLsbD_shiftLeft,
    getLsbD_mask, hback, ← hbit]

theorem read_eq_of_and_eq {r : BitRange} {w w' : Word} (h : w &&& r.bits = w' &&& r.bits) :
    r.read w = r.read w' := by
  rw [read_eq_ushiftRight, h, ← read_eq_ushiftRight]

/-- **PUTTING BACK WHAT IS THERE**: a number that a word holds in a range, up to
    the width, is put there as the word with its other bits cleared. -/
theorem put_eq_and {r : BitRange} {v : Int} {w : Word}
    (h : v % 2 ^ r.width = (r.read w).toNat) : r.put v = w &&& r.bits := by
  rw [put, h, ← read_shiftLeft]
  simp

end BitRange

end Mips32
