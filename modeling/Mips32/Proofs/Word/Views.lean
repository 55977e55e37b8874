import Mips32.Operand
import Mips32.Proofs.BitRange
import Mips32.Proofs.Word.Assignment

/-! # One word, three layouts

    The fields of a word are read in one way and the payloads of the other two
    layouts in another, by shifting and masking.  They are views of the SAME
    bits: a payload is made up of the fields that it overlaps, and a signed
    payload is its own bits in two's complement.

    Every view is brought down to what it keeps of the word's number, by division
    with remainder; that they fit together is then arithmetic.

    Main statement: `Word.views_agree`. -/

namespace Mips32.Word

/-! ## The payloads in plain arithmetic -/

theorem toNat_immediate (w : Word) : w.immediate.toNat = w.toNat % 2 ^ 16 := by
  rw [immediate, BitRange.toNat_read]
  show w.toNat / 2 ^ 0 % 2 ^ 16 = _
  rw [Nat.pow_zero, Nat.div_one]

theorem toNat_jumpField (w : Word) : w.jumpField.toNat = w.toNat % 2 ^ 26 := by
  rw [jumpField, BitRange.toNat_read]
  show w.toNat / 2 ^ 0 % 2 ^ 26 = _
  rw [Nat.pow_zero, Nat.div_one]

theorem toNat_code (w : Word) : w.code.toNat = w.toNat / 2 ^ 6 % 2 ^ 20 :=
  BitRange.toNat_read codeRange w

/-- The immediate with its sign is what its sixteen bits stand for. -/
theorem signedImmediate_eq_toInt (w : Word) :
    w.signedImmediate = (w.immediate.setWidth 16).toInt := immediateRange.readSigned_eq_toInt w

/-- Sixteen bits with a sign hold no more. -/
theorem signedImmediate_range (w : Word) :
    -0x8000 ≤ w.signedImmediate ∧ w.signedImmediate ≤ 0x7fff := by
  have hlow := BitVec.le_toInt (w.immediate.setWidth 16)
  have hhigh := BitVec.toInt_lt (x := w.immediate.setWidth 16)
  rw [← signedImmediate_eq_toInt] at hlow hhigh
  omega

/-- With its sign, the immediate is congruent to the word that it is taken from. -/
theorem signedImmediate_emod (w : Word) :
    w.signedImmediate % 2 ^ 16 = ((w.toNat % 2 ^ 16 : Nat) : Int) := by
  rw [← toNat_immediate]
  exact immediateRange.readSigned_emod w

/-! ## The jump target -/

/-- As an address, a jump target is the number that the 26 bits of its field
    stand for. -/
theorem toNat_jumpTarget (w : Word) :
    (w.jumpTarget.toNat : Int) = (w.jumpField.setWidth 26).toInt % 2 ^ 32 := by
  have hsigned : jumpRange.readSigned w = (w.jumpField.setWidth 26).toInt :=
    jumpRange.readSigned_eq_toInt w
  rw [jumpTarget, BitVec.toNat_ofInt, hsigned]
  exact Int.toNat_of_nonneg (Int.emod_nonneg _ (by decide))

/-- The sign of a jump is bit 25. -/
theorem getLsbD_sign (w : Word) : w.getLsbD 25 = decide (2 ^ 25 ≤ w.jumpField.toNat) := by
  rw [BitVec.getLsbD, Nat.testBit_eq_decide_div_mod_eq, decide_eq_decide, toNat_jumpField]
  omega

/-- **A JUMP TARGET IS SIGN EXTENDED**: below bit 25 it is the field itself, and
    with that bit set the six bits above the field are set too. -/
theorem toNat_jumpTarget_eq_add (w : Word) :
    w.jumpTarget.toNat = w.jumpField.toNat + if w.getLsbD 25 then 0xFC000000 else 0 := by
  have htarget := toNat_jumpTarget w
  have hlt : w.jumpField.toNat < 2 ^ 26 := jumpRange.toNat_read_lt w
  rw [BitVec.toInt_eq_toNat_cond, BitVec.toNat_setWidth, Nat.mod_eq_of_lt hlt] at htarget
  rw [getLsbD_sign]
  by_cases hsign : 2 ^ 25 ≤ w.jumpField.toNat
  · rw [if_neg (by omega)] at htarget
    rw [if_pos (decide_eq_true hsign)]
    omega
  · rw [if_pos (by omega)] at htarget
    rw [if_neg (by simpa using hsign)]
    omega

/-- The six bits above a jump field are bits that it does not have. -/
theorem jumpField_add_upper (w : Word) :
    w.jumpField + 0xFC000000 = w.jumpField ||| 0xFC000000 := by
  apply BitVec.add_eq_or_of_and_eq_zero
  rw [jumpField, BitRange.read, BitVec.and_assoc, show jumpRange.mask &&& 0xFC000000 = 0 from rfl]
  exact BitVec.and_zero

theorem jumpTarget_eq_or (w : Word) :
    w.jumpTarget = if w.getLsbD 25 then w.jumpField ||| 0xFC000000 else w.jumpField := by
  have hlt : w.jumpField.toNat < 2 ^ 26 := jumpRange.toNat_read_lt w
  have htarget := toNat_jumpTarget_eq_add w
  apply BitVec.eq_of_toNat_eq
  cases hsign : w.getLsbD 25 with
  | true =>
      rw [hsign, if_pos rfl] at htarget
      rw [if_pos rfl, ← jumpField_add_upper, BitVec.toNat_add, htarget]
      exact (Nat.mod_eq_of_lt (by omega)).symm
  | false =>
      rw [hsign] at htarget
      exact htarget

/-! ## All views -/

/-- **THE VIEWS OF A WORD AGREE**, whatever reads its fields, if that goes by where
    they stand.  The opcode and the jump field make up the word; the jump field is
    made up of two registers and the immediate, or of the code and the function;
    the immediate is made up of the three lowest fields.  With a sign, the
    immediate is congruent to itself without one and lies around zero, and the
    jump target is the jump field extended by copies of bit 25, which is the field
    in two's complement.  The registers are numbered as the fields say. -/
theorem views_agree {a : Accessors} (ha : a.Lawful) (w : Word) :
    w.toNat = a.get w .opcode * 2 ^ 26 + w.jumpField.toNat ∧
    w.jumpField.toNat = a.get w .rs * 2 ^ 21 + a.get w .rt * 2 ^ 16 + w.immediate.toNat ∧
    w.jumpField.toNat = w.code.toNat * 2 ^ 6 + a.get w .funct ∧
    w.immediate.toNat = a.get w .rd * 2 ^ 11 + a.get w .sa * 2 ^ 6 + a.get w .funct ∧
    (-2 ^ 15 ≤ w.signedImmediate ∧ w.signedImmediate < 2 ^ 15 ∧
      w.signedImmediate % 2 ^ 16 = w.immediate.toNat) ∧
    (w.jumpTarget = if w.getLsbD 25 then w.jumpField ||| 0xFC000000 else w.jumpField) ∧
    (w.jumpTarget.toNat = w.jumpField.toNat + if w.getLsbD 25 then 0xFC000000 else 0) ∧
    (w.jumpTarget.toNat : Int) = (w.jumpField.setWidth 26).toInt % 2 ^ 32 ∧
    (w.source.index.val = a.get w .rs ∧ w.target.index.val = a.get w .rt ∧
      w.destination.index.val = a.get w .rd) := by
  have hopcode : a.get w .opcode = w.opcode.toNat := ha.get_eq w .opcode
  have hrs : a.get w .rs = w.rs.toNat := ha.get_eq w .rs
  have hrt : a.get w .rt = w.rt.toNat := ha.get_eq w .rt
  have hrd : a.get w .rd = w.rd.toNat := ha.get_eq w .rd
  have hsa : a.get w .sa = w.sa.toNat := ha.get_eq w .sa
  have hfunct : a.get w .funct = w.funct.toNat := ha.get_eq w .funct
  have hrange : -2 ^ 15 ≤ w.signedImmediate ∧ w.signedImmediate < 2 ^ 15 := by
    rw [signedImmediate_eq_toInt]
    exact ⟨BitVec.le_toInt _, BitVec.toInt_lt⟩
  have hcongruent : w.signedImmediate % 2 ^ 16 = w.immediate.toNat :=
    immediateRange.readSigned_emod w
  rw [hopcode, hrs, hrt, hrd, hsa, hfunct]
  refine ⟨?_, ?_, ?_, ?_, ⟨hrange.1, hrange.2, hcongruent⟩, jumpTarget_eq_or w,
    toNat_jumpTarget_eq_add w, toNat_jumpTarget w, Register.index_ofField_setWidth w.rs,
    Register.index_ofField_setWidth w.rt, Register.index_ofField_setWidth w.rd⟩
  · rw [toNat_opcode, toNat_jumpField]
    omega
  · rw [toNat_jumpField, toNat_rs, toNat_rt, toNat_immediate]
    omega
  · rw [toNat_jumpField, toNat_code, toNat_funct]
    omega
  · rw [toNat_immediate, toNat_rd, toNat_sa, toNat_funct]
    omega

/-- A jump whose field has its top bit set, read by the decoder's accessors. -/
theorem views_agree_backward_jump :
    accessors.Lawful ∧
    (0x0BFFFFFD : Word).toNat
      = accessors.get 0x0BFFFFFD .opcode * 2 ^ 26 + (jumpField 0x0BFFFFFD).toNat ∧
    accessors.get 0x0BFFFFFD .opcode = 2 ∧
    (jumpTarget 0x0BFFFFFD).toNat = (jumpField 0x0BFFFFFD).toNat + 0xFC000000 ∧
    (source 0x0BFFFFFD).index.val = accessors.get 0x0BFFFFFD .rs := by
  obtain ⟨hword, -, -, -, -, -, htarget, -, hsource, -⟩ := views_agree accessors_lawful 0x0BFFFFFD
  exact ⟨accessors_lawful, hword, rfl, htarget, hsource⟩

end Mips32.Word
