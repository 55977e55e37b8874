import Mips32.Proofs.BitRange.Slices

/-! # Signs

    The lowest bits of a value, taken in two's complement, stand for the one number
    around zero that is congruent to the value: the HIGHEST of them counts against
    all the others.  Shifting up and back finds that number.  So do the remainder
    with a correction and the bits one by one, and each of them is compared with
    the number itself: `isSigned_iff`.

    On a machine the two shifts never go too far, and what lies between them is a
    word that is taken for a signed number.

    Main statement: `signExtend_outcome`. -/

namespace Mips32

/-- A number that the lowest `width` bits of another one stand for, if the highest
    of these is the sign. -/
structure IsSigned (value width : Nat) (n : Int) : Prop where
  low : -2 ^ (width - 1) ≤ n
  high : n < 2 ^ (width - 1)
  congruent : n % 2 ^ width = value % 2 ^ width

/-- What so many bits from bit `offset` on stand for: the lowest counts once, each
    other twice as much as the one below it. -/
def weighed (word : Word) (offset : Nat) : Nat → Nat
  | 0 => 0
  | count + 1 =>
    weighed word offset count + (word.getLsbD (offset + count)).toNat * 2 ^ count

/-- What the same bits stand for in two's complement: the highest counts as much,
    but against the others. -/
def twosComplement (word : Word) (offset : Nat) : Nat → Int
  | 0 => 0
  | count + 1 =>
    weighed word offset count - ((word.getLsbD (offset + count)).toNat * 2 ^ count : Nat)

variable {value width : Nat} {n : Int}

/-! ## One number -/

theorem two_pow_width (hpos : 0 < width) : (2 : Int) ^ width = 2 * 2 ^ (width - 1) := by
  obtain ⟨k, rfl⟩ : ∃ k, width = k + 1 := ⟨width - 1, by omega⟩
  rw [Nat.add_sub_cancel, Int.pow_succ, Int.mul_comm]

/-- **THERE IS ONE NUMBER** that the bits stand for: the balanced remainder. -/
theorem isSigned_iff (hpos : 0 < width) :
    IsSigned value width n ↔ n = (value : Int).bmod (2 ^ width) := by
  have hhalf := two_pow_width hpos
  have hcast : ((2 ^ width : Nat) : Int) = 2 ^ width := by simp
  constructor
  · rintro ⟨hlow, hhigh, hcongruent⟩
    have hself : n.bmod (2 ^ width) = n :=
      Int.bmod_eq_of_le_mul_two (by omega) (by omega)
    rw [← hself, ← Int.emod_bmod, hcast, hcongruent, ← hcast, Int.emod_bmod]
  · rintro rfl
    have hpow : 0 < 2 ^ width := Nat.two_pow_pos width
    have hlow := Int.le_bmod (x := (value : Int)) hpow
    have hhigh := Int.bmod_lt (x := (value : Int)) hpow
    refine ⟨by omega, by omega, ?_⟩
    rw [← hcast, Int.bmod_emod]

theorem IsSigned.unique {m : Int} (hpos : 0 < width) (h : IsSigned value width n)
    (h' : IsSigned value width m) : m = n :=
  ((isSigned_iff hpos).mp h').trans ((isSigned_iff hpos).mp h).symm

theorem IsSigned.of_mod_eq {value' : Nat} (h : IsSigned value width n)
    (hmod : value' % 2 ^ width = value % 2 ^ width) : IsSigned value' width n := by
  refine ⟨h.low, h.high, h.congruent.trans ?_⟩
  have hcast := congrArg (Nat.cast (R := Int)) hmod
  push_cast at hcast
  exact hcast.symm

/-- The two shifts come to this number. -/
theorem signExtend_eq_ok_iff (word : Word) (hpos : 0 < width) (hle : width ≤ 32) :
    signExtend word width = .ok n ↔ IsSigned word.toNat width n := by
  rw [isSigned_iff hpos, signExtend, if_pos ⟨hpos, hle⟩, signed_eq_bmod word hpos hle,
    Except.ok.injEq]
  exact eq_comm

/-- **WIDER IS THE SAME**: a number with a sign is read from more bits of itself as
    it is from the bits that it came from. -/
theorem IsSigned.widen {width' : Nat} (hpos : 0 < width) (h : IsSigned value width n)
    (hle : width ≤ width') (hword : width' ≤ 32) :
    IsSigned (BitVec.ofInt 32 n).toNat width' n := by
  have hgrow : 2 ^ (width - 1) ≤ 2 ^ (width' - 1) := Nat.pow_le_pow_right (by decide) (by omega)
  have hcast (k : Nat) : ((2 ^ k : Nat) : Int) = 2 ^ k := by simp
  have hlow := h.low
  have hhigh := h.high
  have hdvd : ((2 ^ width' : Nat) : Int) ∣ ((2 ^ 32 : Nat) : Int) :=
    Int.natCast_dvd_natCast.mpr (Nat.pow_dvd_pow 2 hword)
  refine ⟨?_, ?_, ?_⟩
  · have := hcast (width - 1)
    have := hcast (width' - 1)
    omega
  · have := hcast (width - 1)
    have := hcast (width' - 1)
    omega
  · rw [BitVec.toNat_ofInt, Int.toNat_of_nonneg (Int.emod_nonneg _ (by decide))]
    rw [hcast] at hdvd
    exact (Int.emod_emod_of_dvd n hdvd).symm

/-! ## Bit by bit -/

/-- **BITS ADD UP TO A SLICE**, as far as they are in the word. -/
theorem weighed_eq (word : Word) (offset : Nat) :
    ∀ count, weighed word offset count = word.toNat / 2 ^ offset % 2 ^ count := by
  intro count
  induction count with
  | zero =>
      rw [Nat.pow_zero, Nat.mod_one]
      rfl
  | succ count ih =>
      have hbit : (word.getLsbD (offset + count)).toNat
          = word.toNat / 2 ^ offset / 2 ^ count % 2 := by
        rw [← Nat.toNat_testBit, Nat.testBit_div_two_pow, Nat.add_comm count]
        rfl
      rw [weighed, ih, Nat.mod_pow_succ, hbit, Nat.mul_comm]

/-- Bits that are the same add up to the same. -/
theorem weighed_congr {word word' : Word} {offset : Nat} :
    ∀ count, (∀ i < count, word'.getLsbD (offset + i) = word.getLsbD (offset + i)) →
      weighed word' offset count = weighed word offset count := by
  intro count
  induction count with
  | zero =>
      intro _
      rfl
  | succ count ih =>
      intro hbits
      rw [weighed, weighed, hbits count (Nat.lt_succ_self count),
        ih fun i hi => hbits i (Nat.lt_succ_of_lt hi)]

/-- **THE HIGHEST BIT COUNTS AGAINST THE OTHERS**: to count it so takes the power of
    two away that lies above the bits. -/
theorem twosComplement_eq (word : Word) (offset : Nat) (hpos : 0 < width) :
    twosComplement word offset width = weighed word offset width
      - if word.getLsbD (offset + (width - 1)) then 2 ^ width else 0 := by
  obtain ⟨count, rfl⟩ : ∃ count, width = count + 1 := ⟨width - 1, by omega⟩
  have hdouble : (2 : Int) ^ (count + 1) = 2 * 2 ^ count := two_pow_width (Nat.succ_pos count)
  rw [Nat.add_sub_cancel, twosComplement, weighed, hdouble]
  cases word.getLsbD (offset + count) with
  | false => simp
  | true =>
      simp only [Bool.toNat_true, Nat.one_mul, if_true]
      push_cast
      omega

theorem isSigned_twosComplement (word : Word) (offset : Nat) (hpos : 0 < width) :
    IsSigned (word.toNat / 2 ^ offset) width (twosComplement word offset width) := by
  have hvalue := twosComplement_eq word offset hpos
  obtain ⟨count, rfl⟩ : ∃ count, width = count + 1 := ⟨width - 1, by omega⟩
  have hcast : ((2 ^ count : Nat) : Int) = 2 ^ count := by simp
  have hlt : weighed word offset count < 2 ^ count := by
    rw [weighed_eq]
    exact Nat.mod_lt _ (Nat.two_pow_pos count)
  have hbit : (word.getLsbD (offset + count)).toNat * 2 ^ count ≤ 2 ^ count := by
    cases word.getLsbD (offset + count) <;> simp
  refine ⟨?_, ?_, ?_⟩
  · rw [Nat.add_sub_cancel, twosComplement]
    omega
  · rw [Nat.add_sub_cancel, twosComplement]
    omega
  · have hmod : (weighed word offset (count + 1) : Int) % 2 ^ (count + 1)
        = (word.toNat / 2 ^ offset : Nat) % 2 ^ (count + 1) := by
      rw [weighed_eq]
      push_cast
      exact Int.emod_emod_of_dvd _ (Int.dvd_refl _)
    rw [hvalue, ← hmod]
    split
    · exact Int.sub_emod_right _ _
    · rw [Int.sub_zero]

/-! ## Signs on a machine -/

namespace Checked

/-- A word taken for a signed number, and that shifted towards bit zero by less
    than a word. -/
def shiftRightSigned (w count : Word) : Option Int :=
  if count < 32 then some (w.toInt >>> count.toNat) else none

/-- A sign, taken in steps each of which can go wrong. -/
def signExtend (value width : Word) : Option (Except SliceFault Int) :=
  if 0 < width ∧ width ≤ 32 then
    (sub 32 width).bind fun unused =>
      (shiftLeft value unused).bind fun top =>
        (shiftRightSigned top unused).map .ok
  else some (.error .sign)

/-- **NO SHIFT GOES TOO FAR**: on a machine a sign comes out as it does without
    bounds, whatever word the width is. -/
theorem signExtend_eq_some (value width : Word) :
    signExtend value width = some (Mips32.signExtend value width.toNat) := by
  by_cases hwidth : 0 < width ∧ width ≤ 32
  · have hpos : 0 < width.toNat := BitVec.lt_def.mp hwidth.1
    have hle : width.toNat ≤ 32 := BitVec.le_def.mp hwidth.2
    have hunused : ((32 : Word) - width).toNat = 32 - width.toNat :=
      BitVec.toNat_sub_of_le hwidth.2
    have hshift : (32 : Word) - width < 32 := by
      rw [BitVec.lt_def, hunused]
      show 32 - width.toNat < 32
      omega
    rw [signExtend, if_pos hwidth, sub, if_pos hwidth.2, Option.bind_some, shiftLeft,
      if_pos hshift, Option.bind_some, shiftRightSigned, if_pos hshift, hunused,
      Mips32.signExtend, if_pos ⟨hpos, hle⟩, signed, BitVec.toInt_sshiftRight]
    rfl
  · have hbad : ¬ (0 < width.toNat ∧ width.toNat ≤ 32) :=
      fun h => hwidth ⟨BitVec.lt_def.mpr h.1, BitVec.le_def.mpr h.2⟩
    rw [signExtend, if_neg hwidth, Mips32.signExtend, if_neg hbad]

end Checked

/-! ## All signs -/

theorem signExtend_eq_error_iff (word : Word) (fault : SliceFault) :
    signExtend word width = .error fault ↔ fault = .sign ∧ (width = 0 ∨ 32 < width) := by
  by_cases hwidth : 0 < width ∧ width ≤ 32
  · rw [signExtend, if_pos hwidth]
    refine iff_of_false nofun ?_
    rintro ⟨-, hbad⟩
    omega
  · rw [signExtend, if_neg hwidth, Except.error.injEq, eq_comm]
    refine ⟨fun h => ⟨h, by omega⟩, fun h => h.1⟩

/-- A slice and then its sign are the bits of the slice in two's complement. -/
theorem signExtend_of_extract {word field : Word} {offset : Nat}
    (h : extract word offset width = .ok field) :
    signExtend field width = .ok (twosComplement word offset width) := by
  rcases extract_cases word offset width with ⟨-, heq⟩ | ⟨-, -, heq⟩ | ⟨hwidth, -, v, heq, hvalue⟩
  · cases h.symm.trans heq
  · cases h.symm.trans heq
  · obtain rfl := Except.ok.inj (h.symm.trans heq)
    rw [signExtend_eq_ok_iff field (by omega) (by omega)]
    refine (isSigned_twosComplement word offset (by omega)).of_mod_eq ?_
    rw [hvalue, Nat.mod_mod]

/-- **WHAT BECOMES OF A SIGN.**  Only an impossible width has none.  Otherwise there
    is exactly one number around zero that is congruent to the value modulo the
    width, and that is the one: the remainder, less the modulus if the highest of
    the bits is set.  Bits above the width do not matter for it, and read from more
    bits of itself it stays the same.  A machine gets there without a shift by a
    word or more.  Of a slice it is what the bits of the slice stand for, if the
    highest of them counts against the others. -/
theorem signExtend_outcome (value : Word) (width : Nat) :
    ((∃ fault, signExtend value width = .error fault) ↔ width = 0 ∨ 32 < width) ∧
    (∀ fault, signExtend value width = .error fault →
      fault.message = "sign bit must lie within 32 bits") ∧
    (¬ (width = 0 ∨ 32 < width) →
      ∃ n, signExtend value width = .ok n ∧
        IsSigned value.toNat width n ∧ (∀ m, IsSigned value.toNat width m → m = n) ∧
        n = (value.toNat % 2 ^ width : Nat) - (if value.getLsbD (width - 1) then 2 ^ width else 0) ∧
        (∀ value' : Word, (∀ i < width, value'.getLsbD i = value.getLsbD i) →
          signExtend value' width = .ok n) ∧
        ∀ width', width ≤ width' → width' ≤ 32 →
          signExtend (BitVec.ofInt 32 n) width' = .ok n) ∧
    (∀ width : Word, Checked.signExtend value width = some (signExtend value width.toNat)) ∧
    (∀ offset field, extract value offset width = .ok field →
      signExtend field width = .ok (twosComplement value offset width)) ∧
    ∀ r : BitRange, r.readSigned value = twosComplement value r.offset r.width := by
  refine ⟨?_, ?_, ?_, Checked.signExtend_eq_some value, ?_, ?_⟩
  · constructor
    · rintro ⟨fault, hfault⟩
      exact ((signExtend_eq_error_iff value fault).mp hfault).2
    · intro hwidth
      exact ⟨.sign, (signExtend_eq_error_iff value .sign).mpr ⟨rfl, hwidth⟩⟩
  · intro fault hfault
    rw [((signExtend_eq_error_iff value fault).mp hfault).1]
    rfl
  · intro hwidth
    have hpos : 0 < width := by omega
    have hle : width ≤ 32 := by omega
    have hlow (word : Word) : weighed word 0 width = word.toNat % 2 ^ width := by
      rw [weighed_eq, Nat.pow_zero, Nat.div_one]
    have hsigned : IsSigned value.toNat width (twosComplement value 0 width) := by
      have hslice := isSigned_twosComplement value 0 hpos
      rwa [Nat.pow_zero, Nat.div_one] at hslice
    refine ⟨_, (signExtend_eq_ok_iff value hpos hle).mpr hsigned, hsigned,
      fun m => hsigned.unique hpos, ?_, ?_, ?_⟩
    · rw [twosComplement_eq value 0 hpos, hlow, Nat.zero_add]
    · intro value' hbits
      rw [signExtend_eq_ok_iff value' hpos hle]
      refine hsigned.of_mod_eq ?_
      rw [← hlow, ← hlow]
      refine weighed_congr width fun i hi => ?_
      rw [Nat.zero_add]
      exact hbits i hi
    · intro width' hgrow hword
      rw [signExtend_eq_ok_iff _ (by omega) hword]
      exact hsigned.widen hpos hgrow hword
  · intro offset field hfield
    exact signExtend_of_extract hfield
  · intro r
    have hread := signExtend_of_extract (extract_of_range r value)
    rw [signExtend, if_pos ⟨r.width_pos, r.width_le⟩] at hread
    exact Except.ok.inj hread

/-- A byte whose sign bit is set, below bits that do not matter: read as it is, from
    all of its own number, and out of the middle of a word. -/
theorem signExtend_outcome_byte :
    ¬ (8 = 0 ∨ 32 < 8) ∧ signExtend 0xABCDEF80 8 = .ok (-128) ∧
    ((∀ i < 8, (0x80 : Word).getLsbD i = (0xABCDEF80 : Word).getLsbD i) ∧
      signExtend 0x80 8 = .ok (-128)) ∧
    (8 ≤ 31 ∧ 31 ≤ 32 ∧ signExtend (BitVec.ofInt 32 (-128)) 31 = .ok (-128)) ∧
    (extract 0xABCDEF80 8 8 = .ok 0xEF ∧
      signExtend 0xEF 8 = .ok (twosComplement 0xABCDEF80 8 8) ∧
      twosComplement 0xABCDEF80 8 8 = -17) ∧
    (signExtend 0xABCDEF80 33 = .error .sign ∧
      SliceFault.message .sign = "sign bit must lie within 32 bits") := by
  obtain ⟨-, -, hsome, -, hslice, -⟩ := signExtend_outcome 0xABCDEF80 8
  have hwidth : ¬ (8 = 0 ∨ 32 < 8) := by decide
  obtain ⟨n, hn, -, -, hrule, hbits, hwiden⟩ := hsome hwidth
  obtain rfl : n = -128 := hrule.trans (by decide)
  have hsame : ∀ i < 8, (0x80 : Word).getLsbD i = (0xABCDEF80 : Word).getLsbD i := by decide
  have hextract : extract 0xABCDEF80 8 8 = .ok 0xEF := rfl
  exact ⟨hwidth, hn, ⟨hsame, hbits _ hsame⟩,
    ⟨by decide, by decide, hwiden 31 (by decide) (by decide)⟩,
    ⟨hextract, hslice 8 _ hextract, by decide⟩,
    ⟨rfl, (signExtend_outcome 0xABCDEF80 33).2.1 .sign rfl⟩⟩

end Mips32
