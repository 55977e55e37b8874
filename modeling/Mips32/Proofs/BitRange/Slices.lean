import Mathlib.Algebra.GroupWithZero.Nat
import Mips32.Proofs.BitRange

/-! # Slices of a word

    Whether a slice can be taken is decided by two numbers, the width first; what
    it holds is then division with remainder.  All else is arithmetic about that:
    slices side by side make up the bits that they cover, and a slice of a slice
    is a slice.

    The numbers have no bound here.  On a machine they are words themselves, a
    difference can fall below zero and a shift can be too far: `Checked` takes
    the same steps there and gives up at the first that goes wrong.  None does.

    Main statement: `extract_outcome`. -/

namespace Mips32

/-! ## One slice -/

/-- The wording of a fault tells which one it is. -/
theorem SliceFault.exists_message_iff {x : Except SliceFault Word} (e : SliceFault) :
    (∃ fault, x = .error fault ∧ fault.message = e.message) ↔ x = .error e := by
  have hinj (e' : SliceFault) (h : e'.message = e.message) : e' = e := by
    revert h
    cases e' <;> cases e <;> decide
  constructor
  · rintro ⟨fault, hx, hmessage⟩
    rw [hx, hinj fault hmessage]
  · intro h
    exact ⟨e, h, rfl⟩

section

variable {word : Word} {offset width : Nat}

theorem extract_of_width (h : width = 0 ∨ 32 < width) :
    extract word offset width = .error .width := by
  rw [extract, BitRange.of, dif_neg (by omega)]
  rfl

theorem extract_of_outside (hwidth : 0 < width ∧ width ≤ 32) (h : 32 < offset + width) :
    extract word offset width = .error .outside := by
  rw [extract, BitRange.of, dif_pos hwidth, dif_neg (by omega)]
  rfl

theorem extract_of_range (r : BitRange) (word : Word) :
    extract word r.offset r.width = .ok (r.read word) := by
  rw [extract, BitRange.of_eq_ok_iff.mpr ⟨r.width_pos, r.fits, rfl, rfl⟩]
  rfl

/-- **A SLICE THAT FITS CAN BE TAKEN**, and holds the bits above its offset up to
    its width. -/
theorem exists_extract (word : Word) (hpos : 0 < width) (hfits : offset + width ≤ 32) :
    ∃ v, extract word offset width = .ok v ∧
      v.toNat = word.toNat / 2 ^ offset % 2 ^ width := by
  let r : BitRange := ⟨offset, width, hpos, hfits⟩
  exact ⟨r.read word, extract_of_range r word, r.toNat_read word⟩

/-- **EVERY SLICE IS ONE OF THREE**: of no possible width, not inside the word, or
    a number. -/
theorem extract_cases (word : Word) (offset width : Nat) :
    ((width = 0 ∨ 32 < width) ∧ extract word offset width = .error .width) ∨
    (¬ (width = 0 ∨ 32 < width) ∧ 32 < offset + width ∧
      extract word offset width = .error .outside) ∨
    (¬ (width = 0 ∨ 32 < width) ∧ offset + width ≤ 32 ∧
      ∃ v, extract word offset width = .ok v ∧
        v.toNat = word.toNat / 2 ^ offset % 2 ^ width) := by
  by_cases hwidth : width = 0 ∨ 32 < width
  · exact .inl ⟨hwidth, extract_of_width hwidth⟩
  · by_cases hfits : offset + width ≤ 32
    · exact .inr (.inr ⟨hwidth, hfits, exists_extract word (by omega) hfits⟩)
    · exact .inr (.inl ⟨hwidth, by omega, extract_of_outside (by omega) (by omega)⟩)

theorem extract_eq_width_iff :
    extract word offset width = .error .width ↔ width = 0 ∨ 32 < width := by
  refine ⟨?_, extract_of_width⟩
  intro h
  rcases extract_cases word offset width with ⟨hwidth, -⟩ | ⟨-, -, heq⟩ | ⟨-, -, v, heq, -⟩
  · exact hwidth
  · cases h.symm.trans heq
  · cases h.symm.trans heq

theorem extract_eq_outside_iff :
    extract word offset width = .error .outside ↔
      ¬ (width = 0 ∨ 32 < width) ∧ 32 < offset + width := by
  refine ⟨?_, fun h => extract_of_outside (by omega) h.2⟩
  intro h
  rcases extract_cases word offset width with ⟨-, heq⟩ | ⟨hwidth, hend, -⟩ | ⟨-, -, v, heq, -⟩
  · cases h.symm.trans heq
  · exact ⟨hwidth, hend⟩
  · cases h.symm.trans heq

theorem exists_extract_iff :
    (∃ v, extract word offset width = .ok v ∧ v.toNat = word.toNat / 2 ^ offset % 2 ^ width) ↔
      ¬ (width = 0 ∨ 32 < width) ∧ offset + width ≤ 32 := by
  refine ⟨?_, fun h => exists_extract word (by omega) h.2⟩
  rintro ⟨v, h, -⟩
  rcases extract_cases word offset width with ⟨-, heq⟩ | ⟨-, -, heq⟩ | ⟨hwidth, hend, -⟩
  · cases h.symm.trans heq
  · cases h.symm.trans heq
  · exact ⟨hwidth, hend⟩

end

/-! ## Slices on a machine -/

namespace Checked

/-- A difference that is not below zero. -/
def sub (a b : Word) : Option Word := if b ≤ a then some (a - b) else none

/-- A shift towards the top by less than a word. -/
def shiftLeft (w count : Word) : Option Word :=
  if count < 32 then some (w <<< count.toNat) else none

/-- A shift towards bit zero by less than a word. -/
def shiftRight (w count : Word) : Option Word :=
  if count < 32 then some (w >>> count.toNat) else none

/-- As many bits as a slice has.  A whole word is a case of its own, for no shift
    leads there. -/
def mask (width : Word) : Option Word :=
  if width = 32 then some (BitVec.allOnes 32)
  else (shiftLeft 1 width).bind fun top => sub top 1

/-- A slice, taken in steps each of which can go wrong. -/
def extract (word offset width : Word) : Option (Except SliceFault Word) :=
  if 0 < width ∧ width ≤ 32 then
    (sub 32 width).bind fun last =>
      if offset ≤ last then
        (mask width).bind fun bits =>
          (shiftRight word offset).map fun low => .ok (low &&& bits)
      else some (.error .outside)
  else some (.error .width)

/-- The steps of a mask never go wrong: a whole word is not shifted, and below
    that there is a bit to take one from. -/
theorem mask_of_width (r : BitRange) {width : Word} (h : width.toNat = r.width) :
    mask width = some r.mask := by
  have hle := r.width_le
  by_cases hall : width = 32
  · have hwidth : r.width = 32 := by
      rw [← h, hall]
      rfl
    rw [mask, if_pos hall, Option.some.injEq]
    apply BitVec.eq_of_toNat_eq
    rw [BitVec.toNat_allOnes, BitRange.toNat_mask, hwidth]
  · have hlt : width < 32 := by
      have hne : width.toNat ≠ 32 := fun heq => hall (BitVec.eq_of_toNat_eq heq)
      exact BitVec.lt_def.mpr (show width.toNat < 32 by omega)
    have htop : ((1 : Word) <<< width.toNat).toNat = 2 ^ width.toNat :=
      BitVec.toNat_twoPow_of_lt (BitVec.lt_def.mp hlt)
    have hone : (1 : Word) ≤ (1 : Word) <<< width.toNat := by
      rw [BitVec.le_def, htop]
      exact Nat.two_pow_pos _
    rw [mask, if_neg hall, shiftLeft, if_pos hlt, Option.bind_some, sub, if_pos hone,
      Option.some.injEq]
    apply BitVec.eq_of_toNat_eq
    rw [BitVec.toNat_sub_of_le hone, htop, BitRange.toNat_mask, h]
    rfl

/-- **NO STEP GOES WRONG**: on a machine a slice comes out as it does without
    bounds, whatever words the offset and the width are. -/
theorem extract_eq_some (word offset width : Word) :
    extract word offset width = some (Mips32.extract word offset.toNat width.toNat) := by
  by_cases hwidth : 0 < width ∧ width ≤ 32
  · have hpos : 0 < width.toNat := BitVec.lt_def.mp hwidth.1
    have hle : width.toNat ≤ 32 := BitVec.le_def.mp hwidth.2
    have hlast : ((32 : Word) - width).toNat = 32 - width.toNat :=
      BitVec.toNat_sub_of_le hwidth.2
    rw [extract, if_pos hwidth, sub, if_pos hwidth.2, Option.bind_some]
    by_cases hoffset : offset ≤ 32 - width
    · have hfits : offset.toNat ≤ 32 - width.toNat := by
        rw [← hlast]
        exact BitVec.le_def.mp hoffset
      let r : BitRange := ⟨offset.toNat, width.toNat, hpos, by omega⟩
      have hshift : offset < 32 := BitVec.lt_def.mpr (show offset.toNat < 32 by omega)
      rw [if_pos hoffset, mask_of_width r rfl, Option.bind_some, shiftRight, if_pos hshift,
        show Mips32.extract word offset.toNat width.toNat = _ from extract_of_range r word]
      rfl
    · have hbeyond : ¬ offset.toNat ≤ 32 - width.toNat := by
        rw [← hlast]
        exact fun h => hoffset (BitVec.le_def.mpr h)
      rw [if_neg hoffset, extract_of_outside ⟨hpos, hle⟩ (by omega)]
  · have hbad : width.toNat = 0 ∨ 32 < width.toNat := by
      have hnot : ¬ (0 < width.toNat ∧ width.toNat ≤ 32) :=
        fun h => hwidth ⟨BitVec.lt_def.mpr h.1, BitVec.le_def.mpr h.2⟩
      omega
    rw [extract, if_neg hwidth, extract_of_width hbad]

end Checked

/-! ## Slices side by side -/

/-- The slices of these widths, each above the one before, from bit `offset`
    on. -/
def slices (word : Word) (offset : Nat) : List Nat → Except SliceFault (List Word)
  | [] => .ok []
  | width :: widths =>
    match extract word offset width with
    | .error fault => .error fault
    | .ok v => (slices word (offset + width) widths).map (v :: ·)

/-- What slices of these widths make up, each put where it was taken. -/
def placed (offset : Nat) : List Nat → List Word → Nat
  | width :: widths, v :: vs => v.toNat * 2 ^ offset + placed (offset + width) widths vs
  | _, _ => 0

/-- **SLICES MAKE UP WHAT THEY COVER**, however it is cut. -/
theorem placed_slices (word : Word) {widths : List Nat} (hpos : ∀ width ∈ widths, 1 ≤ width)
    {offset : Nat} (hfits : offset + widths.sum ≤ 32) :
    ∃ values, slices word offset widths = .ok values ∧ values.length = widths.length ∧
      placed offset widths values
        = word.toNat / 2 ^ offset % 2 ^ widths.sum * 2 ^ offset := by
  induction widths generalizing offset with
  | nil =>
      refine ⟨[], rfl, rfl, ?_⟩
      rw [List.sum_nil, Nat.pow_zero, Nat.mod_one, Nat.zero_mul]
      rfl
  | cons width widths ih =>
      rw [List.forall_mem_cons] at hpos
      rw [List.sum_cons] at hfits ⊢
      obtain ⟨v, hv, hvalue⟩ := exists_extract word hpos.1 (show offset + width ≤ 32 by omega)
      obtain ⟨values, hvalues, hlength, hplaced⟩ :=
        ih hpos.2 (show offset + width + widths.sum ≤ 32 by omega)
      refine ⟨v :: values, ?_, congrArg (· + 1) hlength, ?_⟩
      · rw [slices, hv, hvalues]
        rfl
      · -- the lowest slice is the remainder, the others are the quotient
        rw [placed, hplaced, hvalue, Nat.pow_add 2 width, Nat.mod_mul, Nat.pow_add,
          ← Nat.div_div_eq_div_mul, Nat.add_mul]
        congr 1
        rw [Nat.mul_comm (2 ^ width), Nat.mul_assoc, Nat.mul_comm (2 ^ width)]

/-! ## A slice of a slice -/

/-- **A SLICE OF A SLICE IS A SLICE**. -/
theorem extract_extract (word : Word) {offset width offset' width' : Nat}
    (hfits : offset + width ≤ 32) (hpos : 1 ≤ width') (hinner : offset' + width' ≤ width) :
    ∃ v u, extract word offset width = .ok v ∧ extract v offset' width' = .ok u ∧
      extract word (offset + offset') width' = .ok u := by
  obtain ⟨v, hv, hvalue⟩ := exists_extract word (show 0 < width by omega) hfits
  obtain ⟨u, hu, huvalue⟩ := exists_extract v hpos (show offset' + width' ≤ 32 by omega)
  obtain ⟨t, ht, htvalue⟩ :=
    exists_extract word hpos (show offset + offset' + width' ≤ 32 by omega)
  have hsplit : 2 ^ width = 2 ^ offset' * 2 ^ (width - offset') := by
    rw [← Nat.pow_add]
    congr 1
    omega
  have hdvd : 2 ^ width' ∣ 2 ^ (width - offset') := Nat.pow_dvd_pow 2 (by omega)
  have heq : u = t := by
    apply BitVec.eq_of_toNat_eq
    rw [huvalue, htvalue, hvalue, hsplit, Nat.mod_mul_right_div_self, Nat.mod_mod_of_dvd _ hdvd,
      Nat.div_div_eq_div_mul, ← Nat.pow_add]
  exact ⟨v, u, hv, hu, heq ▸ ht⟩

/-! ## All slices -/

/-- **WHAT BECOMES OF A SLICE.**  An impossible width is told first, whatever the
    offset is; then that the slice ends outside the word, without a bound on the
    sum; otherwise there is a number, the word divided by one power of two modulo
    another.  A machine gets there without a shift by a word or more and without
    a difference below zero.  Widths that add up to a word cut it into slices that
    make it up again, and a slice of a slice is the slice that it looks like. -/
theorem extract_outcome (word : Word) :
    (∀ offset width : Nat,
      ((∃ fault, extract word offset width = .error fault ∧
          fault.message = "field width must be between 1 and 32 bits") ↔
        width = 0 ∨ 32 < width) ∧
      ((∃ fault, extract word offset width = .error fault ∧
          fault.message = "field must fit in 32 bits") ↔
        ¬ (width = 0 ∨ 32 < width) ∧ 32 < offset + width) ∧
      ((∃ v, extract word offset width = .ok v ∧
          v.toNat = word.toNat / 2 ^ offset % 2 ^ width) ↔
        ¬ (width = 0 ∨ 32 < width) ∧ offset + width ≤ 32)) ∧
    (∀ offset width : Word,
      Checked.extract word offset width = some (extract word offset.toNat width.toNat)) ∧
    (∀ widths : List Nat, (∀ width ∈ widths, 1 ≤ width) → widths.sum = 32 →
      ∃ values, slices word 0 widths = .ok values ∧ values.length = widths.length ∧
        placed 0 widths values = word.toNat) ∧
    (∀ offset width offset' width' : Nat,
      offset + width ≤ 32 → 1 ≤ width' → offset' + width' ≤ width →
      ∃ v u, extract word offset width = .ok v ∧ extract v offset' width' = .ok u ∧
        extract word (offset + offset') width' = .ok u) := by
  refine ⟨?_, Checked.extract_eq_some word, ?_, ?_⟩
  · intro offset width
    exact ⟨(SliceFault.exists_message_iff .width).trans extract_eq_width_iff,
      (SliceFault.exists_message_iff .outside).trans extract_eq_outside_iff, exists_extract_iff⟩
  · intro widths hpos hsum
    obtain ⟨values, hvalues, hlength, hplaced⟩ :=
      placed_slices word hpos (show 0 + widths.sum ≤ 32 by omega)
    refine ⟨values, hvalues, hlength, ?_⟩
    rw [hplaced, hsum, Nat.pow_zero, Nat.div_one, Nat.mul_one]
    exact Nat.mod_eq_of_lt word.isLt
  · intro offset width offset' width' hfits hpos hinner
    exact extract_extract word hfits hpos hinner

/-- The fields of a load in a row, and a whole word in one slice; an offset that
    would wrap around to fit; the middle of the word in one step and in two. -/
theorem extract_outcome_load :
    (∀ width ∈ [6, 5, 5, 5, 5, 6], 1 ≤ width) ∧ [6, 5, 5, 5, 5, 6].sum = 32 ∧
    (∃ values, slices 0x8FBF0014 0 [6, 5, 5, 5, 5, 6] = .ok values ∧
      placed 0 [6, 5, 5, 5, 5, 6] values = 0x8FBF0014) ∧
    (∃ v, extract 0x8FBF0014 0 32 = .ok v ∧ v.toNat = 0x8FBF0014) ∧
    Checked.extract 0x8FBF0014 0xFFFFFFFF 1 = some (.error .outside) ∧
    (8 + 16 ≤ 32 ∧ 4 + 8 ≤ 16 ∧
      ∃ v u, extract 0x8FBF0014 8 16 = .ok v ∧ extract v 4 8 = .ok u ∧
        extract 0x8FBF0014 12 8 = .ok u) := by
  obtain ⟨hone, hmachine, hcut, hnested⟩ := extract_outcome 0x8FBF0014
  have hpos : ∀ width ∈ [6, 5, 5, 5, 5, 6], 1 ≤ width := by simp
  obtain ⟨values, hvalues, -, hplaced⟩ := hcut [6, 5, 5, 5, 5, 6] hpos rfl
  refine ⟨hpos, rfl, ⟨values, hvalues, hplaced⟩, (hone 0 32).2.2.mpr (by decide), ?_,
    by decide, by decide, hnested 8 16 4 8 (by decide) (by decide) (by decide)⟩
  rw [hmachine]
  rfl

end Mips32
