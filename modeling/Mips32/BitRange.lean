/-! # Bit ranges — slicing a 32-bit word

    A range is an offset and a width that FIT in 32 bits; the invariant is part
    of the type, so reading a range never fails.  Only building one from two
    numbers can fail, and it names which of the two is at fault.

    Main statement: `BitRange.of_eq_ok_iff` says which pairs of numbers make a
    range. -/

namespace Mips32

/-- A 32-bit machine word. -/
abbrev Word := BitVec 32

/-- Why a slice of a word cannot be taken. -/
inductive SliceFault
  /-- The width is zero or larger than a word. -/
  | width
  /-- The slice ends beyond the last bit. -/
  | outside
  /-- The sign bit would lie outside the word. -/
  | sign
deriving DecidableEq, Repr

/-- The wording of a slice fault. -/
def SliceFault.message : SliceFault → String
  | .width => "field width must be between 1 and 32 bits"
  | .outside => "field must fit in 32 bits"
  | .sign => "sign bit must lie within 32 bits"

/-- `width` bits of a word, counted upwards from bit `offset`. -/
structure BitRange where
  /-- The lowest bit of the range. -/
  offset : Nat
  /-- How many bits it has. -/
  width : Nat
  width_pos : 0 < width := by decide
  fits : offset + width ≤ 32 := by decide

namespace BitRange

/-- The range at `offset` of `width` bits.  The width is judged first. -/
def of (offset width : Nat) : Except SliceFault BitRange :=
  if hw : 0 < width ∧ width ≤ 32 then
    if ho : offset ≤ 32 - width then
      .ok { offset, width, width_pos := hw.1, fits := by omega }
    else .error .outside
  else .error .width

/-- A word whose lowest `width` bits are set. -/
def mask (r : BitRange) : Word := (BitVec.allOnes r.width).setWidth 32

/-- The bits of the range, moved down to bit zero. -/
def read (r : BitRange) (w : Word) : Word := (w >>> r.offset) &&& r.mask

theorem width_le (r : BitRange) : r.width ≤ 32 := by
  have := r.fits
  omega

/-- A pair of numbers is a range exactly when it has a bit and ends inside the
    word. -/
theorem of_eq_ok_iff {offset width : Nat} {r : BitRange} :
    of offset width = .ok r ↔
      0 < width ∧ offset + width ≤ 32 ∧ r.offset = offset ∧ r.width = width := by
  unfold of
  constructor
  · intro h
    split at h
    · split at h
      · cases h
        refine ⟨?_, ?_, rfl, rfl⟩ <;> omega
      · cases h
    · cases h
  · rintro ⟨hpos, hfits, rfl, rfl⟩
    rw [dif_pos ⟨hpos, by omega⟩, dif_pos (by omega)]

end BitRange

/-- The `width` bits of `word` from bit `offset` on, as a number. -/
def extract (word : Word) (offset width : Nat) : Except SliceFault Word :=
  (BitRange.of offset width).map (·.read word)

/-- The lowest `width` bits of `value` in two's complement: pushed up against
    the top of the word, then shifted back with copies of the sign bit. -/
def signed (value : Word) (width : Nat) : Int :=
  ((value <<< (32 - width)).sshiftRight (32 - width)).toInt

/-- `signed`, for the widths that leave a sign bit inside the word. -/
def signExtend (value : Word) (width : Nat) : Except SliceFault Int :=
  if 0 < width ∧ width ≤ 32 then .ok (signed value width) else .error .sign

/-- The bits of the range in two's complement. -/
def BitRange.readSigned (r : BitRange) (w : Word) : Int := signed (r.read w) r.width

end Mips32
