import Mips32.Instruction
import Mips32.Proofs.Word

/-! # Dispatch — exactly the encodings of the tables

    A slot of a family SELECTS a word by the word's opcode and, in the families
    that look at a second field, by that field; all other bits of the word are
    free.  A word that is not all zero decodes by the slot that selects it, and
    there is at most one.

    Main statement: `decode_recognizes`, the words that decode, what they decode
    to, and the fault of all others. -/

namespace Mips32

/-- A table without repeated keys is looked up by membership. -/
theorem lookup_eq_some_iff_mem {α β : Type} [BEq α] [LawfulBEq α] {rows : List (α × β)}
    (h : (rows.map Prod.fst).Nodup) {k : α} {b : β} :
    rows.lookup k = some b ↔ (k, b) ∈ rows := by
  rw [List.lookup_eq_some_iff]
  constructor
  · rintro ⟨before, after, rfl, -⟩
    simp
  · intro hmem
    obtain ⟨before, after, rfl⟩ := List.append_of_mem hmem
    refine ⟨before, after, rfl, ?_⟩
    intro row hrow
    rw [List.map_append, List.map_cons, List.nodup_append] at h
    have hne : row.1 ≠ k := h.2.2 row.1 (List.mem_map_of_mem hrow) k (List.mem_cons_self ..)
    simpa [bne_iff_ne] using hne.symm

namespace Family

/-- Whether the opcode and the second field of a word are those of a slot, in
    plain arithmetic. -/
def Selects (f : Family) (slot : Nat) (w : Word) : Prop :=
  match f with
  | .special => w.toNat / 2 ^ 26 = 0x00 ∧ w.toNat % 2 ^ 6 = slot
  | .regImm => w.toNat / 2 ^ 26 = 0x01 ∧ w.toNat / 2 ^ 16 % 2 ^ 5 = slot
  | .special2 => w.toNat / 2 ^ 26 = 0x1C ∧ w.toNat % 2 ^ 6 = slot
  | .primary => w.toNat / 2 ^ 26 = slot

/-- How many bits of a word its slot leaves free. -/
def freeBits : Family → Nat
  | .special => 20
  | .regImm => 21
  | .special2 => 20
  | .primary => 26

/-- The word of a slot with these free bits, lowest first. -/
def encode (f : Family) (slot : Nat) (free : BitVec f.freeBits) : Word :=
  match f with
  | .special => BitVec.ofNat 32 (slot + 2 ^ 6 * free.toNat)
  | .regImm =>
    BitVec.ofNat 32
      (0x01 * 2 ^ 26 + free.toNat / 2 ^ 16 * 2 ^ 21 + slot * 2 ^ 16 + free.toNat % 2 ^ 16)
  | .special2 => BitVec.ofNat 32 (0x1C * 2 ^ 26 + slot + 2 ^ 6 * free.toNat)
  | .primary => BitVec.ofNat 32 (slot * 2 ^ 26 + free.toNat)

/-- The second field that a word's opcode asks for, if it asks for one. -/
def dispatchField (w : Word) : Option Nat :=
  if w.toNat / 2 ^ 26 = 0x00 ∨ w.toNat / 2 ^ 26 = 0x1C then some (w.toNat % 2 ^ 6)
  else if w.toNat / 2 ^ 26 = 0x01 then some (w.toNat / 2 ^ 16 % 2 ^ 5)
  else none

/-! ## The tables -/

theorem nodup_slots (f : Family) : (f.rows.map Prod.fst).Nodup := by
  cases f <;> decide

/-- How many values the field of a family has. -/
def slots : Family → Nat
  | .special => 2 ^ 6
  | .regImm => 2 ^ 5
  | .special2 => 2 ^ 6
  | .primary => 2 ^ 6

theorem slot_lt_of_mem {f : Family} {row : Nat × Descriptor} (h : row ∈ f.rows) :
    row.1 < f.slots := by
  cases f with
  | special => exact (by decide : ∀ row ∈ rows .special, row.1 < 2 ^ 6) row h
  | regImm => exact (by decide : ∀ row ∈ rows .regImm, row.1 < 2 ^ 5) row h
  | special2 => exact (by decide : ∀ row ∈ rows .special2, row.1 < 2 ^ 6) row h
  | primary => exact (by decide : ∀ row ∈ rows .primary, row.1 < 2 ^ 6) row h

/-- **NO ROW IS UNREACHABLE**: the slots of the other families' opcodes are
    reserved in the table of the opcodes. -/
theorem opcode_of_mem_primary {row : Nat × Descriptor} (h : row ∈ rows .primary) :
    row.1 ≠ 0x00 ∧ row.1 ≠ 0x01 ∧ row.1 ≠ 0x1C :=
  (by decide : ∀ row ∈ rows .primary, row.1 ≠ 0x00 ∧ row.1 ≠ 0x01 ∧ row.1 ≠ 0x1C) row h

theorem slot?_eq_some_iff {f : Family} {slot : Nat} {d : Descriptor} :
    f.slot? slot = some d ↔ (slot, d) ∈ f.rows :=
  lookup_eq_some_iff_mem f.nodup_slots

/-! ## The slot that selects a word -/

theorem of_eq (w : Word) :
    Family.of w
      = if w.toNat / 2 ^ 26 = 0x00 then .special
        else if w.toNat / 2 ^ 26 = 0x01 then .regImm
        else if w.toNat / 2 ^ 26 = 0x1C then .special2
        else .primary := by
  have hopcode (n : Nat) (hn : n < 2 ^ 6) : w.opcode = BitVec.ofNat 6 n ↔ w.toNat / 2 ^ 26 = n := by
    rw [← Word.toNat_opcode, ← BitVec.toNat_inj, BitVec.toNat_ofNat, Nat.mod_eq_of_lt hn]
  simp only [Family.of, ← hopcode 0x00 (by decide), ← hopcode 0x01 (by decide),
    ← hopcode 0x1C (by decide)]
  rfl

theorem selects_self (w : Word) : (Family.of w).Selects ((Family.of w).selector w) w := by
  rw [of_eq]
  split
  · rename_i h
    exact ⟨h, (Word.toNat_funct w).symm⟩
  · split
    · rename_i h
      exact ⟨h, (Word.toNat_rt w).symm⟩
    · split
      · rename_i h
        exact ⟨h, (Word.toNat_funct w).symm⟩
      · exact (Word.toNat_opcode w).symm

/-- **ONE SLOT AT MOST**: a defined slot that selects a word is the one that the
    word is looked up in. -/
theorem of_selects {f : Family} {row : Nat × Descriptor} {w : Word} (hrow : row ∈ f.rows)
    (h : f.Selects row.1 w) : Family.of w = f ∧ f.selector w = row.1 := by
  rw [of_eq]
  cases f with
  | special =>
      obtain ⟨hopcode, hfunct⟩ := h
      exact ⟨if_pos hopcode, (Word.toNat_funct w).trans hfunct⟩
  | regImm =>
      obtain ⟨hopcode, hrt⟩ := h
      rw [hopcode]
      exact ⟨rfl, (Word.toNat_rt w).trans hrt⟩
  | special2 =>
      obtain ⟨hopcode, hfunct⟩ := h
      rw [hopcode]
      exact ⟨rfl, (Word.toNat_funct w).trans hfunct⟩
  | primary =>
      have hopcode : w.toNat / 2 ^ 26 = row.1 := h
      obtain ⟨hspecial, hregImm, hspecial2⟩ := opcode_of_mem_primary hrow
      rw [hopcode, if_neg hspecial, if_neg hregImm, if_neg hspecial2]
      exact ⟨rfl, (Word.toNat_opcode w).trans hopcode⟩

/-- The second field of a fault is the one that the family looked at. -/
theorem subField_of (w : Word) : (Family.of w).subField w = dispatchField w := by
  rw [of_eq, dispatchField]
  by_cases hspecial : w.toNat / 2 ^ 26 = 0x00
  · rw [if_pos hspecial, if_pos (Or.inl hspecial)]
    exact congrArg some (Word.toNat_funct w)
  · rw [if_neg hspecial]
    by_cases hregImm : w.toNat / 2 ^ 26 = 0x01
    · rw [if_pos hregImm, if_neg (by omega), if_pos hregImm]
      exact congrArg some (Word.toNat_rt w)
    · rw [if_neg hregImm]
      by_cases hspecial2 : w.toNat / 2 ^ 26 = 0x1C
      · rw [if_pos hspecial2, if_pos (Or.inr hspecial2)]
        exact congrArg some (Word.toNat_funct w)
      · rw [if_neg hspecial2, if_neg (by omega), if_neg hregImm]
        rfl

/-! ## The words of a slot -/

/-- What stands in the free bits of a word. -/
def freeOf (f : Family) (w : Word) : BitVec f.freeBits :=
  match f with
  | .special => BitVec.ofNat 20 (w.toNat / 2 ^ 6)
  | .regImm => BitVec.ofNat 21 (w.toNat / 2 ^ 21 % 2 ^ 5 * 2 ^ 16 + w.toNat % 2 ^ 16)
  | .special2 => BitVec.ofNat 20 (w.toNat / 2 ^ 6)
  | .primary => BitVec.ofNat 26 w.toNat

theorem encode_freeOf {f : Family} {slot : Nat} {w : Word} (h : f.Selects slot w) :
    f.encode slot (f.freeOf w) = w := by
  have hw := w.isLt
  apply BitVec.eq_of_toNat_eq
  cases f with
  | special =>
      obtain ⟨hopcode, hfunct⟩ := h
      simp only [encode, freeOf, freeBits, BitVec.toNat_ofNat]
      omega
  | regImm =>
      obtain ⟨hopcode, hrt⟩ := h
      -- the source register and the immediate stand side by side in the free bits
      have hpair (rs immediate : Nat) (hrs : rs < 2 ^ 5) (himmediate : immediate < 2 ^ 16) :
          (rs * 2 ^ 16 + immediate) % 2 ^ 21 / 2 ^ 16 = rs ∧
            (rs * 2 ^ 16 + immediate) % 2 ^ 21 % 2 ^ 16 = immediate := by
        omega
      obtain ⟨hrs, himmediate⟩ := hpair (w.toNat / 2 ^ 21 % 2 ^ 5) (w.toNat % 2 ^ 16)
        (Nat.mod_lt _ (by decide)) (Nat.mod_lt _ (by decide))
      have hlow : w.toNat / 2 ^ 16 / 2 ^ 5 = w.toNat / 2 ^ 21 := Nat.div_div_eq_div_mul ..
      have hhigh : w.toNat / 2 ^ 21 / 2 ^ 5 = w.toNat / 2 ^ 26 := Nat.div_div_eq_div_mul ..
      simp only [encode, freeOf, freeBits, BitVec.toNat_ofNat, hrs, himmediate]
      omega
  | special2 =>
      obtain ⟨hopcode, hfunct⟩ := h
      simp only [encode, freeOf, freeBits, BitVec.toNat_ofNat]
      omega
  | primary =>
      have hopcode : w.toNat / 2 ^ 26 = slot := h
      simp only [encode, freeOf, freeBits, BitVec.toNat_ofNat]
      omega

/-- A slot selects its words, whatever the free bits are. -/
theorem selects_encode {f : Family} {slot : Nat} (h : slot < f.slots)
    (free : BitVec f.freeBits) : f.Selects slot (f.encode slot free) := by
  cases f with
  | special =>
      have hfree : free.toNat < 2 ^ 20 := free.isLt
      have hslot : slot < 2 ^ 6 := h
      constructor <;> simp only [encode, BitVec.toNat_ofNat] <;> omega
  | regImm =>
      have hrs : free.toNat / 2 ^ 16 < 2 ^ 5 := by
        have hfree : free.toNat < 2 ^ 21 := free.isLt
        omega
      have himmediate : free.toNat % 2 ^ 16 < 2 ^ 16 := Nat.mod_lt _ (by decide)
      have hslot : slot < 2 ^ 5 := h
      simp only [Selects, encode, BitVec.toNat_ofNat]
      generalize free.toNat / 2 ^ 16 = rs at hrs ⊢
      generalize free.toNat % 2 ^ 16 = immediate at himmediate ⊢
      omega
  | special2 =>
      have hfree : free.toNat < 2 ^ 20 := free.isLt
      have hslot : slot < 2 ^ 6 := h
      constructor <;> simp only [encode, BitVec.toNat_ofNat] <;> omega
  | primary =>
      have hfree : free.toNat < 2 ^ 26 := free.isLt
      have hslot : slot < 2 ^ 6 := h
      simp only [Selects, encode, BitVec.toNat_ofNat]
      omega

/-- The all-zero word belongs to the first slot of the first family, and to no
    other defined one. -/
theorem encode_eq_zero_iff {f : Family} {row : Nat × Descriptor} (hrow : row ∈ f.rows)
    (free : BitVec f.freeBits) :
    f.encode row.1 free = 0 ↔ f = .special ∧ row.1 = 0 ∧ free = 0 := by
  constructor
  · intro hzero
    have hselects : f.Selects row.1 0 := hzero ▸ selects_encode (slot_lt_of_mem hrow) free
    obtain ⟨hfamily, hslot⟩ := of_selects hrow hselects
    obtain rfl : f = .special := hfamily.symm.trans (by decide)
    have hslot' : row.1 = 0 := hslot.symm
    have hfree : free.toNat < 2 ^ 20 := free.isLt
    have hsum : (row.1 + 2 ^ 6 * free.toNat) % 2 ^ 32 = 0 :=
      (BitVec.toNat_ofNat ..).symm.trans (congrArg BitVec.toNat hzero)
    refine ⟨rfl, hslot', BitVec.eq_of_toNat_eq ?_⟩
    show free.toNat = 0
    omega
  · rintro ⟨rfl, hslot, rfl⟩
    rw [hslot]
    rfl

/-- Whether a word is an encoding of a slot that is defined with this
    descriptor. -/
def Encodes (f : Family) (slot : Nat) (d : Descriptor) (w : Word) : Prop :=
  (slot, d) ∈ f.rows ∧ f.Selects slot w

theorem Encodes.unique {f f' : Family} {slot slot' : Nat} {d d' : Descriptor} {w : Word}
    (h : f.Encodes slot d w) (h' : f'.Encodes slot' d' w) : f = f' ∧ slot = slot' ∧ d = d' := by
  obtain ⟨hfamily, hslot⟩ := of_selects h.1 h.2
  obtain ⟨hfamily', hslot'⟩ := of_selects h'.1 h'.2
  obtain rfl : f = f' := hfamily.symm.trans hfamily'
  obtain rfl : slot = slot' := hslot.symm.trans hslot'
  have hd := slot?_eq_some_iff.mpr h.1
  rw [slot?_eq_some_iff.mpr h'.1] at hd
  exact ⟨rfl, rfl, (Option.some.inj hd).symm⟩

end Family

/-! ## Decoding -/

namespace Descriptor

/-- Apart from the all-zero word, a descriptor is found exactly for the encodings
    of its slots. -/
theorem of?_eq_some_iff {w : Word} (hw : w ≠ 0) {d : Descriptor} :
    of? w = some d ↔ ∃ f slot, Family.Encodes f slot d w := by
  rw [of?, if_neg hw, Family.slot?_eq_some_iff]
  constructor
  · intro hrow
    exact ⟨Family.of w, (Family.of w).selector w, hrow, Family.selects_self w⟩
  · rintro ⟨f, slot, hrow, hselects⟩
    obtain ⟨hfamily, hslot⟩ := Family.of_selects hrow hselects
    rw [hfamily, hslot]
    exact hrow

end Descriptor

theorem decode_of_some {w : Word} {d : Descriptor} (h : Descriptor.of? w = some d)
    (address : Address) :
    decode w address
      = .ok { address, word := w, mnemonic := d.mnemonic, format := d.format,
              operands := d.shape.text w } := by
  rw [decode, h]

theorem decode_of_none {w : Word} (h : Descriptor.of? w = none) (address : Address) :
    decode w address
      = .error (.unrecognized address w (w.toNat / 2 ^ 26) (Family.dispatchField w)) := by
  rw [decode, h, Word.toNat_opcode, Family.subField_of]

theorem decode_ok_iff {w : Word} {address : Address} :
    (∃ i, decode w address = .ok i) ↔ ∃ d, Descriptor.of? w = some d := by
  cases h : Descriptor.of? w with
  | none =>
      rw [decode_of_none h]
      constructor
      · rintro ⟨i, hi⟩
        cases hi
      · rintro ⟨d, hd⟩
        cases hd
  | some d =>
      rw [decode_of_some h]
      exact ⟨fun _ => ⟨d, rfl⟩, fun _ => ⟨_, rfl⟩⟩

/-- **EXACTLY THE ENCODINGS OF THE TABLES**: a word decodes if it is zero or an
    encoding of a defined slot, of which there is one at most, and then by that
    slot, whatever its free bits are; any other word is a fault that names the
    fields that were looked at. -/
theorem decode_recognizes :
    (∀ w address, (∃ i, decode w address = .ok i) ↔
      w = 0 ∨ ∃ f slot d, Family.Encodes f slot d w) ∧
    (∀ w f slot d f' slot' d', Family.Encodes f slot d w → Family.Encodes f' slot' d' w →
      f = f' ∧ slot = slot' ∧ d = d') ∧
    (∀ w address f slot d, Family.Encodes f slot d w → w ≠ 0 →
      Descriptor.of? w = some d ∧
        decode w address
          = .ok { address, word := w, mnemonic := d.mnemonic, format := d.format,
                  operands := d.shape.text w }) ∧
    (∀ f slot d, (slot, d) ∈ Family.rows f →
      (∀ free, f.Encodes slot d (f.encode slot free)) ∧
      (∀ w, f.Encodes slot d w → ∃ free, w = f.encode slot free) ∧
      (∀ free, f.encode slot free = 0 ↔ f = .special ∧ slot = 0 ∧ free = 0)) ∧
    (∀ address,
      decode 0 address
        = .ok { address, word := 0, mnemonic := .nop, format := .register, operands := "" }) ∧
    (∀ w address, (¬ ∃ i, decode w address = .ok i) →
      decode w address
        = .error (.unrecognized address w (w.toNat / 2 ^ 26) (Family.dispatchField w))) := by
  refine ⟨?_, ?_, ?_, ?_, ?_, ?_⟩
  · intro w address
    rw [decode_ok_iff]
    by_cases hw : w = 0
    · subst hw
      exact ⟨fun _ => Or.inl rfl, fun _ => ⟨.nop, rfl⟩⟩
    · constructor
      · rintro ⟨d, hd⟩
        obtain ⟨f, slot, h⟩ := (Descriptor.of?_eq_some_iff hw).mp hd
        exact Or.inr ⟨f, slot, d, h⟩
      · rintro (hzero | ⟨f, slot, d, h⟩)
        · exact absurd hzero hw
        · exact ⟨d, (Descriptor.of?_eq_some_iff hw).mpr ⟨f, slot, h⟩⟩
  · intro w f slot d f' slot' d' h h'
    exact h.unique h'
  · intro w address f slot d h hw
    have hd := (Descriptor.of?_eq_some_iff hw).mpr ⟨f, slot, h⟩
    exact ⟨hd, decode_of_some hd address⟩
  · intro f slot d hrow
    have hslot : slot < f.slots := Family.slot_lt_of_mem hrow
    refine ⟨fun free => ⟨hrow, Family.selects_encode hslot free⟩, ?_,
      fun free => Family.encode_eq_zero_iff hrow free⟩
    intro w h
    exact ⟨f.freeOf w, (Family.encode_freeOf h.2).symm⟩
  · intro address
    exact decode_of_some (d := .nop) rfl address
  · intro w address h
    cases hd : Descriptor.of? w with
    | none => exact decode_of_none hd address
    | some d => exact absurd (decode_ok_iff.mpr ⟨d, hd⟩) h

/-- An addition, a word of the table it is listed in, and a reserved slot of the
    second special family. -/
theorem decode_recognizes_add :
    Family.Encodes .special 0x20 ⟨.add, .register, .destinationSourceTarget⟩ 0x012A4020 ∧
    (0x012A4020 : Word) ≠ 0 ∧
    decode 0x012A4020 0x400000
      = .ok { address := 0x400000, word := 0x012A4020, mnemonic := .add, format := .register,
              operands := "$t0, $t1, $t2" } ∧
    (∃ free, (0x012A4020 : Word) = Family.encode .special 0x20 free) ∧
    (∀ f slot d, Family.Encodes f slot d 0x012A4020 → Family.special = f ∧ 0x20 = slot ∧
      ⟨.add, .register, .destinationSourceTarget⟩ = d) ∧
    (¬ ∃ i, decode 0x70000003 0x100 = .ok i) ∧
    decode 0x70000003 0x100 = .error (.unrecognized 0x100 0x70000003 0x1C (some 0x03)) := by
  have hadd : Family.Encodes .special 0x20 ⟨.add, .register, .destinationSourceTarget⟩
      0x012A4020 := ⟨by decide, by decide, by decide⟩
  have hreserved : ¬ ∃ i, decode 0x70000003 0x100 = .ok i := by
    rintro ⟨i, hi⟩
    cases hi
  obtain ⟨-, hunique, hdecode, hencode, -, hfault⟩ := decode_recognizes
  refine ⟨hadd, by decide, ?_, (hencode _ _ _ hadd.1).2.1 _ hadd, ?_, hreserved,
    hfault _ _ hreserved⟩
  · exact (hdecode _ _ _ _ _ hadd (by decide)).2
  · intro f slot d h
    exact hunique _ _ _ _ _ _ _ hadd h

end Mips32
