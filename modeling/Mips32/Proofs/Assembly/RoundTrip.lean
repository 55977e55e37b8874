import Mips32.Proofs.Assembly.Operands

/-! # Round trip — assembling what was decoded

    The text of an instruction SHOWS the opcode and the selector of its word, by
    the name, and the places that the operands are taken from.  Assembling the
    text gives back exactly these bits, so two words have the same text if they
    agree on them; only `nop` is kept apart from the shift that it would be.

    Main statement: `assemble_text`. -/

namespace Mips32

open Assembler

/-! ## The name -/

theorem nodup_names : (table.map Prod.fst).Nodup := by
  decide +kernel

theorem space_not_mem_name (m : Mnemonic) : ' ' ∉ m.name.toList := by
  cases m <;> decide

/-- The text of an instruction falls apart at the first space. -/
theorem Instruction.split_text (i : Instruction) :
    i.text.toList.takeWhile (· ≠ ' ') = i.mnemonic.name.toList ∧
      (i.text.toList.dropWhile (· ≠ ' ')).drop 1 = i.operands.toList := by
  have hname : ∀ c ∈ i.mnemonic.name.toList, decide (c ≠ ' ') = true := by
    intro c hc
    have hne : c ≠ ' ' := fun hspace => space_not_mem_name i.mnemonic (hspace ▸ hc)
    simpa using hne
  have hend : ∀ c : Char, ([] : List Char).head? = some c → decide (c ≠ ' ') = false := by
    rintro c ⟨⟩
  have hspace : ∀ c : Char, (' ' :: i.operands.toList).head? = some c →
      decide (c ≠ ' ') = false := by
    rintro c ⟨⟩
    rfl
  unfold Instruction.text
  by_cases hempty : i.operands = ""
  · obtain ⟨htake, hdrop⟩ := takeWhile_of_boundary hname hend
    rw [List.append_nil] at htake hdrop
    rw [if_pos hempty, htake, hdrop, hempty]
    exact ⟨rfl, rfl⟩
  · have htext : (i.mnemonic.name ++ " " ++ i.operands).toList
        = i.mnemonic.name.toList ++ ' ' :: i.operands.toList := by
      simp
    obtain ⟨htake, hdrop⟩ := takeWhile_of_boundary hname hspace
    rw [if_neg hempty, htext, htake, hdrop]
    exact ⟨rfl, rfl⟩

theorem selector_eq_read (f : Family) (w : Word) :
    f.selector w = ((selectorRange f).read w).toNat := by
  cases f with
  | special => exact (BitRange.toNat_read_of_field (f := .funct) rfl rfl w).symm
  | regImm => exact (BitRange.toNat_read_of_field (f := .rt) rfl rfl w).symm
  | special2 => exact (BitRange.toNat_read_of_field (f := .funct) rfl rfl w).symm
  | primary => exact (BitRange.toNat_read_of_field (f := .opcode) rfl rfl w).symm

theorem opcodeOf_of_selects {f : Family} {slot : Nat} {w : Word} (h : f.Selects slot w) :
    opcodeOf f slot = w.toNat / 2 ^ 26 := by
  cases f with
  | special => exact h.1.symm
  | regImm => exact h.1.symm
  | special2 => exact h.1.symm
  | primary => exact Eq.symm h

/-- The opcode of the slot that a word is looked up in is the word's own. -/
theorem opcodeOf_selector (w : Word) :
    opcodeOf (Family.of w) ((Family.of w).selector w) = (opcodeRange.read w).toNat := by
  rw [opcodeOf_of_selects (Family.selects_self w),
    BitRange.toNat_read_of_field (f := .opcode) rfl rfl w]
  exact (Word.toNat_opcode w).symm

/-- The slot of a word assembles to the word's opcode and selector. -/
theorem base_selector (w : Word) :
    base (Family.of w) ((Family.of w).selector w) = w &&& baseBits (Family.of w) := by
  rw [base, opcodeOf_selector, selector_eq_read, BitRange.put_eq_and (BitRange.read_emod _ w),
    BitRange.put_eq_and (BitRange.read_emod _ w), baseBits, BitVec.and_or_distrib_left]

theorem mem_table {f : Family} {row : Nat × Descriptor} (h : row ∈ f.rows) :
    (row.2.mnemonic.name, base f row.1, row.2.shape) ∈ table := by
  have hrow : (row.2.mnemonic.name, base f row.1, row.2.shape) ∈ rowsOf f :=
    List.mem_map_of_mem (f := fun row : Nat × Descriptor =>
      (row.2.mnemonic.name, base f row.1, row.2.shape)) h
  cases f <;> simp [table, hrow]

/-- **THE NAME GIVES OPCODE, SELECTOR AND SHAPE** of every word that has a
    descriptor. -/
theorem lookup_name {w : Word} {d : Descriptor} (h : Descriptor.of? w = some d) :
    table.lookup d.mnemonic.name = some (w &&& baseBits (Family.of w), d.shape) := by
  rw [lookup_eq_some_iff_mem nodup_names]
  rw [Descriptor.of?] at h
  by_cases hw : w = 0
  · rw [if_pos hw] at h
    obtain rfl : Descriptor.nop = d := Option.some.inj h
    subst hw
    decide +kernel
  · rw [if_neg hw, Family.slot?_eq_some_iff] at h
    have hmem := mem_table h
    rw [base_selector] at hmem
    exact hmem

/-! ## The whole instruction -/

theorem exists_descriptor {w : Word} {address : Address} {i : Instruction}
    (h : decode w address = .ok i) :
    ∃ d, Descriptor.of? w = some d ∧ i.mnemonic = d.mnemonic ∧ i.operands = d.shape.text w := by
  obtain ⟨d, hd⟩ := decode_ok_iff.mp ⟨i, h⟩
  rw [decode_of_some hd] at h
  obtain rfl := Except.ok.inj h
  exact ⟨d, hd, rfl, rfl⟩

theorem assemble_text_of_decode {w : Word} {address : Address} {i : Instruction}
    (h : decode w address = .ok i) : assemble i.text = some (w &&& shown w) := by
  obtain ⟨d, hd, hname, hoperands⟩ := exists_descriptor h
  obtain ⟨htake, hdrop⟩ := i.split_text
  rw [assemble, htake, hdrop, hname, hoperands, String.ofList_toList, lookup_name hd]
  show (parse (form d.shape) (d.shape.text w).toList).map _ = _
  rw [parse_text, shown, hd, BitVec.and_or_distrib_left]
  rfl

/-- Only the all-zero word is written as `nop`. -/
theorem text_eq_nop_iff {w : Word} {address : Address} {i : Instruction}
    (h : decode w address = .ok i) : i.text = "nop" ↔ w = 0 := by
  have hrows (f : Family) : ∀ row ∈ f.rows, row.2.mnemonic.name ≠ "nop" := by
    cases f <;> decide +kernel
  constructor
  · intro htext
    obtain ⟨d, hd, hname, -⟩ := exists_descriptor h
    have hnop : i.mnemonic.name.toList = "nop".toList := by
      rw [← i.split_text.1, htext]
      rfl
    rw [hname] at hnop
    rw [Descriptor.of?] at hd
    by_cases hw : w = 0
    · exact hw
    · rw [if_neg hw, Family.slot?_eq_some_iff] at hd
      exact absurd (String.toList_inj.mp hnop) (hrows _ _ hd)
  · rintro rfl
    obtain rfl := Except.ok.inj h
    rfl

/-! ## What the text depends on -/

theorem field_eq_of_read_eq {r : BitRange} {f : Field} (hoffset : r.offset = f.offset)
    (hwidth : r.width = f.width) {w w' : Word} (h : r.read w = r.read w') :
    w.field f = w'.field f := by
  apply BitVec.eq_of_toNat_eq
  rw [← BitRange.toNat_read_of_field hoffset hwidth, h, BitRange.toNat_read_of_field hoffset hwidth]

theorem Operand.text_congr {o : Operand} {w w' : Word}
    (h : o.argument.range.read w = o.argument.range.read w') : o.text w = o.text w' := by
  cases o with
  | source =>
      have hrs : w.rs = w'.rs := field_eq_of_read_eq (f := .rs) rfl rfl h
      rw [text, text, Word.source, hrs, ← Word.source]
  | target =>
      have hrt : w.rt = w'.rt := field_eq_of_read_eq (f := .rt) rfl rfl h
      rw [text, text, Word.target, hrt, ← Word.target]
  | destination =>
      have hrd : w.rd = w'.rd := field_eq_of_read_eq (f := .rd) rfl rfl h
      rw [text, text, Word.destination, hrd, ← Word.destination]
  | shiftAmount =>
      have hsa : w.sa = w'.sa := field_eq_of_read_eq (f := .sa) rfl rfl h
      rw [text, text, hsa]
  | signedImmediate =>
      have hread : Word.immediateRange.read w = Word.immediateRange.read w' := h
      rw [text, text, Word.signedImmediate, Word.signedImmediate, BitRange.readSigned, hread]
      rfl
  | unsignedImmediate =>
      have hread : w.immediate = w'.immediate := h
      rw [text, text, hread]
  | code =>
      have hread : w.code = w'.code := h
      rw [text, text, hread]
  | jumpTarget =>
      have hread : Word.jumpRange.read w = Word.jumpRange.read w' := h
      rw [text, text, Word.jumpTarget, Word.jumpTarget, BitRange.readSigned, hread]
      rfl
  | jumpField =>
      have hread : w.jumpField = w'.jumpField := h
      rw [text, text, hread]

theorem Piece.textOf_congr {ps : List Piece} {w w' : Word}
    (h : w &&& bitsOf (ps.map part) = w' &&& bitsOf (ps.map part)) :
    textOf ps w = textOf ps w' := by
  induction ps with
  | nil => rfl
  | cons p ps ih =>
      cases p with
      | mark t => exact congrArg (t.toList ++ ·) (ih h)
      | operand o =>
          have hor : w &&& (o.argument.range.bits ||| bitsOf (ps.map part))
              = w' &&& (o.argument.range.bits ||| bitsOf (ps.map part)) := h
          have hread := BitRange.read_eq_of_and_eq (and_eq_and_of_or hor)
          rw [BitVec.or_comm] at hor
          have hrest := ih (and_eq_and_of_or hor)
          show (o.text w).toList ++ textOf ps w = (o.text w').toList ++ textOf ps w'
          rw [Operand.text_congr hread, hrest]

theorem Shape.text_congr {s : Shape} {w w' : Word}
    (h : w &&& bitsOf (form s) = w' &&& bitsOf (form s)) : s.text w = s.text w' := by
  rw [form_eq_map_part] at h
  apply String.toList_inj.mp
  rw [toList_text, toList_text, Piece.textOf_congr h]

theorem shown_of {w : Word} {d : Descriptor} (h : Descriptor.of? w = some d) :
    shown w = baseBits (Family.of w) ||| bitsOf (form d.shape) := by
  rw [shown, h]

/-- Words that agree on what is shown of them are looked up in the same slot,
    unless one of them is all zero. -/
theorem of?_eq_of_shown {w w' : Word} {d d' : Descriptor} (hw : w ≠ 0) (hw' : w' ≠ 0)
    (hd : Descriptor.of? w = some d) (hd' : Descriptor.of? w' = some d')
    (h : w &&& shown w = w' &&& shown w') : Family.of w = Family.of w' ∧ d = d' := by
  rw [shown_of hd, shown_of hd', baseBits, baseBits, BitVec.or_assoc, BitVec.or_assoc] at h
  have hopcode : w.opcode = w'.opcode :=
    field_eq_of_read_eq (f := .opcode) rfl rfl (BitRange.read_eq_of_and_eq (and_eq_and_of_or h))
  have hfamily : Family.of w = Family.of w' := by
    rw [Family.of, Family.of, hopcode]
  rw [hfamily, ← BitVec.or_assoc, ← BitVec.or_assoc,
    BitVec.or_comm opcodeRange.bits, BitVec.or_assoc, BitVec.or_assoc] at h
  have hselector : (Family.of w').selector w = (Family.of w').selector w' := by
    rw [selector_eq_read, selector_eq_read, BitRange.read_eq_of_and_eq (and_eq_and_of_or h)]
  rw [Descriptor.of?, if_neg hw, hfamily, hselector] at hd
  rw [Descriptor.of?, if_neg hw', hd] at hd'
  exact ⟨hfamily, Option.some.inj hd'⟩

/-- The text of an instruction depends on nothing but what is shown of its word,
    and on whether it is `nop`. -/
theorem text_eq_of_shown {w w' : Word} {address address' : Address} {i i' : Instruction}
    (hi : decode w address = .ok i) (hi' : decode w' address' = .ok i') (hzero : w = 0 ↔ w' = 0)
    (h : w &&& shown w = w' &&& shown w') : i.text = i'.text := by
  by_cases hw : w = 0
  · rw [(text_eq_nop_iff hi).mpr hw, (text_eq_nop_iff hi').mpr (hzero.mp hw)]
  · obtain ⟨d, hd, hname, hoperands⟩ := exists_descriptor hi
    obtain ⟨d', hd', hname', hoperands'⟩ := exists_descriptor hi'
    obtain ⟨hfamily, rfl⟩ := of?_eq_of_shown hw (fun hw' => hw (hzero.mpr hw')) hd hd' h
    rw [shown_of hd, shown_of hd', hfamily, BitVec.or_comm] at h
    have hshape : d.shape.text w = d.shape.text w' := Shape.text_congr (and_eq_and_of_or h)
    unfold Instruction.text
    rw [hname, hname', hoperands, hoperands', hshape]

/-! ## The round trip -/

/-- **ASSEMBLING WHAT WAS DECODED**: the text of an instruction assembles to its
    word without the bits that are neither opcode nor selector nor taken by an
    operand.  Two texts are the same exactly if the words agree on all others,
    and `nop` is the all-zero word alone. -/
theorem assemble_text :
    (∀ w address i, decode w address = .ok i → assemble i.text = some (w &&& shown w)) ∧
    (∀ w address i w' address' i', decode w address = .ok i → decode w' address' = .ok i' →
      (i.text = i'.text ↔ (w = 0 ↔ w' = 0) ∧ w &&& shown w = w' &&& shown w')) ∧
    (∀ w address i, decode w address = .ok i → (i.text = "nop" ↔ w = 0)) := by
  refine ⟨fun w address i h => assemble_text_of_decode h, ?_,
    fun w address i h => text_eq_nop_iff h⟩
  intro w address i w' address' i' hi hi'
  constructor
  · intro htext
    have hassembled := assemble_text_of_decode hi
    rw [htext, assemble_text_of_decode hi'] at hassembled
    refine ⟨?_, (Option.some.inj hassembled).symm⟩
    rw [← text_eq_nop_iff hi, ← text_eq_nop_iff hi', htext]
  · rintro ⟨hzero, hshown⟩
    exact text_eq_of_shown hi hi' hzero hshown

/-- A count of leading ones with stray bits in its target and shift fields, the
    same without them, and a word that differs from `nop` in a stray bit alone. -/
theorem assemble_text_clo :
    decode 0x71CFF0E1 0x100
      = .ok { address := 0x100, word := 0x71CFF0E1, mnemonic := .clo, format := .register,
              operands := "$fp, $t6" } ∧
    assemble "clo $fp, $t6" = some 0x71C0F021 ∧
    decode 0x71C0F021 0x200
      = .ok { address := 0x200, word := 0x71C0F021, mnemonic := .clo, format := .register,
              operands := "$fp, $t6" } ∧
    (0x71CFF0E1 : Word) &&& shown 0x71CFF0E1 = 0x71C0F021 &&& shown 0x71C0F021 ∧
    decode 0x00200000 0
      = .ok { address := 0, word := 0x00200000, mnemonic := .sll, format := .register,
              operands := "$zero, $zero, 0" } ∧
    assemble "sll $zero, $zero, 0" = some 0 ∧
    "sll $zero, $zero, 0" ≠ "nop" := by
  have hstray : decode 0x71CFF0E1 0x100
      = .ok { address := 0x100, word := 0x71CFF0E1, mnemonic := .clo, format := .register,
              operands := "$fp, $t6" } := rfl
  have hclean : decode 0x71C0F021 0x200
      = .ok { address := 0x200, word := 0x71C0F021, mnemonic := .clo, format := .register,
              operands := "$fp, $t6" } := rfl
  have hshift : decode 0x00200000 0
      = .ok { address := 0, word := 0x00200000, mnemonic := .sll, format := .register,
              operands := "$zero, $zero, 0" } := rfl
  have hshownStray : (0x71CFF0E1 : Word) &&& shown 0x71CFF0E1 = 0x71C0F021 := by decide +kernel
  have hshownShift : (0x00200000 : Word) &&& shown 0x00200000 = 0 := by decide +kernel
  obtain ⟨hassemble, htext, hnop⟩ := assemble_text
  have hstrayBack := hassemble _ _ _ hstray
  have hshiftBack := hassemble _ _ _ hshift
  rw [hshownStray] at hstrayBack
  rw [hshownShift] at hshiftBack
  refine ⟨hstray, hstrayBack, hclean, ?_, hshift, hshiftBack, ?_⟩
  · exact ((htext _ _ _ _ _ _ hstray hclean).mp rfl).2
  · exact fun heq => absurd ((hnop _ _ _ hshift).mp heq) (by decide)

end Mips32
