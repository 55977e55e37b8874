import Mips32.Proofs.Assembly.Assembler
import Mips32.Proofs.Dispatch

/-! # Operands read back

    An operand is written in a radix, with a sign or by a name, and each of these
    stands for the number that the word holds where the operand is taken from.
    Its text has no punctuation in it and punctuation, or nothing, behind it: so
    it is read to its end and no further.

    Main statement: `parse_text`.  The operand list of any shape reads back as
    the word without the bits that no operand is taken from. -/

namespace Mips32

open Assembler

/-! ## One operand -/

/-- The argument that an operand is read back as. -/
def Operand.argument : Operand → Argument
  | .source => .rs
  | .target => .rt
  | .destination => .rd
  | .shiftAmount => .sa
  | .signedImmediate => .immediate
  | .unsignedImmediate => .immediate
  | .code => .code
  | .jumpTarget => .target
  | .jumpField => .target

theorem BitRange.toNat_read_of_field {r : BitRange} {f : Field} (hoffset : r.offset = f.offset)
    (hwidth : r.width = f.width) (w : Word) : (r.read w).toNat = (w.field f).toNat := by
  rw [toNat_read, Word.toNat_field, hoffset, hwidth]

/-- The name of a register is the name of no other one. -/
theorem register?_text (r : Register) : register? r.text.toList = some (r.index.val : Int) := by
  have hindex : ∀ i : Fin 32, Register.names.idxOf? (Register.names.get i) = some i.val := by
    decide +kernel
  have hname : Register.names.idxOf? r.name = some r.index.val := hindex r.index
  rw [Register.text, String.toList_append]
  show (Register.names.idxOf? (String.ofList r.name.toList)).map _ = _
  rw [String.ofList_toList, hname]
  rfl

/-- The name of the register that a field of five bits names stands for the
    field. -/
theorem register?_text_ofField (f : BitVec 5) :
    register? (Register.ofField (f.setWidth 32)).text.toList = some (f.toNat : Int) := by
  rw [register?_text, Register.index_ofField_setWidth]

/-- The code is an operand like any other, but for the zero that is not written. -/
theorem argument_number?_code (w : Word) :
    Argument.code.number? (Operand.code.text w).toList = some (w.code.toNat : Int) := by
  rw [Operand.text]
  by_cases hcode : w.code = 0
  · rw [if_pos hcode, hcode]
    rfl
  · have hne : (Numeral.hex w.code.toNat).toList ≠ [] := by
      rw [Numeral.hex_eq_hexPadded, Numeral.toList_hexPadded]
      simp
    rw [if_neg hcode]
    show (if _ = [] then some 0 else Numeral.integer? _) = _
    rw [if_neg hne, Numeral.integer?_hex]

/-- **ONE OPERAND READS BACK**: its text stands for the number that the word holds
    where the operand is taken from, modulo the width of that range. -/
theorem Operand.number?_text (o : Operand) (w : Word) :
    ∃ v, o.argument.number? (o.text w).toList = some v ∧
      v % 2 ^ o.argument.range.width = (o.argument.range.read w).toNat := by
  have hfield {r : BitRange} {f : Field} (hoffset : r.offset = f.offset)
      (hwidth : r.width = f.width) :
      ((w.field f).toNat : Int) % 2 ^ r.width = (r.read w).toNat := by
    rw [← BitRange.toNat_read_of_field hoffset hwidth w]
    exact r.read_emod w
  cases o with
  | source => exact ⟨_, register?_text_ofField w.rs, hfield (f := .rs) rfl rfl⟩
  | target => exact ⟨_, register?_text_ofField w.rt, hfield (f := .rt) rfl rfl⟩
  | destination => exact ⟨_, register?_text_ofField w.rd, hfield (f := .rd) rfl rfl⟩
  | shiftAmount => exact ⟨_, Numeral.integer?_decimal w.sa.toNat, hfield (f := .sa) rfl rfl⟩
  | signedImmediate =>
      exact ⟨_, Numeral.integer?_hexSigned w.signedImmediate,
        Word.immediateRange.readSigned_emod w⟩
  | unsignedImmediate => exact ⟨_, Numeral.integer?_hex w.immediate.toNat, BitRange.read_emod _ w⟩
  | code => exact ⟨_, argument_number?_code w, BitRange.read_emod _ w⟩
  | jumpTarget =>
      refine ⟨_, Numeral.integer?_decimal w.jumpTarget.toNat, ?_⟩
      -- an address is the jump field modulo more than the width of the field
      have htarget : (w.jumpTarget.toNat : Int) = Word.jumpRange.readSigned w % 2 ^ 32 := by
        rw [Word.jumpTarget, BitVec.toNat_ofInt]
        exact Int.toNat_of_nonneg (Int.emod_nonneg _ (by decide))
      show (w.jumpTarget.toNat : Int) % 2 ^ 26 = _
      rw [htarget, Int.emod_emod_of_dvd _ (by decide)]
      exact Word.jumpRange.readSigned_emod w
  | jumpField => exact ⟨_, Numeral.integer?_hex w.jumpField.toNat, BitRange.read_emod _ w⟩

/-- Whether an operand may hold this character: a letter or a digit, the minus
    sign or the sigil. -/
def isOperandChar (c : Char) : Bool := c.isAlphanum || c == '-' || c == '$'

theorem isOperandChar_of_isAlphanum {c : Char} (h : c.isAlphanum = true) :
    isOperandChar c = true := by
  simp [isOperandChar, h]

theorem isOperandChar_of_mem_register {r : Register} {c : Char} (h : c ∈ r.text.toList) :
    isOperandChar c = true := by
  have hnames : Register.names.all (fun name => name.toList.all isOperandChar) = true := by
    decide +kernel
  have hname := List.all_eq_true.mp hnames r.name (List.get_mem ..)
  rw [Register.text, String.toList_append] at h
  rcases List.mem_append.mp h with hsigil | hletter
  · rw [List.mem_singleton.mp hsigil]
    rfl
  · exact List.all_eq_true.mp hname c hletter

theorem isOperandChar_of_mem_hexSigned {v : Int} {c : Char}
    (h : c ∈ (Numeral.hexSigned v).toList) : isOperandChar c = true := by
  rcases Numeral.isAlphanum_of_mem_hexSigned h with hdigit | rfl
  · exact isOperandChar_of_isAlphanum hdigit
  · rfl

/-- **AN OPERAND IS OF ONE KIND OF CHARACTERS**, whatever it is written as. -/
theorem Operand.isOperandChar_of_mem_text {o : Operand} {w : Word} {c : Char}
    (h : c ∈ (o.text w).toList) : isOperandChar c = true := by
  have hdecimal {n : Nat} (h : c ∈ (Numeral.decimal n).toList) : isOperandChar c = true :=
    isOperandChar_of_isAlphanum (Numeral.isAlphanum_of_mem_decimal h)
  have hhex {n : Nat} (h : c ∈ (Numeral.hex n).toList) : isOperandChar c = true :=
    isOperandChar_of_isAlphanum (Numeral.isAlphanum_of_mem_hex h)
  cases o with
  | source => exact isOperandChar_of_mem_register h
  | target => exact isOperandChar_of_mem_register h
  | destination => exact isOperandChar_of_mem_register h
  | shiftAmount => exact hdecimal h
  | signedImmediate => exact isOperandChar_of_mem_hexSigned h
  | unsignedImmediate => exact hhex h
  | code =>
      rw [Operand.text] at h
      by_cases hcode : w.code = 0
      · rw [if_pos hcode] at h
        exact absurd h (List.not_mem_nil)
      · rw [if_neg hcode] at h
        exact hhex h
  | jumpTarget => exact hdecimal h
  | jumpField => exact hhex h

/-- An operand has no punctuation in it. -/
theorem Operand.isInner_of_mem_text {o : Operand} {w : Word} {c : Char}
    (h : c ∈ (o.text w).toList) : isInner c = true := by
  have hmark : [',', ' ', '(', ')'].all (fun d => !isOperandChar d) = true := rfl
  rw [isInner, decide_eq_true_iff]
  intro hc
  have hnone := List.all_eq_true.mp hmark c hc
  rw [isOperandChar_of_mem_text h] at hnone
  cases hnone

/-! ## Operand lists -/

/-- A piece of an operand list as it is read back. -/
def Piece.part : Piece → Part
  | .mark t => .mark t
  | .operand o => .read o.argument

/-- **THE OPERANDS ARE READ AS THEY ARE WRITTEN**, in the same order and with the
    same punctuation. -/
theorem form_eq_map_part (s : Shape) : form s = s.pieces.map Piece.part := by
  cases s <;> rfl

/-- The text of some pieces of an operand list. -/
def Piece.textOf (ps : List Piece) (w : Word) : List Char :=
  ps.flatMap fun p => (p.text w).toList

theorem Shape.toList_text (s : Shape) (w : Word) : (s.text w).toList = Piece.textOf s.pieces w := by
  rw [Shape.text, Piece.textOf]
  induction s.pieces with
  | nil => rfl
  | cons p ps ih =>
      rw [List.foldr_cons, String.toList_append, ih, List.flatMap_cons]

/-- Whether the text of some pieces cannot go on with an operand before it. -/
def Piece.apart : List Piece → Bool
  | [] => true
  | .mark t :: _ => t.toList.head?.any fun c => !isInner c
  | .operand _ :: _ => false

/-- Whether every operand of a list has punctuation behind it, or nothing. -/
def Piece.separated : List Piece → Bool
  | [] => true
  | .mark _ :: ps => separated ps
  | .operand _ :: ps => apart ps && separated ps

theorem separated_pieces (s : Shape) : Piece.separated s.pieces = true := by
  cases s <;> decide

theorem Piece.head?_textOf {ps : List Piece} (h : apart ps = true) (w : Word) {c : Char}
    (hc : (textOf ps w).head? = some c) : isInner c = false := by
  cases ps with
  | nil => cases hc
  | cons p ps =>
      cases p with
      | operand o => cases h
      | mark t =>
          have hmark : t.toList.head?.any (fun c => !isInner c) = true := h
          have htext : (t.toList ++ textOf ps w).head? = some c := hc
          cases ht : t.toList with
          | nil =>
              rw [ht] at hmark
              cases hmark
          | cons d ds =>
              rw [ht] at hmark htext
              obtain rfl : d = c := Option.some.inj htext
              simpa using hmark

/-- **A WRITTEN OPERAND LIST READS BACK** as the word without the bits that no
    operand is taken from. -/
theorem parse_textOf {ps : List Piece} (h : Piece.separated ps = true) (w : Word) :
    parse (ps.map Piece.part) (Piece.textOf ps w) = some (w &&& bitsOf (ps.map Piece.part)) := by
  induction ps with
  | nil => exact congrArg some BitVec.and_zero.symm
  | cons p ps ih =>
      cases p with
      | mark t => exact (parse_mark t _ _).trans (ih h)
      | operand o =>
          obtain ⟨hapart, hrest⟩ := Bool.and_eq_true_iff.mp h
          obtain ⟨v, hv, hread⟩ := o.number?_text w
          have hparse : parse (.read o.argument :: ps.map Piece.part)
              ((o.text w).toList ++ Piece.textOf ps w) = _ :=
            parse_read (fun c hc => Operand.isInner_of_mem_text hc)
              (fun c hc => Piece.head?_textOf hapart w hc) hv (ih hrest)
          rw [BitRange.put_eq_and hread, ← BitVec.and_or_distrib_left] at hparse
          exact hparse

theorem parse_text (s : Shape) (w : Word) :
    parse (form s) (s.text w).toList = some (w &&& bitsOf (form s)) := by
  rw [Shape.toList_text, form_eq_map_part]
  exact parse_textOf (separated_pieces s) w

end Mips32
