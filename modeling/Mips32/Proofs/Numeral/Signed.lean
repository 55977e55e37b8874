import Mathlib.Data.List.Basic
import Mathlib.Data.List.Induction
import Mips32.Proofs.Address.Spelling
import Mips32.Proofs.Assembly.Operands
import Mips32.Proofs.Word.Views

/-! # Signed numerals

    A number with a sign is written as the sign, if there is one, the mark of the
    radix and the digits of its size, as FEW as it takes.  There is one such text for
    each number and one number for each such text; zero has no sign.

    Digits are built up from the left: one digit is minimal, and one more behind a
    number other than zero keeps them so.  They are taken apart in the same way.

    Main statement: `Numeral.hexSigned_spelling`, which holds in particular of the
    operand with a sign that the lists of five shapes have. -/

namespace Mips32

namespace Numeral

/-- Digits that a number is written with in hexadecimal: at least one, in lower case,
    with no zero in front of others. -/
structure IsMinimal (n : Nat) (cs : List Char) : Prop where
  ne_nil : cs ≠ []
  lower : ∀ c ∈ cs, c ∈ "0123456789abcdef".toList
  leading : cs.head? = some '0' → cs = ['0']
  /-- They stand for the number by their positions. -/
  value : positional 16 cs = n

/-- The sign that is written in front of a number. -/
def sign (v : Int) : List Char := if v < 0 then ['-'] else []

variable {n d : Nat} {c : Char} {cs : List Char}

-- ── Digits from the left ─────────────────────────────────────────────────────

/-- One digit more counts once, and the others as often as the radix says. -/
theorem positional_concat (radix : Nat) (cs : List Char) (c : Char) :
    positional radix (cs ++ [c]) = radix * positional radix cs + digitPlace c := by
  rw [positional, List.map_append, List.reverse_append, Nat.add_comm]
  exact Nat.ofDigits_cons

/-- The sixteen digits, by their numbers. -/
theorem digitPlace_digitChar (h : d < 16) :
    d.digitChar ∈ "0123456789abcdef".toList ∧ digitPlace d.digitChar = d := by
  have hall : ∀ e : Fin 16, (e.val.digitChar ∈ "0123456789abcdef".toList) ∧
      digitPlace e.val.digitChar = e.val := by
    decide
  exact hall ⟨d, h⟩

theorem digitChar_digitPlace (h : c ∈ "0123456789abcdef".toList) :
    digitPlace c < 16 ∧ (digitPlace c).digitChar = c := by
  have hall : "0123456789abcdef".toList.all
      (fun c => decide (digitPlace c < 16 ∧ (digitPlace c).digitChar = c)) = true := by
    decide
  exact of_decide_eq_true (List.all_eq_true.mp hall c h)

theorem isMinimal_digit (h : d < 16) : IsMinimal d [d.digitChar] := by
  obtain ⟨hlower, hplace⟩ := digitPlace_digitChar h
  refine ⟨List.cons_ne_nil _ _, List.forall_mem_singleton.mpr hlower, ?_, ?_⟩
  · intro hzero
    rw [Option.some.inj hzero]
  · show positional 16 ([] ++ [d.digitChar]) = d
    rw [positional_concat, hplace]
    exact Nat.zero_add d

/-- **ONE DIGIT MORE**, behind a number that is not zero. -/
theorem IsMinimal.concat (h : IsMinimal n cs) (hn : 0 < n) (hd : d < 16) :
    IsMinimal (16 * n + d) (cs ++ [d.digitChar]) := by
  obtain ⟨hlower, hplace⟩ := digitPlace_digitChar hd
  refine ⟨List.append_ne_nil_of_left_ne_nil h.ne_nil _, ?_, ?_, ?_⟩
  · rw [List.forall_mem_append, List.forall_mem_singleton]
    exact ⟨h.lower, hlower⟩
  · intro hzero
    rw [List.head?_append_of_ne_nil _ h.ne_nil] at hzero
    have hvalue := h.value
    rw [h.leading hzero] at hvalue
    exact absurd hvalue (Nat.ne_of_lt hn)
  · rw [positional_concat, hplace, h.value]

theorem isMinimal_digits (n : Nat) : IsMinimal n (digits 16 n) := by
  refine digits_induction (by decide) ?_ ?_ n
  · intro d hd
    exact isMinimal_digit hd
  · intro n d cs hn hd hminimal
    exact hminimal.concat hn hd

/-- **ONE DIGIT LESS**: what is in front of the last digit is minimal, too. -/
theorem IsMinimal.front (h : IsMinimal n (cs ++ [c])) (hne : cs ≠ []) :
    IsMinimal (positional 16 cs) cs ∧ cs ≠ ['0'] := by
  have hnozero : cs.head? ≠ some '0' := by
    intro hzero
    have hsingle := h.leading (by rwa [List.head?_append_of_ne_nil _ hne])
    have hlength := congrArg List.length hsingle
    rw [List.length_append] at hlength
    exact hne (List.length_eq_zero_iff.mp (Nat.succ.inj hlength))
  refine ⟨⟨hne, ?_, fun hzero => absurd hzero hnozero, rfl⟩, ?_⟩
  · exact (List.forall_mem_append.mp h.lower).1
  · rintro rfl
    exact hnozero rfl

/-- **A NUMBER IS WRITTEN IN ONE WAY**: minimal digits are those that it is written
    with. -/
theorem eq_digits_iff : cs = digits 16 n ↔ IsMinimal n cs := by
  constructor
  · rintro rfl
    exact isMinimal_digits n
  · intro h
    induction cs using List.reverseRecOn generalizing n with
    | nil => exact absurd rfl h.ne_nil
    | append_singleton cs c ih =>
        obtain ⟨hplace, hchar⟩ := digitChar_digitPlace (h.lower c (by simp))
        have hlast : digits 16 (digitPlace c) = [c] := by
          rw [digits, Nat.toDigits_of_lt_base hplace, hchar]
        have hvalue := h.value
        rw [positional_concat] at hvalue
        by_cases hnil : cs = []
        · subst hnil
          obtain rfl : digitPlace c = n := (Nat.zero_add _).symm.trans hvalue
          exact hlast.symm
        · obtain ⟨hfront, hne⟩ := h.front hnil
          have hdigits := ih hfront
          have hpos : 0 < positional 16 cs := by
            refine Nat.pos_of_ne_zero fun hzero => hne ?_
            rw [hdigits, hzero]
            rfl
          calc cs ++ [c] = digits 16 (positional 16 cs) ++ digits 16 (digitPlace c) := by
                rw [← hdigits, hlast]
            _ = digits 16 (16 * positional 16 cs + digitPlace c) :=
                Nat.toDigits_append_toDigits (by decide) hpos hplace
            _ = digits 16 n := by rw [hvalue]

-- ── The sign ─────────────────────────────────────────────────────────────────

theorem toList_hexSigned (v : Int) :
    (hexSigned v).toList = sign v ++ '0' :: 'x' :: digits 16 v.natAbs := by
  rw [hexSigned, sign]
  by_cases hv : v < 0
  · rw [if_pos hv, if_pos hv, String.toList_append, hex_eq_hexPadded, toList_hexPadded]
    simp
  · rw [if_neg hv, if_neg hv, hex_eq_hexPadded, toList_hexPadded]
    simp

/-- The lowest number of 32 bits has no opposite among them. -/
example : hexSigned (-2147483648) = "-0x80000000" := by decide

theorem eq_toList_hexSigned_iff (v : Int) :
    cs = (hexSigned v).toList ↔
      ∃ digits, cs = sign v ++ '0' :: 'x' :: digits ∧ IsMinimal v.natAbs digits := by
  rw [toList_hexSigned]
  constructor
  · rintro rfl
    exact ⟨_, rfl, isMinimal_digits _⟩
  · rintro ⟨ds, rfl, hminimal⟩
    rw [eq_digits_iff.mpr hminimal]

theorem hexSigned_injective : Function.Injective hexSigned := by
  intro v v' h
  have hread := integer?_hexSigned v
  rw [h, integer?_hexSigned] at hread
  exact (Option.some.inj hread).symm

/-- Zero is written without a sign. -/
theorem hexSigned_ne_minus_zero (v : Int) : hexSigned v ≠ "-0x0" := by
  intro h
  have hread := integer?_hexSigned v
  rw [h] at hread
  obtain rfl : (0 : Int) = v := Option.some.inj hread
  exact absurd h (by decide)

end Numeral

/-! ## Operands with a sign -/

/-- The shapes whose operand lists have an operand with a sign. -/
def Shape.signed : List Shape :=
  [.branch, .branchZero, .trapImmediate, .arithmeticImmediate, .memory]

/-- The last operand of a list: what is behind the last space, up to the bracket of
    a register. -/
def lastOperand (cs : List Char) : List Char :=
  (cs.reverse.takeWhile (· ≠ ' ')).reverse.takeWhile (· ≠ '(')

theorem Assembler.ne_of_isInner {c : Char} (h : Assembler.isInner c = true) : c ≠ ' ' ∧ c ≠ '(' := by
  constructor
  · rintro rfl
    exact absurd h (by decide)
  · rintro rfl
    exact absurd h (by decide)

theorem lastOperand_append {operand back : List Char}
    (hinner : ∀ c ∈ operand, Assembler.isInner c = true) (hspace : ' ' ∉ back)
    (hbracket : ∀ c, back.head? = some c → c = '(') (front : List Char) :
    lastOperand (front ++ ' ' :: (operand ++ back)) = operand := by
  have hnospace : ' ' ∉ operand ++ back := by
    rw [List.mem_append, not_or]
    exact ⟨fun hmem => (Assembler.ne_of_isInner (hinner _ hmem)).1 rfl, hspace⟩
  have hcut : (front ++ ' ' :: (operand ++ back)).reverse
      = (operand ++ back).reverse ++ ' ' :: front.reverse := by
    simp
  rw [lastOperand, hcut, takeWhile_reverse hnospace (by simp), List.reverse_reverse]
  refine (takeWhile_of_boundary ?_ ?_).1
  · intro c hc
    exact decide_eq_true (Assembler.ne_of_isInner (hinner c hc)).2
  · intro c hc
    exact decide_eq_false fun hne => hne (hbracket c hc)

/-- In all these shapes the operand with a sign is the last, but for the register of a
    memory access. -/
theorem Shape.pieces_of_signed {s : Shape} (h : s ∈ Shape.signed) :
    ∃ front back, s.pieces = front ++ .mark ", " :: .operand .signedImmediate :: back ∧
      (back = [] ∨ back = [.mark "(", .operand .source, .mark ")"]) := by
  simp only [signed, List.mem_cons, List.not_mem_nil, or_false] at h
  rcases h with rfl | rfl | rfl | rfl | rfl
  · exact ⟨[.operand .source, .mark ", ", .operand .target], [], rfl, .inl rfl⟩
  · exact ⟨[.operand .source], [], rfl, .inl rfl⟩
  · exact ⟨[.operand .source], [], rfl, .inl rfl⟩
  · exact ⟨[.operand .target, .mark ", ", .operand .source], [], rfl, .inl rfl⟩
  · exact ⟨[.operand .target], [.mark "(", .operand .source, .mark ")"], rfl, .inr rfl⟩

/-- **THE OPERAND WITH A SIGN** can be cut out of its list. -/
theorem lastOperand_text {s : Shape} (h : s ∈ Shape.signed) (w : Word) :
    lastOperand (s.text w).toList = (Numeral.hexSigned w.signedImmediate).toList := by
  obtain ⟨front, back, hpieces, hback⟩ := Shape.pieces_of_signed h
  have htext : Piece.textOf s.pieces w = (Piece.textOf front w ++ [','])
      ++ ' ' :: ((Operand.signedImmediate.text w).toList ++ Piece.textOf back w) := by
    rw [hpieces]
    simp [Piece.textOf, Piece.text]
  rw [Shape.toList_text, htext]
  apply lastOperand_append fun c hc => Operand.isInner_of_mem_text hc
  · rcases hback with rfl | rfl
    · exact List.not_mem_nil
    · have hregister : ' ' ∉ (Operand.source.text w).toList :=
        fun hmem => (Assembler.ne_of_isInner (Operand.isInner_of_mem_text hmem)).1 rfl
      simpa [Piece.textOf, Piece.text] using hregister
  · rcases hback with rfl | rfl
    · intro c hc
      cases hc
    · intro c hc
      simpa [Piece.textOf, Piece.text, eq_comm] using hc

/-! ## The whole spelling -/

namespace Numeral

/-- **SIGNED NUMERALS**, each in its one spelling: a minus sign exactly in front of a
    number below zero, the mark of the radix, and minimal digits of its size.  It
    reads back as the number, so no other number is written like it, and zero is
    written without a sign.  Five shapes have an operand with a sign, and no others;
    cut out of its list, it reads back as a number that sixteen bits with a sign can
    hold, congruent to the word. -/
theorem hexSigned_spelling :
    (∀ v cs, cs = (hexSigned v).toList ↔
      ∃ digits, cs = sign v ++ '0' :: 'x' :: digits ∧ IsMinimal v.natAbs digits) ∧
    (∀ v, integer? (hexSigned v).toList = some v) ∧
    Function.Injective hexSigned ∧
    (∀ v, hexSigned v ≠ "-0x0") ∧
    (∀ s : Shape, s ∈ Shape.signed ↔ .operand .signedImmediate ∈ s.pieces) ∧
    (∀ s ∈ Shape.signed, ∀ w : Word, ∃ v, integer? (lastOperand (s.text w).toList) = some v ∧
      -0x8000 ≤ v ∧ v ≤ 0x7fff ∧ v % 2 ^ 16 = ((w.toNat % 2 ^ 16 : Nat) : Int)) := by
  refine ⟨fun v cs => eq_toList_hexSigned_iff v, integer?_hexSigned, hexSigned_injective,
    hexSigned_ne_minus_zero, ?_, ?_⟩
  · intro s
    cases s <;> decide
  · intro s hs w
    obtain ⟨hlow, hhigh⟩ := w.signedImmediate_range
    refine ⟨w.signedImmediate, ?_, hlow, hhigh, w.signedImmediate_emod⟩
    rw [lastOperand_text hs, integer?_hexSigned]

/-- The lowest number that an operand can have, in front of the register of a memory
    access. -/
theorem hexSigned_spelling_memory :
    Shape.memory ∈ Shape.signed ∧
    Shape.memory.text 0x8FBF8000 = "$ra, -0x8000($sp)" ∧
    ∃ v, integer? (lastOperand (Shape.memory.text 0x8FBF8000).toList) = some v ∧
      -0x8000 ≤ v ∧ v ≤ 0x7fff ∧ v % 2 ^ 16 = (((0x8FBF8000 : Word).toNat % 2 ^ 16 : Nat) : Int) := by
  obtain ⟨-, -, -, -, -, hoperand⟩ := hexSigned_spelling
  exact ⟨by decide, by decide, hoperand .memory (by decide) 0x8FBF8000⟩

end Numeral

end Mips32
