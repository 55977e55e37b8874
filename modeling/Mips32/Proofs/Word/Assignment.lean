import Mips32.Proofs.Word

/-! # Assigning fields

    The six fields lie side by side and fill the word.  An assignment cuts its
    value down to the field, so it is seen through that field ALONE; and a word
    is nothing but its fields, so two words that cannot be told apart by reading
    them are the same.  All of this follows from where the fields stand, for any
    accessors that go by it, and those of the decoder do.

    One assignment is settled bit by bit (`get_set_self`, `get_set_of_ne`), and a
    run of them by induction; what is said of the order of a run is then read off
    the fields.

    Main statement: `Word.assignAll_reads`. -/

namespace Mips32

namespace Field

theorem fits (f : Field) : f.offset + f.width ≤ 32 := by
  cases f <;> decide

/-- Different fields have no bit in common. -/
theorem apart {f g : Field} (h : f ≠ g) :
    f.offset + f.width ≤ g.offset ∨ g.offset + g.width ≤ f.offset := by
  revert h
  cases f <;> cases g <;> decide

theorem getLsbD_mask (f : Field) (i : Nat) :
    f.mask.getLsbD i = decide (f.offset ≤ i ∧ i < f.offset + f.width) := by
  have hfits := f.fits
  rw [mask, BitVec.getLsbD_shiftLeft, BitVec.getLsbD_setWidth, BitVec.getLsbD_allOnes]
  rw [Bool.eq_iff_iff]
  simp only [Bool.and_eq_true, Bool.not_eq_true', decide_eq_true_eq, decide_eq_false_iff_not]
  omega

end Field

/-! ## The accessors of the decoder -/

namespace Word

theorem getLsbD_assign (w : Word) (f : Field) (value : Nat) {i : Nat} (hi : i < 32) :
    (w.assign f value).getLsbD i
      = if f.offset ≤ i ∧ i < f.offset + f.width then value.testBit (i - f.offset)
        else w.getLsbD i := by
  rw [assign, BitVec.getLsbD_or, BitVec.getLsbD_and, BitVec.getLsbD_and, BitVec.getLsbD_not,
    Field.getLsbD_mask, BitVec.getLsbD_shiftLeft, BitVec.getLsbD_ofNat]
  by_cases hin : f.offset ≤ i ∧ i < f.offset + f.width
  · have hlow : ¬ i < f.offset := by omega
    have hmoved : i - f.offset < 32 := by omega
    simp [hin, hi, hlow, hmoved]
  · simp [hin, hi]

/-- **THE DECODER GOES BY WHERE THE FIELDS STAND.** -/
theorem accessors_lawful : accessors.Lawful where
  testBit_get w f i := BitVec.getLsbD_extractLsb' f.offset f.width w i
  getLsbD_set w f value _ hi := getLsbD_assign w f value hi

end Word

namespace Accessors

variable {a : Accessors}

/-- What a field is read as is what it holds. -/
theorem Lawful.get_eq (ha : a.Lawful) (w : Word) (f : Field) : a.get w f = (w.field f).toNat := by
  apply Nat.eq_of_testBit_eq
  intro i
  rw [ha.testBit_get]
  exact (Word.accessors_lawful.testBit_get w f i).symm

/-- Words that read alike in every field are the same. -/
theorem Lawful.eq_of_get (ha : a.Lawful) {w w' : Word} (h : ∀ f, a.get w f = a.get w' f) :
    w = w' := by
  apply Word.eq_of_fields
  intro f
  apply BitVec.eq_of_toNat_eq
  rw [← ha.get_eq, ← ha.get_eq, h f]

/-! ## One assignment -/

/-- **ASSIGNED, A FIELD HOLDS THE VALUE**, as far as it fits. -/
theorem Lawful.get_set_self (ha : a.Lawful) (w : Word) (f : Field) (value : Nat) :
    a.get (a.set w f value) f = value % 2 ^ f.width := by
  have hfits := f.fits
  apply Nat.eq_of_testBit_eq
  intro i
  rw [ha.testBit_get, Nat.testBit_mod_two_pow]
  by_cases hi : i < f.width
  · rw [ha.getLsbD_set w f value _ (by omega), if_pos (by omega), Nat.add_sub_cancel_left]
  · simp [hi]

/-- **EVERY OTHER FIELD STAYS**. -/
theorem Lawful.get_set_of_ne (ha : a.Lawful) (w : Word) {f g : Field} (value : Nat) (h : f ≠ g) :
    a.get (a.set w f value) g = a.get w g := by
  have hfits := g.fits
  have hapart := Field.apart h
  apply Nat.eq_of_testBit_eq
  intro i
  rw [ha.testBit_get, ha.testBit_get]
  by_cases hi : i < g.width
  · rw [ha.getLsbD_set w f value _ (by omega), if_neg (by omega)]
  · simp [hi]

/-- Assigning what a field holds anyway changes nothing. -/
theorem Lawful.set_of_get_eq (ha : a.Lawful) {w : Word} {f : Field} {value : Nat}
    (h : a.get w f = value % 2 ^ f.width) : a.set w f value = w := by
  apply ha.eq_of_get
  intro g
  by_cases hg : f = g
  · subst hg
    rw [ha.get_set_self, h]
  · rw [ha.get_set_of_ne w value hg]

/-- Different fields can be assigned in either order. -/
theorem Lawful.set_comm (ha : a.Lawful) (w : Word) {f g : Field} (u v : Nat) (h : f ≠ g) :
    a.set (a.set w f u) g v = a.set (a.set w g v) f u := by
  apply ha.eq_of_get
  intro k
  by_cases hf : f = k
  · subst hf
    rw [ha.get_set_of_ne _ v h.symm, ha.get_set_self, ha.get_set_self]
  · rw [ha.get_set_of_ne (a.set w g v) u hf]
    by_cases hg : g = k
    · subst hg
      rw [ha.get_set_self, ha.get_set_self]
    · rw [ha.get_set_of_ne _ v hg, ha.get_set_of_ne w u hf, ha.get_set_of_ne w v hg]

/-! ## Runs of assignments -/

/-- The word after some assignments, made one after the other. -/
def assignAll (a : Accessors) (w : Word) (as : List (Field × Nat)) : Word :=
  as.foldl (fun w x => a.set w x.1 x.2) w

/-- The value that a field was assigned last, if it was assigned at all. -/
def lastAssigned (as : List (Field × Nat)) (f : Field) : Option Nat :=
  (as.filter fun x => x.1 = f).getLast?.map Prod.snd

/-- What a field should read as after some assignments to a word: the last value
    modulo the field's width, or else what it held before. -/
def reading (a : Accessors) (w : Word) (as : List (Field × Nat)) (f : Field) : Nat :=
  (lastAssigned as f).elim (a.get w f) fun value => value % 2 ^ f.width

theorem assignAll_append (w : Word) (as bs : List (Field × Nat)) :
    a.assignAll w (as ++ bs) = a.assignAll (a.assignAll w as) bs := List.foldl_append

/-- One assignment more in front: what was said of a field before is forgotten,
    or the field is another one. -/
theorem Lawful.reading_cons (ha : a.Lawful) (w : Word) (x : Field × Nat) (as : List (Field × Nat))
    (f : Field) : a.reading w (x :: as) f = a.reading (a.set w x.1 x.2) as f := by
  obtain ⟨g, value⟩ := x
  by_cases hg : g = f
  · subst hg
    rw [reading, reading, lastAssigned, lastAssigned, List.filter_cons_of_pos (by simp),
      List.getLast?_cons]
    cases (as.filter fun x => x.1 = g).getLast? with
    | none => exact (ha.get_set_self w g value).symm
    | some y => rfl
  · rw [reading, reading, lastAssigned, lastAssigned, List.filter_cons_of_neg (by simp [hg]),
      ha.get_set_of_ne w value hg]

/-- **THE LAST ASSIGNMENT COUNTS**, field by field. -/
theorem Lawful.get_assignAll (ha : a.Lawful) (w : Word) (as : List (Field × Nat)) (f : Field) :
    a.get (a.assignAll w as) f = a.reading w as f := by
  induction as generalizing w with
  | nil => rfl
  | cons x as ih =>
      rw [ha.reading_cons]
      exact ih (a.set w x.1 x.2)

theorem Lawful.get_assignAll_of_ne (ha : a.Lawful) (w : Word) {as : List (Field × Nat)} {f : Field}
    (h : ∀ x ∈ as, x.1 ≠ f) : a.get (a.assignAll w as) f = a.get w f := by
  have hnone : as.filter (fun x => x.1 = f) = [] := by
    rw [List.filter_eq_nil_iff]
    simpa using h
  rw [ha.get_assignAll, reading, lastAssigned, hnone]
  rfl

end Accessors

namespace Word

/-- **A RUN OF ASSIGNMENTS** leaves in each field the last value that it was
    assigned, cut down to the field, and every other field as it was; the word is
    what the fields make up.  So two neighbouring assignments to different fields
    can change places, and an assignment can be left out if the same one was made
    before and none to its field since.  Words are the same exactly if their
    fields are. -/
theorem assignAll_reads {a : Accessors} (ha : a.Lawful) (w : Word) (as : List (Field × Nat)) :
    (∀ f, a.get (a.assignAll w as) f = a.reading w as f) ∧
    (a.assignAll w as).toNat
      = a.reading w as .opcode * 2 ^ 26 + a.reading w as .rs * 2 ^ 21
        + a.reading w as .rt * 2 ^ 16 + a.reading w as .rd * 2 ^ 11
        + a.reading w as .sa * 2 ^ 6 + a.reading w as .funct ∧
    (∀ x y behind, x.1 ≠ y.1 →
      a.assignAll w (as ++ x :: y :: behind) = a.assignAll w (as ++ y :: x :: behind)) ∧
    (∀ x between behind, (∀ y ∈ between, y.1 ≠ x.1) →
      a.assignAll w (as ++ x :: (between ++ x :: behind))
        = a.assignAll w (as ++ x :: (between ++ behind))) ∧
    (∀ w' : Word, w = w' ↔ ∀ f, a.get w f = a.get w' f) := by
  refine ⟨ha.get_assignAll w as, ?_, ?_, ?_, ?_⟩
  · simp only [← ha.get_assignAll, ha.get_eq]
    exact toNat_eq_fields (a.assignAll w as)
  · intro x y behind hne
    rw [Accessors.assignAll_append, Accessors.assignAll_append]
    show a.assignAll (a.set (a.set (a.assignAll w as) x.1 x.2) y.1 y.2) behind = _
    rw [ha.set_comm _ _ _ hne]
    rfl
  · intro x between behind hbetween
    -- the field still holds the value when it is assigned again
    have hheld : a.get (a.assignAll (a.set (a.assignAll w as) x.1 x.2) between) x.1
        = x.2 % 2 ^ x.1.width := by
      rw [ha.get_assignAll_of_ne _ hbetween, ha.get_set_self]
    rw [Accessors.assignAll_append, Accessors.assignAll_append]
    show a.assignAll (a.set (a.assignAll w as) x.1 x.2) (between ++ x :: behind)
      = a.assignAll (a.set (a.assignAll w as) x.1 x.2) (between ++ behind)
    rw [Accessors.assignAll_append, Accessors.assignAll_append]
    show a.assignAll (a.set (a.assignAll (a.set (a.assignAll w as) x.1 x.2) between) x.1 x.2) behind
      = _
    rw [ha.set_of_get_eq hheld]
  · intro w'
    refine ⟨?_, ha.eq_of_get⟩
    rintro rfl f
    rfl

/-- An addition whose destination is overwritten twice, with bits that do not fit
    the fields: the other operands stay, and neither the order of the opcode nor
    a value given once more makes a difference. -/
theorem assignAll_reads_overwritten :
    (accessors.Lawful ∧ Field.opcode ≠ Field.rd ∧
      ∀ b ∈ [(Field.opcode, 0x5C)], b.1 ≠ Field.rd) ∧
    (∀ f, accessors.get
        (accessors.assignAll 0x012A4020 [(.rd, 0xFF), (.opcode, 0x5C), (.rd, 0x28)]) f
      = (if f = .opcode then 0x1C else if f = .rd then 8 else accessors.get 0x012A4020 f)) ∧
    accessors.assignAll 0x012A4020 [(.rd, 0xFF), (.opcode, 0x5C), (.rd, 0x28)]
      = accessors.assignAll 0x012A4020 [(.rd, 0xFF), (.rd, 0x28), (.opcode, 0x5C)] ∧
    accessors.assignAll 0x012A4020 [(.rd, 0x28), (.opcode, 0x5C), (.rd, 0x28), (.rs, 3)]
      = accessors.assignAll 0x012A4020 [(.rd, 0x28), (.opcode, 0x5C), (.rs, 3)] := by
  have hbetween : ∀ b ∈ [(Field.opcode, 0x5C)], b.1 ≠ Field.rd := by simp
  obtain ⟨hreads, -, -, -, -⟩ :=
    assignAll_reads accessors_lawful 0x012A4020 [(.rd, 0xFF), (.opcode, 0x5C), (.rd, 0x28)]
  obtain ⟨-, -, hswap, -, -⟩ := assignAll_reads accessors_lawful 0x012A4020 [(.rd, 0xFF)]
  obtain ⟨-, -, -, hrepeat, -⟩ := assignAll_reads accessors_lawful 0x012A4020 []
  refine ⟨⟨accessors_lawful, by decide, hbetween⟩, ?_,
    hswap (.opcode, 0x5C) (.rd, 0x28) [] (by decide),
    hrepeat (.rd, 0x28) [(.opcode, 0x5C)] [(.rs, 3)] hbetween⟩
  intro f
  rw [hreads f]
  cases f <;> rfl

end Word

end Mips32
