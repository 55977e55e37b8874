import Mips32.Text.Parts

/-! # Cutting a text

    A text has no separator, or it is one part without a separator, the separator,
    and a text again.  What is to be said of a text can be said in this way from
    its end to its start: `Parts.cutting`. -/

namespace Mips32.Parts

variable {separator : Char}

/-- Up to a separator, there is one part. -/
theorem split_append {cs : List Char} (h : separator ∉ cs) (rest : List Char) :
    split separator (cs ++ separator :: rest) = cs :: split separator rest := by
  induction cs with
  | nil => simp [split]
  | cons c cs ih =>
      rw [List.mem_cons, not_or] at h
      obtain ⟨hc, hcs⟩ := h
      rw [List.cons_append, split, if_neg (Ne.symm hc), ih hcs]

/-- Without a separator, there is one part. -/
theorem split_of_not_mem {cs : List Char} (h : separator ∉ cs) : split separator cs = [cs] := by
  induction cs with
  | nil => rfl
  | cons c cs ih =>
      rw [List.mem_cons, not_or] at h
      obtain ⟨hc, hcs⟩ := h
      rw [split, if_neg (Ne.symm hc), ih hcs]

/-- **PARTS THAT ARE ENDED READ BACK**, with nothing behind the last of them. -/
theorem split_flatMap {parts : List (List Char)} (h : ∀ part ∈ parts, separator ∉ part) :
    split separator (parts.flatMap fun part => part ++ [separator]) = parts ++ [[]] := by
  induction parts with
  | nil => rfl
  | cons part parts ih =>
      rw [List.forall_mem_cons] at h
      rw [List.flatMap_cons, List.append_assoc, List.singleton_append, split_append h.1, ih h.2,
        List.cons_append]

/-- **PART BY PART**: what holds of texts without a separator, and is kept by a part
    in front of a separator, holds of all texts. -/
@[elab_as_elim]
theorem cutting {motive : List Char → Prop} (separator : Char)
    (whole : ∀ cs, separator ∉ cs → motive cs)
    (cut : ∀ cs rest, separator ∉ cs → motive rest → motive (cs ++ separator :: rest))
    (cs : List Char) : motive cs := by
  -- what is behind the first separator is shorter
  induction hlength : cs.length using Nat.strongRecOn generalizing cs with
  | ind n ih =>
      by_cases hmem : separator ∈ cs
      · obtain ⟨front, rest, rfl, hfront⟩ := List.eq_append_cons_of_mem hmem
        refine cut front rest hfront (ih rest.length ?_ rest rfl)
        rw [← hlength, List.length_append, List.length_cons]
        omega
      · exact whole cs hmem

end Mips32.Parts
