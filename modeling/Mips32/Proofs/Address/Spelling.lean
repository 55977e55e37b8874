import Mathlib.Data.List.TakeWhile
import Mathlib.Data.Nat.Digits.Defs
import Mips32.Address

/-! # How an address is spelled

    An address is spelled by a mark for its radix, a plus sign, and digits; the
    first two may be missing.  Its digits stand for a number BY THEIR POSITIONS,
    and that number has to be below the end of the address space.

    Reading takes the digits from left to right and stops at the first thing that
    is wrong.  What it answers depends on the digits up to the first character
    that is none: digits only make the number grow, so if it is too large at any
    of them, it is too large at the last.

    Main statement: `Address.read_of_spelling`. -/

namespace Mips32

namespace Numeral

/-- The place of a character among the digits, in either case of the letters;
    sixteen for a character that is none. -/
def digitPlace (c : Char) : Nat := "0123456789abcdef".toList.idxOf c.toLower

/-- Whether a character is a digit of the radix. -/
def isDigit (radix : Nat) (c : Char) : Bool := decide (digitPlace c < radix)

/-- The number that digits stand for, the last of them counting once. -/
def positional (radix : Nat) (cs : List Char) : Nat :=
  Nat.ofDigits radix (cs.map digitPlace).reverse

/-- A numeral without a plus sign in front of it. -/
def unsigned (cs : List Char) : List Char := if cs.head? = some '+' then cs.tail else cs

theorem positional_cons (radix : Nat) (c : Char) (cs : List Char) :
    positional radix (c :: cs) = digitPlace c * radix ^ cs.length + positional radix cs := by
  rw [positional, List.map_cons, List.reverse_cons, Nat.ofDigits_append, Nat.ofDigits_singleton,
    List.length_reverse, List.length_map, Nat.add_comm, Nat.mul_comm]
  rfl

-- ── Digits ───────────────────────────────────────────────────────────────────

/-- The two radixes that an address is spelled in. -/
def IsRadix (radix : Nat) : Prop := radix = 10 ∨ radix = 16

variable {radix limit acc : Nat}

/-- Beyond ASCII there are no digits, in either way of telling them. -/
theorem no_digit_of_le {c : Char} (h : 128 ≤ c.toNat) :
    digitValue c = none ∧ digitPlace c = 16 := by
  have hbeyond (d : Char) (hd : d.toNat < 128) : ¬ c ≤ d := by
    intro hle
    have : c.toNat ≤ d.toNat := hle
    omega
  have hlower : c.toLower = c := by
    refine dif_neg ?_
    rintro ⟨-, hle⟩
    exact hbeyond 'Z' (by decide) hle
  constructor
  · rw [digitValue, if_neg (fun hr => hbeyond '9' (by decide) hr.2),
      if_neg (fun hr => hbeyond 'z' (by decide) hr.2),
      if_neg (fun hr => hbeyond 'Z' (by decide) hr.2)]
  · have hascii : "0123456789abcdef".toList.all fun d => decide (d.toNat < 128) := rfl
    rw [digitPlace, hlower]
    refine List.idxOf_eq_length fun hmem => ?_
    have := of_decide_eq_true (List.all_eq_true.mp hascii c hmem)
    omega

/-- A character is read as a digit by its place. -/
theorem digit?_eq (h : IsRadix radix) (c : Char) :
    digit? radix c = if isDigit radix c then some (digitPlace c) else none := by
  by_cases hc : c.toNat < 128
  · have hascii : ∀ n : Fin 128, ∀ radix ∈ [10, 16], digit? radix (Char.ofNat n)
        = if isDigit radix (Char.ofNat n) then some (digitPlace (Char.ofNat n)) else none := by
      decide +kernel
    rw [← Char.ofNat_toNat c]
    refine hascii ⟨c.toNat, hc⟩ radix ?_
    rcases h with rfl | rfl <;> decide
  · obtain ⟨hvalue, hplace⟩ := no_digit_of_le (Nat.le_of_not_lt hc)
    have hnone : isDigit radix c = false := by
      rw [isDigit, hplace]
      rcases h with rfl | rfl <;> rfl
    rw [digit?, hvalue, hnone]
    rfl

-- ── Reading digits ───────────────────────────────────────────────────────────

/-- **DIGITS ARE READ UP TO THE FIRST THING THAT IS WRONG**, and the number can
    only grow on the way there. -/
theorem readDigits_eq (h : IsRadix radix) (hacc : acc < limit) (cs : List Char) :
    readDigits radix limit acc cs
      = if limit ≤ acc * radix ^ (cs.takeWhile (isDigit radix)).length
            + positional radix (cs.takeWhile (isDigit radix)) then .error .tooLarge
        else if cs.all (isDigit radix) then
          .ok (acc * radix ^ cs.length + positional radix cs)
        else .error .invalidDigit := by
  induction cs generalizing acc with
  | nil =>
      have hpos : positional radix [] = 0 := rfl
      simp [readDigits, hpos, hacc]
  | cons c cs ih =>
      rw [readDigits, digit?_eq h, List.takeWhile_cons, List.all_cons]
      cases hc : isDigit radix c with
      | false =>
          have hpos : positional radix [] = 0 := rfl
          simp [hpos, hacc]
      | true =>
          -- the digit moves what was read before it on by one position
          have hmove (ds : List Char) :
              acc * radix ^ (c :: ds).length + positional radix (c :: ds)
                = (acc * radix + digitPlace c) * radix ^ ds.length + positional radix ds := by
            rw [positional_cons, List.length_cons, Nat.pow_succ', ← Nat.mul_assoc, ← Nat.add_assoc,
              Nat.add_mul]
          simp only [if_true, Bool.true_and]
          rw [hmove, hmove]
          by_cases hlt : acc * radix + digitPlace c < limit
          · rw [if_pos hlt, ih hlt]
          · have hpos : 0 < radix := by
              rcases h with rfl | rfl <;> decide
            have hgrown : acc * radix + digitPlace c ≤ (acc * radix + digitPlace c)
                * radix ^ (cs.takeWhile (isDigit radix)).length :=
              Nat.le_mul_of_pos_right _ (Nat.pow_pos hpos)
            rw [if_neg hlt, if_pos (by omega)]

/-- A sign is passed over if something stands behind it. -/
theorem read_eq_readDigits {cs : List Char} (h : unsigned cs ≠ []) :
    read radix limit cs = readDigits radix limit 0 (unsigned cs) := by
  unfold read
  split
  · exact absurd rfl h
  · exact absurd rfl h
  · rfl
  · rename_i hplus
    have hhead : cs.head? ≠ some '+' := by
      intro hhead
      obtain ⟨rest, rfl⟩ := List.head?_eq_some_iff.mp hhead
      exact hplus rest rfl
    rw [unsigned, if_neg hhead]

/-- **READING A NUMERAL**: there has to be something, and the digits behind the
    sign decide. -/
theorem read_eq (h : IsRadix radix) (hlimit : 0 < limit) (cs : List Char) :
    read radix limit cs
      = if cs = [] then .error .empty
        else if limit ≤ positional radix ((unsigned cs).takeWhile (isDigit radix)) then
          .error .tooLarge
        else if unsigned cs ≠ [] ∧ (unsigned cs).all (isDigit radix) = true then
          .ok (positional radix (unsigned cs))
        else .error .invalidDigit := by
  by_cases hnil : cs = []
  · subst hnil
    rfl
  rw [if_neg hnil]
  by_cases hdigits : unsigned cs = []
  · -- nothing but a sign
    have hsign : cs = ['+'] := by
      unfold unsigned at hdigits
      split at hdigits
      · rename_i hhead
        obtain ⟨rest, rfl⟩ := List.head?_eq_some_iff.mp hhead
        rw [show rest = [] from hdigits]
      · exact absurd hdigits hnil
    have hsmall : ¬ limit ≤ positional radix (([] : List Char).takeWhile (isDigit radix)) :=
      Nat.not_le_of_lt hlimit
    rw [hdigits, if_neg hsmall, if_neg (fun hok => hok.1 rfl), hsign]
    rfl
  · rw [read_eq_readDigits hdigits, readDigits_eq h hlimit]
    simp [hdigits]

end Numeral

/-! ## Addresses -/

namespace Address

/-- Whether a text is marked as hexadecimal. -/
def Marked (cs : List Char) : Prop := ['0', 'x'] <+: cs ∨ ['0', 'X'] <+: cs

instance (cs : List Char) : Decidable (Marked cs) := inferInstanceAs (Decidable (_ ∨ _))

/-- The radix that a text spells its address in. -/
def radixOf (cs : List Char) : Nat := if Marked cs then 16 else 10

/-- The text behind the mark. -/
def numeralOf (cs : List Char) : List Char := if Marked cs then cs.drop 2 else cs

theorem isRadix_radixOf (cs : List Char) : Numeral.IsRadix (radixOf cs) := by
  unfold radixOf
  split
  · exact .inr rfl
  · exact .inl rfl

theorem number_eq_read (cs : List Char) :
    number cs = Numeral.read (radixOf cs) (2 ^ 32) (numeralOf cs) := by
  unfold number
  split
  · rename_i rest
    have hmarked : Marked ('0' :: 'x' :: rest) := .inl ⟨rest, rfl⟩
    rw [radixOf, numeralOf, if_pos hmarked, if_pos hmarked]
    rfl
  · rename_i rest
    have hmarked : Marked ('0' :: 'X' :: rest) := .inr ⟨rest, rfl⟩
    rw [radixOf, numeralOf, if_pos hmarked, if_pos hmarked]
    rfl
  · rename_i hsmall hcapital
    have hmarked : ¬ Marked cs := by
      rintro (⟨rest, rfl⟩ | ⟨rest, rfl⟩)
      · exact hsmall rest rfl
      · exact hcapital rest rfl
    rw [radixOf, numeralOf, if_neg hmarked, if_neg hmarked]
    rfl

theorem read_eq_ok_iff (text : String) (address : Address) :
    read text = .ok address ↔
      ∃ n, number text.toList = .ok n ∧ BitVec.ofNat 32 n = address := by
  rw [read]
  cases number text.toList with
  | ok n => simp
  | error reason => simp

theorem message_inj {reason reason' : Numeral.Fault} (h : reason.message = reason'.message) :
    reason = reason' := by
  revert h
  cases reason <;> cases reason' <;> decide

/-- A text is refused for a reason exactly if its number is. -/
theorem refused_iff (text : String) (reason : Numeral.Fault) :
    (∃ e, read text = .error e ∧ e.message
        = "invalid address " ++ Quoted.quote text ++ ": " ++ reason.message) ↔
      number text.toList = .error reason := by
  rw [read]
  constructor
  · rintro ⟨e, hread, hmessage⟩
    cases hnumber : number text.toList with
    | ok n =>
        rw [hnumber] at hread
        cases hread
    | error reason' =>
        rw [hnumber] at hread
        cases hread
        exact congrArg Except.error (message_inj ((String.append_right_inj _).mp hmessage))
  · intro hnumber
    rw [hnumber]
    exact ⟨_, rfl, rfl⟩

/-- **AN ADDRESS IS READ AS IT IS SPELLED.**  Behind the mark of the radix and one
    plus sign, there have to be digits of that radix and nothing else, and the
    number that they stand for by their positions is the address.  If there is
    nothing behind the mark, that is the fault; otherwise a number that is too
    large at the last digit in a row, whatever stands behind it; and an invalid
    digit in all other cases. -/
theorem read_of_spelling (text : String) :
    let radix := radixOf text.toList
    let numeral := numeralOf text.toList
    let digits := Numeral.unsigned numeral
    let Spelled := digits ≠ [] ∧ digits.all (Numeral.isDigit radix) = true
    let leading := Numeral.positional radix (digits.takeWhile (Numeral.isDigit radix))
    let Refused (reason : String) := ∃ e, read text = .error e ∧
      e.message = "invalid address " ++ Quoted.quote text ++ ": " ++ reason
    (∀ address, read text = .ok address ↔
      Spelled ∧ Numeral.positional radix digits = address.toNat) ∧
    (Refused "cannot parse integer from empty string" ↔ numeral = []) ∧
    (Refused "number too large to fit in target type" ↔ 2 ^ 32 ≤ leading) ∧
    (Refused "invalid digit found in string" ↔ numeral ≠ [] ∧ leading < 2 ^ 32 ∧ ¬ Spelled) := by
  intro radix numeral digits Spelled leading Refused
  have hnumber : number text.toList = if numeral = [] then .error .empty
      else if 2 ^ 32 ≤ leading then .error .tooLarge
      else if Spelled then .ok (Numeral.positional radix digits)
      else .error .invalidDigit := by
    rw [number_eq_read, Numeral.read_eq (isRadix_radixOf _) (by decide)]
  have hnothing (h : numeral = []) : digits = [] ∧ leading = 0 := by
    have hdigits : digits = [] := by
      show Numeral.unsigned numeral = []
      rw [h]
      rfl
    refine ⟨hdigits, ?_⟩
    show Numeral.positional radix (digits.takeWhile _) = 0
    rw [hdigits]
    rfl
  have hleading (h : Spelled) : leading = Numeral.positional radix digits := by
    show Numeral.positional radix (digits.takeWhile _) = _
    rw [List.takeWhile_eq_self_iff.mpr (List.all_eq_true.mp h.2)]
  refine ⟨?_, (refused_iff text .empty).trans ?_, (refused_iff text .tooLarge).trans ?_,
    (refused_iff text .invalidDigit).trans ?_⟩
  · intro address
    rw [read_eq_ok_iff, hnumber]
    constructor
    · rintro ⟨n, hn, rfl⟩
      split_ifs at hn with hnil hlarge hspelled
      cases hn
      rw [BitVec.toNat_ofNat, ← hleading hspelled, Nat.mod_eq_of_lt (Nat.lt_of_not_le hlarge)]
      exact ⟨hspelled, rfl⟩
    · rintro ⟨hspelled, hvalue⟩
      have hsome : numeral ≠ [] := fun hnil => hspelled.1 (hnothing hnil).1
      have hsmall : ¬ 2 ^ 32 ≤ leading := by
        rw [hleading hspelled, hvalue]
        exact Nat.not_le_of_lt address.isLt
      rw [if_neg hsome, if_neg hsmall, if_pos hspelled, hvalue]
      exact ⟨_, rfl, BitVec.ofNat_toNat 32 address⟩
  · rw [hnumber]
    split_ifs with hnil hlarge hspelled
    · exact iff_of_true rfl hnil
    · exact iff_of_false nofun hnil
    · exact iff_of_false nofun hnil
    · exact iff_of_false nofun hnil
  · rw [hnumber]
    split_ifs with hnil hlarge hspelled
    · have hsmall : ¬ 2 ^ 32 ≤ leading := by
        rw [(hnothing hnil).2]
        decide
      exact iff_of_false nofun hsmall
    · exact iff_of_true rfl hlarge
    · exact iff_of_false nofun hlarge
    · exact iff_of_false nofun hlarge
  · rw [hnumber]
    split_ifs with hnil hlarge hspelled
    · exact iff_of_false nofun fun h => h.1 hnil
    · exact iff_of_false nofun fun h => Nat.not_le_of_lt h.2.1 hlarge
    · exact iff_of_false nofun fun h => h.2.2 hspelled
    · exact iff_of_true rfl ⟨hnil, Nat.lt_of_not_le hlarge, hspelled⟩

/-- The sign stands behind the mark, and too large a number is the fault before
    a character that is no digit. -/
example :
    read "0x+1F" = .ok 31 ∧ read "+0x1F" = .error ⟨"+0x1F", .invalidDigit⟩ ∧
      read "42949672960-" = .error ⟨"42949672960-", .tooLarge⟩ := by
  decide

end Address

end Mips32
