import Mips32.Text.Numeral

/-! # Reading numerals back

    A numeral is read from left to right: a sign, the radix in front of the
    digits, and the digits, each of which multiplies what was read before.  There
    is no limit to the value.

    Main statements: `natural?_decimal` and `integer?_hexSigned`.  Whatever is
    written in either radix reads back as the number it was written for, also out
    of a longer text, if no letter or digit stands behind it. -/

namespace Mips32

-- ── Where a part of a text ends ──────────────────────────────────────────────

/-- A text is taken as far as its characters go, if what is behind it starts with
    another one. -/
theorem takeWhile_of_boundary {p : Char → Bool} {cs rest : List Char}
    (hin : ∀ c ∈ cs, p c = true) (hstop : ∀ c, rest.head? = some c → p c = false) :
    (cs ++ rest).takeWhile p = cs ∧ (cs ++ rest).dropWhile p = rest := by
  rw [List.takeWhile_append_of_pos hin, List.dropWhile_append_of_pos hin]
  cases rest with
  | nil => exact ⟨List.append_nil cs, rfl⟩
  | cons c rest => simp [hstop c rfl]

/-- From its end, a text is taken back to its last mark. -/
theorem takeWhile_reverse {mark : Char} {behind rest : List Char} (h : mark ∉ behind)
    (hstop : ∀ c, rest.head? = some c → c = mark) :
    (behind.reverse ++ rest).takeWhile (· ≠ mark) = behind.reverse := by
  refine (takeWhile_of_boundary ?_ ?_).1
  · intro c hc
    rw [decide_eq_true_iff]
    rintro rfl
    exact h (List.mem_reverse.mp hc)
  · intro c hc
    rw [hstop c hc]
    exact decide_eq_false fun hne => hne rfl

/-- Two texts that fall apart in this way are the same only if their parts are. -/
theorem append_inj_of_boundary {p : Char → Bool} {cs ds rest rest' : List Char}
    (hcs : ∀ c ∈ cs, p c = true) (hds : ∀ c ∈ ds, p c = true)
    (hstop : ∀ c, rest.head? = some c → p c = false)
    (hstop' : ∀ c, rest'.head? = some c → p c = false) (h : cs ++ rest = ds ++ rest') :
    cs = ds ∧ rest = rest' := by
  obtain ⟨htake, hdrop⟩ := takeWhile_of_boundary hcs hstop
  obtain ⟨htake', hdrop'⟩ := takeWhile_of_boundary hds hstop'
  rw [h] at htake hdrop
  exact ⟨htake.symm.trans htake', hdrop.symm.trans hdrop'⟩

namespace Numeral

/-- The number that digits stand for behind those that gave `acc`. -/
def digitsOnto (radix acc : Nat) : List Char → Option Nat
  | [] => some acc
  | c :: cs =>
    match digit? radix c with
    | none => none
    | some d => digitsOnto radix (acc * radix + d) cs

/-- The number that one or more digits stand for. -/
def ofDigits? (radix : Nat) (cs : List Char) : Option Nat :=
  if cs.isEmpty then none else digitsOnto radix 0 cs

/-- The number of a numeral without a sign: hexadecimal behind `0x`, decimal
    otherwise. -/
def natural? : List Char → Option Nat
  | '0' :: 'x' :: cs => ofDigits? 16 cs
  | cs => ofDigits? 10 cs

/-- The number of a numeral that may have a minus sign. -/
def integer? : List Char → Option Int
  | '-' :: cs => (natural? cs).map fun n : Nat => -(n : Int)
  | cs => (natural? cs).map fun n : Nat => (n : Int)

-- ── Digits ───────────────────────────────────────────────────────────────────

theorem digit?_digitChar {radix d : Nat} (hd : d < radix) (hradix : radix ≤ 16) :
    digit? radix d.digitChar = some d := by
  have hvalue : ∀ e : Fin 16, digitValue (Nat.digitChar e) = some e.val := by decide
  rw [digit?, hvalue ⟨d, by omega⟩]
  simp [hd]

/-- **DIGIT BY DIGIT**: what holds of the digits below the radix, and is kept by one
    more behind a number that is not zero, holds of all numbers and their digits. -/
theorem digits_induction {radix : Nat} (hradix : 1 < radix) {motive : Nat → List Char → Prop}
    (digit : ∀ d, d < radix → motive d [d.digitChar])
    (concat : ∀ n d cs, 0 < n → d < radix → motive n cs →
      motive (radix * n + d) (cs ++ [d.digitChar]))
    (n : Nat) : motive n (digits radix n) := by
  induction n using Nat.strongRecOn with
  | ind n ih =>
      by_cases hn : n < radix
      · rw [digits, Nat.toDigits_of_lt_base hn]
        exact digit n hn
      · have hle : radix ≤ n := Nat.le_of_not_lt hn
        have hfront := ih (n / radix) (Nat.div_lt_self (by omega) hradix)
        have hwhole := concat (n / radix) (n % radix) _ (Nat.div_pos hle (by omega))
          (Nat.mod_lt n (by omega)) hfront
        rw [Nat.div_add_mod] at hwhole
        rwa [digits, Nat.toDigits_of_base_le hradix hle]

/-- What is written in a radix is made of its digits. -/
theorem exists_digitChar_of_mem {radix n : Nat} (hradix : 1 < radix) {c : Char}
    (h : c ∈ digits radix n) : ∃ d, d < radix ∧ c = d.digitChar := by
  refine digits_induction (motive := fun _ cs => ∀ c ∈ cs, ∃ d, d < radix ∧ c = d.digitChar)
    hradix ?_ ?_ n c h
  · intro d hd
    rw [List.forall_mem_singleton]
    exact ⟨d, hd, rfl⟩
  · intro n d cs _ hd hcs
    rw [List.forall_mem_append, List.forall_mem_singleton]
    exact ⟨hcs, d, hd, rfl⟩

theorem digitsOnto_append (radix acc : Nat) (cs ds : List Char) :
    digitsOnto radix acc (cs ++ ds)
      = (digitsOnto radix acc cs).bind fun n => digitsOnto radix n ds := by
  induction cs generalizing acc with
  | nil => rfl
  | cons c cs ih =>
      simp only [List.cons_append, digitsOnto]
      cases digit? radix c with
      | none => rfl
      | some d => exact ih _

theorem digitsOnto_digits {radix : Nat} (hradix : 1 < radix) (hle : radix ≤ 16) (n : Nat) :
    digitsOnto radix 0 (digits radix n) = some n := by
  refine digits_induction (motive := fun n cs => digitsOnto radix 0 cs = some n) hradix ?_ ?_ n
  · intro d hd
    simp [digitsOnto, digit?_digitChar hd hle]
  · intro n d cs _ hd hcs
    rw [digitsOnto_append, hcs]
    simp [digitsOnto, digit?_digitChar hd hle, Nat.mul_comm]

theorem digits_ne_nil (radix n : Nat) : digits radix n ≠ [] := by
  simp [digits, Nat.toDigits_ne_nil]

/-- **DIGITS READ BACK**: written in a radix and read in it, a number is the
    same. -/
theorem ofDigits?_digits {radix : Nat} (hradix : 1 < radix) (hle : radix ≤ 16) (n : Nat) :
    ofDigits? radix (digits radix n) = some n := by
  rw [ofDigits?, if_neg (by simp [digits_ne_nil]), digitsOnto_digits hradix hle]

/-- Zeros in front of the digits do not matter. -/
theorem digitsOnto_zeros {radix : Nat} (hradix : 0 < radix) (count : Nat) (cs : List Char) :
    digitsOnto radix 0 (List.replicate count '0' ++ cs) = digitsOnto radix 0 cs := by
  have hzero : digit? radix '0' = some 0 := by
    rw [digit?, show digitValue '0' = some 0 from rfl]
    simp [hradix]
  induction count with
  | zero => rfl
  | succ count ih =>
      rw [List.replicate_succ, List.cons_append, digitsOnto, hzero]
      show digitsOnto radix (0 * radix + 0) _ = _
      rw [Nat.zero_mul, ih]

-- ── Numerals ─────────────────────────────────────────────────────────────────

/-- Without padding, a number has the digits that it needs. -/
theorem hex_eq_hexPadded (n : Nat) : hex n = hexPadded 0 n := by
  simp [hex, hexPadded, List.leftpad]

theorem toList_hexPadded (count n : Nat) :
    (hexPadded count n).toList
      = '0' :: 'x' :: (List.replicate (count - (digits 16 n).length) '0' ++ digits 16 n) := by
  simp [hexPadded, List.leftpad]

theorem toList_decimal (n : Nat) : (decimal n).toList = digits 10 n := by
  simp [decimal]

theorem natural?_hexPadded (count n : Nat) : natural? (hexPadded count n).toList = some n := by
  rw [toList_hexPadded]
  show ofDigits? 16 _ = some n
  rw [ofDigits?, if_neg (by simp [digits_ne_nil]), digitsOnto_zeros (by decide),
    digitsOnto_digits (by decide) (by decide)]

theorem natural?_hex (n : Nat) : natural? (hex n).toList = some n := by
  rw [hex_eq_hexPadded]
  exact natural?_hexPadded 0 n

theorem natural?_decimal (n : Nat) : natural? (decimal n).toList = some n := by
  rw [toList_decimal, ← ofDigits?_digits (by decide : 1 < 10) (by decide) n]
  unfold natural?
  split
  · rename_i cs hcs
    obtain ⟨d, hd, hx⟩ := exists_digitChar_of_mem (by decide : 1 < 10)
      (show 'x' ∈ digits 10 n by simp [hcs])
    have hmark : ∀ e : Fin 10, Nat.digitChar e ≠ 'x' := by decide
    exact absurd hx.symm (hmark ⟨d, hd⟩)
  · rfl

theorem decimal_inj {m n : Nat} (h : decimal m = decimal n) : m = n := by
  have hread := natural?_decimal m
  rw [h, natural?_decimal] at hread
  exact (Option.some.inj hread).symm

-- ── The characters of a numeral ──────────────────────────────────────────────

theorem isAlphanum_of_mem_digits {radix n : Nat} (hradix : 1 < radix) (hle : radix ≤ 16)
    {c : Char} (h : c ∈ digits radix n) : c.isAlphanum = true := by
  have hdigit : ∀ e : Fin 16, (Nat.digitChar e).isAlphanum = true := by decide
  obtain ⟨d, hd, rfl⟩ := exists_digitChar_of_mem hradix h
  exact hdigit ⟨d, by omega⟩

theorem isAlphanum_of_mem_decimal {n : Nat} {c : Char} (h : c ∈ (decimal n).toList) :
    c.isAlphanum = true := by
  rw [toList_decimal] at h
  exact isAlphanum_of_mem_digits (by decide) (by decide) h

theorem isAlphanum_of_mem_hexPadded {count n : Nat} {c : Char}
    (h : c ∈ (hexPadded count n).toList) : c.isAlphanum = true := by
  rw [toList_hexPadded, List.mem_cons, List.mem_cons, List.mem_append] at h
  rcases h with rfl | rfl | hzero | hdigit
  · rfl
  · rfl
  · rw [List.eq_of_mem_replicate hzero]
    rfl
  · exact isAlphanum_of_mem_digits (by decide) (by decide) hdigit

theorem isAlphanum_of_mem_hex {n : Nat} {c : Char} (h : c ∈ (hex n).toList) :
    c.isAlphanum = true := by
  rw [hex_eq_hexPadded] at h
  exact isAlphanum_of_mem_hexPadded h

theorem isAlphanum_of_mem_hexSigned {v : Int} {c : Char} (h : c ∈ (hexSigned v).toList) :
    c.isAlphanum = true ∨ c = '-' := by
  rw [hexSigned] at h
  by_cases hv : v < 0
  · rw [if_pos hv, String.toList_append] at h
    rcases List.mem_append.mp h with hminus | hdigit
    · exact .inr (List.mem_singleton.mp hminus)
    · exact .inl (isAlphanum_of_mem_hex hdigit)
  · rw [if_neg hv] at h
    exact .inl (isAlphanum_of_mem_hex h)

/-- **A NUMERAL ENDS BY ITSELF**: in front of anything but letters and digits, it
    can be told from what is behind it, and its number read. -/
theorem hexPadded_append_inj {count count' m n : Nat} {rest rest' : List Char}
    (hstop : ∀ c, rest.head? = some c → c.isAlphanum = false)
    (hstop' : ∀ c, rest'.head? = some c → c.isAlphanum = false)
    (h : (hexPadded count m).toList ++ rest = (hexPadded count' n).toList ++ rest') :
    m = n ∧ rest = rest' := by
  obtain ⟨hnumeral, hrest⟩ := append_inj_of_boundary (fun c => isAlphanum_of_mem_hexPadded)
    (fun c => isAlphanum_of_mem_hexPadded) hstop hstop' h
  have hread := natural?_hexPadded count m
  rw [hnumeral, natural?_hexPadded] at hread
  exact ⟨(Option.some.inj hread).symm, hrest⟩

-- ── Signs ────────────────────────────────────────────────────────────────────

theorem integer?_of_not_mem {cs : List Char} (h : '-' ∉ cs) :
    integer? cs = (natural? cs).map fun n : Nat => (n : Int) := by
  unfold integer?
  split
  · exact absurd (List.mem_cons_self ..) h
  · rfl

theorem integer?_decimal (n : Nat) : integer? (decimal n).toList = some (n : Int) := by
  rw [integer?_of_not_mem, natural?_decimal]
  · rfl
  · exact fun h => absurd (isAlphanum_of_mem_decimal h) (by decide)

theorem integer?_hex (n : Nat) : integer? (hex n).toList = some (n : Int) := by
  rw [integer?_of_not_mem, natural?_hex]
  · rfl
  · exact fun h => absurd (isAlphanum_of_mem_hex h) (by decide)

/-- **SIGNED NUMERALS READ BACK**, the sign in front of the radix included. -/
theorem integer?_hexSigned (v : Int) : integer? (hexSigned v).toList = some v := by
  unfold hexSigned
  by_cases hv : v < 0
  · rw [if_pos hv, String.toList_append]
    show (natural? (hex v.natAbs).toList).map (fun n : Nat => -(n : Int)) = some v
    rw [natural?_hex, Option.map_some]
    congr 1
    omega
  · rw [if_neg hv, integer?_hex]
    congr 1
    omega

end Numeral

end Mips32
