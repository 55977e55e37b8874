/-! # Numerals — numbers as text and back

    Numbers are written in decimal, or in lower-case hexadecimal behind `0x`:
    in as few digits as they need, or padded with zeros to a fixed count.  A
    negative number carries its sign in front of the `0x`.

    Reading is STRICTER AND LOOSER at once: one plus sign and any number of
    leading zeros are accepted, capital digits too, but no other character is,
    and the value has to stay below a limit.  Digits are taken from left to
    right and the first one that fails decides which fault is reported. -/

namespace Mips32.Numeral

/-- The digits of a number in the given radix, most significant first. -/
def digits (radix n : Nat) : List Char := Nat.toDigits radix n

/-- A number in decimal. -/
def decimal (n : Nat) : String := String.ofList (digits 10 n)

/-- A number in hexadecimal, in as few digits as it needs. -/
def hex (n : Nat) : String := "0x" ++ String.ofList (digits 16 n)

/-- A number in hexadecimal, in at least `count` digits. -/
def hexPadded (count n : Nat) : String :=
  "0x" ++ String.ofList ((digits 16 n).leftpad count '0')

/-- A number in hexadecimal, with the sign in front of the `0x`. -/
def hexSigned (v : Int) : String := if v < 0 then "-" ++ hex v.natAbs else hex v.natAbs

/-- Why a text is no numeral. -/
inductive Fault
  /-- There is no text at all. -/
  | empty
  /-- A character that is no digit, or no digit behind a sign. -/
  | invalidDigit
  /-- The value reaches the limit. -/
  | tooLarge
deriving DecidableEq, Repr

/-- The wording of a numeral fault. -/
def Fault.message : Fault → String
  | .empty => "cannot parse integer from empty string"
  | .invalidDigit => "invalid digit found in string"
  | .tooLarge => "number too large to fit in target type"

/-- What a character counts as a digit, with letters of either case from ten on. -/
def digitValue (c : Char) : Option Nat :=
  if '0' ≤ c ∧ c ≤ '9' then some (c.toNat - '0'.toNat)
  else if 'a' ≤ c ∧ c ≤ 'z' then some (c.toNat - 'a'.toNat + 10)
  else if 'A' ≤ c ∧ c ≤ 'Z' then some (c.toNat - 'A'.toNat + 10)
  else none

/-- What a character counts as a digit of this radix. -/
def digit? (radix : Nat) (c : Char) : Option Nat := (digitValue c).filter (· < radix)

/-- Reads the remaining digits behind those whose value is `acc`. -/
def readDigits (radix limit acc : Nat) : List Char → Except Fault Nat
  | [] => .ok acc
  | c :: cs =>
    match digit? radix c with
    | none => .error .invalidDigit
    | some d =>
      if acc * radix + d < limit then readDigits radix limit (acc * radix + d) cs
      else .error .tooLarge

/-- Reads a whole text as a numeral below `limit`. -/
def read (radix limit : Nat) : List Char → Except Fault Nat
  | [] => .error .empty
  | ['+'] => .error .invalidDigit
  | '+' :: cs => readDigits radix limit 0 cs
  | cs => readDigits radix limit 0 cs

end Mips32.Numeral
