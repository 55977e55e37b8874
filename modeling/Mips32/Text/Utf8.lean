/-! # Text as bytes

    Text leaves the program as UTF-8.  A writer may stop in the MIDDLE of a
    character, so bytes are shown as text by keeping every well-formed
    character and putting one replacement character in place of each longest
    run that starts a character and does not finish it. -/

namespace Mips32.Utf8

/-- A text in UTF-8. -/
def bytes (s : String) : List UInt8 := s.toUTF8.data.toList

@[simp] theorem bytes_append (s t : String) : bytes (s ++ t) = bytes s ++ bytes t := by
  simp [bytes, String.toUTF8]

/-- Different texts have different bytes. -/
theorem bytes_inj {s t : String} : bytes s = bytes t ↔ s = t := by
  constructor
  · intro h
    apply String.toByteArray_inj.mp
    exact ByteArray.ext (Array.ext' h)
  · rintro rfl
    rfl

/-- What a first byte promises: how many bytes follow, the bits it contributes,
    and the range of the second byte. -/
structure Lead where
  /-- How many bytes follow. -/
  tail : Nat
  /-- The bits that the first byte itself contributes. -/
  bits : Nat
  /-- The least second byte. -/
  low : Nat := 0x80
  /-- The greatest second byte. -/
  high : Nat := 0xBF

/-- The promise of a byte, unless no character starts with it. -/
def lead? (b : Nat) : Option Lead :=
  if b < 0x80 then some { tail := 0, bits := b }
  else if b < 0xC2 then none
  else if b < 0xE0 then some { tail := 1, bits := b - 0xC0 }
  else if b = 0xE0 then some { tail := 2, bits := 0, low := 0xA0 }
  else if b = 0xED then some { tail := 2, bits := 0x0D, high := 0x9F }
  else if b < 0xF0 then some { tail := 2, bits := b - 0xE0 }
  else if b = 0xF0 then some { tail := 3, bits := 0, low := 0x90 }
  else if b < 0xF4 then some { tail := 3, bits := b - 0xF0 }
  else if b = 0xF4 then some { tail := 3, bits := 4, high := 0x8F }
  else none

/-- A character whose first bytes have been seen. -/
structure Partial where
  /-- How many bytes are still to come. -/
  owed : Nat
  /-- The bits so far. -/
  bits : Nat
  /-- The least next byte. -/
  low : Nat
  /-- The greatest next byte. -/
  high : Nat

/-- The character that stands for bytes that are none. -/
def replacement : Char := '\ufffd'

/-- A byte where a character may start. -/
def start (b : Nat) : List Char × Option Partial :=
  match lead? b with
  | none => ([replacement], none)
  | some l =>
    if l.tail = 0 then ([Char.ofNat l.bits], none)
    else ([], some { owed := l.tail, bits := l.bits, low := l.low, high := l.high })

/-- The next byte: the characters that it settles, and the one left unfinished. -/
def step (p? : Option Partial) (b : Nat) : List Char × Option Partial :=
  match p? with
  | none => start b
  | some p =>
    if p.low ≤ b ∧ b ≤ p.high then
      let bits := p.bits * 64 + (b - 0x80)
      if p.owed = 1 then ([Char.ofNat bits], none)
      else ([], some { owed := p.owed - 1, bits, low := 0x80, high := 0xBF })
    else
      let next := start b
      (replacement :: next.1, next.2)

/-- The characters of a byte sequence behind an unfinished one. -/
def decode (p? : Option Partial) : List UInt8 → List Char
  | [] => if p?.isSome then [replacement] else []
  | b :: bs =>
    let next := step p? b.toNat
    next.1 ++ decode next.2 bs

/-- Bytes shown as text. -/
def text (bs : List UInt8) : String := String.ofList (decode none bs)

end Mips32.Utf8
