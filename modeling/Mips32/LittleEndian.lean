import Mips32.BitRange

/-! # Little-endian words — four bytes, the lowest first

    A binary is a sequence of bytes and a word takes four of them.  Cutting a
    sequence into words leaves a TAIL of up to three bytes. -/

namespace Mips32.LittleEndian

/-- The number that a sequence of bytes stands for. -/
def value : List UInt8 → Nat
  | [] => 0
  | b :: bs => b.toNat + 256 * value bs

/-- The word in four bytes. -/
def word (bs : List UInt8) : Word := BitVec.ofNat 32 (value bs)

/-- `words`, behind those that were cut already. -/
def wordsOnto (acc : Array Word) : List UInt8 → Array Word × List UInt8
  | a :: b :: c :: d :: rest => wordsOnto (acc.push (word [a, b, c, d])) rest
  | tail => (acc, tail)

/-- The whole words at the front of a sequence of bytes, and the tail. -/
def words (bs : List UInt8) : Array Word × List UInt8 := wordsOnto #[] bs

end Mips32.LittleEndian
