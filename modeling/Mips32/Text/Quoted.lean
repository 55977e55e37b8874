import Mips32.Text.Numeral
import Mips32.Text.Printable

/-! # Quoted text

    Text that a user supplied is shown between double quotes.  The quote and
    the backslash, five controls with a letter of their own, and every
    character that is not printable are ESCAPED, so the quoted form is one
    visible line and ends at its first unescaped quote. -/

namespace Mips32.Quoted

/-- One character inside the quotes. -/
def escape (c : Char) : List Char :=
  if c = '\x00' then ['\\', '0']
  else if c = '\t' then ['\\', 't']
  else if c = '\r' then ['\\', 'r']
  else if c = '\n' then ['\\', 'n']
  else if c = '\\' then ['\\', '\\']
  else if c = '"' then ['\\', '"']
  else if Printable.isPrintable c then [c]
  else ['\\', 'u', '\x7b'] ++ Numeral.digits 16 c.toNat ++ ['\x7d']

/-- A text between quotes, character by character. -/
def encode (s : List Char) : List Char := '"' :: (s.flatMap escape ++ ['"'])

/-- A text between quotes. -/
def quote (s : String) : String := String.ofList (encode s.toList)

end Mips32.Quoted
