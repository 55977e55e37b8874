/-! # Parts of a text

    A separator cuts a text into parts.  Before the first separator and behind
    the last one there is a part as well, so n separators make n + 1 parts,
    some of which may be empty. -/

namespace Mips32.Parts

/-- The parts of a text between its separators. -/
def split (separator : Char) : List Char → List (List Char)
  | [] => [[]]
  | c :: cs =>
    if c = separator then [] :: split separator cs
    else
      match split separator cs with
      | [] => [[c]]
      | part :: parts => (c :: part) :: parts

/-- Parts with the separator between them. -/
def join (separator : Char) (parts : List (List Char)) : List Char :=
  (parts.intersperse [separator]).flatten

end Mips32.Parts
