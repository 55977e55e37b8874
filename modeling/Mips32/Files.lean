import Mips32.Sink

/-! # Files

    A file is known by its identity, which a path may lead to or not: two paths
    may lead to one file.  What it holds is a list of bytes, and a file that there
    is not holds nothing, not even no bytes.

    Where paths lead is up to the FILE SYSTEM.  It may refuse to read or to write
    for reasons of its own, and then says which. -/

namespace Mips32

/-- What each file holds. -/
abbrev Files (File : Type) := File → Option (List UInt8)

namespace Files

variable {File : Type}

/-- No file at all. -/
def none : Files File := fun _ => .none

variable [DecidableEq File]

/-- The files with one of them made, or what it held replaced. -/
def put (files : Files File) (f : File) (bytes : List UInt8) : Files File :=
  fun g => if g = f then some bytes else files g

end Files

/-- What an operating system makes of paths. -/
structure FileSystem (Path File : Type) where
  /-- The bytes that reading at a path gives, or why it gives none. -/
  read : Files File → Path → Except String (List UInt8)
  /-- The file that is opened for writing at a path, emptied or made, or why none
      is. -/
  create : Files File → Path → Except String File
  /-- What a file takes that is opened for writing. -/
  limits : File → Limits

end Mips32
