import Mips32.Address

/-! # Options — what the arguments ask for

    How arguments spell them is up to whoever reads the arguments.  Paths are
    whatever the operating system takes for paths. -/

namespace Mips32

/-- What the program is asked to do. -/
structure Options (Path : Type) where
  /-- The binary to read. -/
  file : Path
  /-- Where the listing is saved. -/
  save : Path
  /-- Whether it goes to the standard output instead. -/
  stdout : Bool := false
  /-- The address of the first word. -/
  base : Address := 0
  /-- Whether the lines around the words are left out. -/
  noFraming : Bool := false
  /-- Whether unrecognized words become comments. -/
  keepGoing : Bool := false
  /-- How many workers decode. -/
  jobs : Nat := 1
deriving DecidableEq, Repr

end Mips32
