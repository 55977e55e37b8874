import Mips32.Log
import Mips32.Text.Parts

/-! # Paths — does a name promise a raw binary?

    A path names its last COMPONENT, whatever directory part stands before it
    and whatever separators and single dots follow.  The extension is what
    stands behind the component's last dot, and a dot at its very start opens
    no extension.

    Binaries are expected to have the extension `bin`; any other path is worth
    a warning, but is read all the same. -/

namespace Mips32.Path

/-- The components of a path: the parts that lead somewhere. -/
def components (path : List Char) : List (List Char) :=
  (Parts.split '/' path).filter fun part => part ≠ [] ∧ part ≠ ['.']

/-- The name that a path ends in, unless it ends by going up. -/
def fileName (path : List Char) : Option (List Char) :=
  match (components path).getLast? with
  | none => none
  | some name => if name = ['.', '.'] then none else some name

/-- What stands behind the last dot of a name, if something stands before it. -/
def extensionOf (name : List Char) : Option (List Char) :=
  let behind := (name.reverse.takeWhile (· ≠ '.')).reverse
  if behind.length + 1 < name.length then some behind else none

/-- The extension of a path. -/
def extension (path : String) : Option (List Char) :=
  (fileName path.toList).bind extensionOf

/-- The warning that a path does not promise a raw binary. -/
def extensionWarning (path : String) : Log.Record :=
  ⟨.warn, .program,
    path ++ " does not have a .bin extension, treating it as a raw binary anyway"⟩

/-- The warnings that a path is worth. -/
def checkExtension (path : String) : List Log.Record :=
  if extension path = some ['b', 'i', 'n'] then [] else [extensionWarning path]

end Mips32.Path
