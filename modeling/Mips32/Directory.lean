import Mips32.Files
import Mips32.Text.Parts

/-! # Directories — a file system of folders

    Folders and files have PLACES: the names that lead to them from the root.  A
    path is followed part by part, from the root if it starts with a separator
    and from the folder that the program works in if not, and every part but the
    last has to lead to a folder.  Going up from the root leads nowhere else.

    Folders stay as they are: a program that saves a file makes none. -/

namespace Mips32

/-- A place: the names that lead to it from the root. -/
abbrev Place := List (List Char)

/-- The folders that there are, and the one to work in. -/
structure Directory where
  /-- The folders.  One that another lies in needs no mention. -/
  folders : List Place
  /-- Where a path starts that does not start with a separator. -/
  here : Place
deriving DecidableEq, Repr

namespace Directory

/-- Why a path cannot be used. -/
inductive Fault
  /-- It leads to nothing. -/
  | missing
  /-- It goes on behind a file. -/
  | notFolder
  /-- It leads to a folder. -/
  | isFolder
deriving DecidableEq, Repr

/-- The wording of the operating system. -/
def Fault.message : Fault → String
  | .missing => "No such file or directory (os error 2)"
  | .notFolder => "Not a directory (os error 20)"
  | .isFolder => "Is a directory (os error 21)"

/-- Whether there is a folder at a place. -/
def hasFolder (d : Directory) (p : Place) : Bool :=
  (d.here :: d.folders).any fun q => p.isPrefixOf q

/-- Where one part of a path leads. -/
def step (start : Place) (part : List Char) : Place :=
  if part = [] ∨ part = ['.'] then start
  else if part = ['.', '.'] then start.dropLast
  else start ++ [part]

/-- Follows the parts of a path.  Nothing needs to be where the last one
    leads. -/
def walk (d : Directory) (files : Files Place) (start : Place) :
    List (List Char) → Except Fault Place
  | [] => .ok start
  | part :: rest =>
    let there := step start part
    if rest.isEmpty then .ok there
    else if d.hasFolder there then d.walk files there rest
    else if (files there).isSome then .error .notFolder
    else .error .missing

/-- Follows a path. -/
def follow (d : Directory) (files : Files Place) (parts : List (List Char)) :
    Except Fault Place :=
  match parts with
  | [[]] => .error .missing
  | [] :: _ :: _ => d.walk files [] parts
  | _ => d.walk files d.here parts

/-- Reads a file. -/
def read (d : Directory) (files : Files Place) (path : String) : Except Fault (List UInt8) :=
  match d.follow files (Parts.split '/' path.toList) with
  | .error e => .error e
  | .ok there =>
    if d.hasFolder there then .error .isFolder
    else
      match files there with
      | some bytes => .ok bytes
      | none => .error .missing

/-- The parts of a path before the separators that it ends in. -/
def withoutTrailing (parts : List (List Char)) : List (List Char) :=
  (parts.reverse.dropWhile List.isEmpty).reverse

/-- Finds the place to write a file to.  A path that ends in a separator names a
    folder, whether there is one or not. -/
def create (d : Directory) (files : Files Place) (path : String) : Except Fault Place :=
  let parts := Parts.split '/' path.toList
  if path.isEmpty then .error .missing
  else
    match d.follow files (withoutTrailing parts) with
    | .error e => .error e
    | .ok there =>
      if (withoutTrailing parts).length < parts.length ∨ d.hasFolder there then .error .isFolder
      else .ok there

/-- The directory as a file system that has room for everything. -/
def fileSystem (d : Directory) : FileSystem String Place where
  read files path := (d.read files path).mapError Fault.message
  create files path := (d.create files path).mapError Fault.message
  limits _ := {}

end Directory

end Mips32
