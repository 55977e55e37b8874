import Mips32.CommandLine.Arguments
import Mips32.CommandLine.Logger
import Mips32.Directory
import Mips32.Program

/-! # A platform to run on

    Libraries for the program, and a directory for it to work in: enough to see a
    run of it from the arguments to the files.  One worker stands in for all pools,
    a line reaches its writer as its text and its line feed, and the logger reads
    the time from a clock. -/

namespace Mips32

/-- A single worker stands in for every pool. -/
def Batch.Pools.inTurn : Batch.Pools where
  start _ := .ok .inTurn
  shared := .inTurn

/-- What ends in a line feed is handed over with the line feed apart. -/
def Pieces.endApart : Pieces where
  cut bytes := if bytes.getLast? = some 0x0A then [bytes.dropLast, [0x0A]] else [bytes]
  flatten_cut bytes := by
    split
    · rename_i hlast
      obtain ⟨front, rfl⟩ := List.getLast?_eq_some_iff.mp hlast
      simp
    · simp

namespace CommandLine

/-- The name and version that are shown on request. -/
def version : String := "mips-disasm-cli 0.1.0"

/-- The report of arguments that give no options. -/
def halted : Options.Halt → Program.Report
  | .requested .version => ⟨0, Utf8.bytes (version ++ "\n"), ""⟩
  | .requested .help => ⟨0, Utf8.bytes Options.help, ""⟩
  | h => ⟨2, [], h.message ++ "\n"⟩

/-- The libraries, with a clock for the log. -/
def libraries (clock : Nat → String) : Program.Libraries String String where
  parse arguments := (Options.parse arguments).mapError halted
  display path := path
  pools := .inTurn
  pieces := .endApart
  logged := Log.written clock

/-- The libraries and a directory. -/
def platform (clock : Nat → String) (d : Directory) : Program.Platform String String Place where
  toLibraries := libraries clock
  toFileSystem := d.fileSystem
  stdout := {}

end CommandLine

end Mips32
