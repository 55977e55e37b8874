import Mips32.CommandLine.Terminal
import Mips32.CommandLine.Token
import Mips32.Options
import Mips32.Text.Lines

/-! # Reading arguments

    The tokens of the arguments are settled from left to right, and the first
    fault is the one reported.  An option whose value is an argument of its own
    is settled LATE, together with the token behind it: if that one cannot be
    read, it is the fault, whatever is wrong with the value.

    Each option and switch may be given once.  Only the binary has to be given;
    the rest have defaults.

    This is one way to read arguments: the program takes any, and what is proved of
    the program does not depend on it. -/

namespace Mips32

namespace Options

/-- What was given so far. -/
structure Given where
  /-- The binary to read. -/
  file : Option String := none
  /-- Where the listing is saved. -/
  save : Option String := none
  /-- The address of the first word. -/
  base : Option Address := none
  /-- How many workers decode. -/
  jobs : Option Nat := none
  /-- The switches. -/
  switches : List Switch := []
deriving DecidableEq, Repr

/-- Whether an option was given already. -/
def Given.has (g : Given) : Valued → Bool
  | .file => g.file.isSome
  | .save => g.save.isSome
  | .base => g.base.isSome
  | .jobs => g.jobs.isSome

/-- Gives an option a value that it accepts. -/
def Given.accept (g : Given) (o : Valued) (value : String) : Except Halt Given :=
  match o with
  | .file => if value = "" then .error .invalidValue else .ok { g with file := some value }
  | .save => if value = "" then .error .invalidValue else .ok { g with save := some value }
  | .base =>
    match Address.read value with
    | .ok a => .ok { g with base := some a }
    | .error e => .error (.rejected .base value e.message)
  | .jobs =>
    match Numeral.read 10 0x10000000000000000 value.toList with
    | .ok n => .ok { g with jobs := some n }
    | .error e => .error (.rejected .jobs value e.message)

/-- Gives an option its value, if there is one and it is the first. -/
def Given.assign (g : Given) (o : Valued) : Option String → Except Halt Given
  | none => .error .invalidValue
  | some value => if g.has o then .error .repeated else g.accept o value

/-- The options, once everything was given. -/
def Given.finish (g : Given) : Except Halt (Options String) :=
  match g.file with
  | none => .error .noFile
  | some file =>
    let defaults : Options String := { file, save := "mips32_disass_output.s" }
    .ok {
      file
      save := g.save.getD defaults.save
      stdout := g.switches.contains .stdout
      base := g.base.getD defaults.base
      noFraming := g.switches.contains .noFraming
      keepGoing := g.switches.contains .keepGoing
      jobs := g.jobs.getD defaults.jobs }

/-- Settles the tokens behind what was given already. -/
def settle (g : Given) : List Token → Except Halt (Options String)
  | [] => g.finish
  | .bad reason :: _ => .error reason
  | .request r :: _ => .error (.requested r)
  | .switch s :: ts =>
    if g.switches.contains s then .error .repeated
    else settle { g with switches := s :: g.switches } ts
  | .attached o value :: ts =>
    match g.assign o (some value) with
    | .error reason => .error reason
    | .ok g => settle g ts
  | .separate _ _ :: .bad reason :: _ => .error reason
  | .separate o value :: ts =>
    match g.assign o value with
    | .error reason => .error reason
    | .ok g => settle g ts

/-- Reads the arguments behind the program's name. -/
def parse (arguments : List String) : Except Halt (Options String) := settle {} (tokens arguments)

/-- The wording of what kept the arguments from giving options.  A value is shown
    without what a terminal would take for commands. -/
def Halt.message : Halt → String
  | .requested .help => "help was requested"
  | .requested .version => "the version was requested"
  | .unknownArgument => "error: unexpected argument"
  | .tooManyValues => "error: unexpected value for a switch"
  | .invalidValue => "error: a value is required for an option but none was supplied"
  | .repeated => "error: an argument cannot be used multiple times"
  | .rejected o value reason =>
    "error: invalid value '" ++ Terminal.shown .ends value ++ "' for '" ++ o.usage ++ "': "
      ++ reason
  | .noFile => "error: the required argument --file <path> was not provided"

/-- The first line of that wording. -/
def Halt.headline (h : Halt) : String := Lines.headline h.message

/-- How the program is used. -/
def help : String :=
  "Disassembles raw little-endian MIPS32 binaries into assembly listings\n\n"
    ++ "  -f, --file <path>     the raw binary\n"
    ++ "  -s, --save <path>     where to write the listing\n"
    ++ "      --stdout          write it to the standard output instead\n"
    ++ "  -b, --base <address>  the address of the first word\n"
    ++ "      --no-framing      leave out the lines around the words\n"
    ++ "  -k, --keep-going      write unrecognized words as comments\n"
    ++ "  -j, --jobs <count>    how many workers decode\n"
    ++ "  -h, --help            show this text\n"
    ++ "  -V, --version         show the version\n"

end Options

end Mips32
