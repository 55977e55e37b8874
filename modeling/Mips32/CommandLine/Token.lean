/-! # Arguments as tokens

    An argument spells an OPTION, which takes a value, a SWITCH, which takes
    none, or a REQUEST, which is answered at once.  All have a long name; some
    have a letter, and letters may be grouped behind one dash, in which case an
    option's value is the rest of the group.

    Reading arguments as tokens never fails: what cannot be read becomes a
    token that says so.  Which of two faults is reported is decided later, when
    the tokens are settled from left to right. -/

namespace Mips32.Options

/-- What takes a value. -/
inductive Valued
  /-- The binary to read. -/
  | file
  /-- Where the listing is saved. -/
  | save
  /-- The address of the first word. -/
  | base
  /-- How many workers decode. -/
  | jobs
deriving DecidableEq, Repr

/-- What is given or not. -/
inductive Switch
  /-- Write to the standard output. -/
  | stdout
  /-- Leave out the lines around the words. -/
  | noFraming
  /-- Go on behind an unrecognized word. -/
  | keepGoing
deriving DecidableEq, Repr

/-- What is answered in place of doing anything. -/
inductive Request
  | help | version
deriving DecidableEq, Repr

/-- Anything that has a name. -/
inductive Key
  | valued (option : Valued)
  | switch (switch : Switch)
  | request (request : Request)
deriving DecidableEq, Repr

/-- The key with a long name. -/
def Key.named? (name : String) : Option Key :=
  [("file", Key.valued .file), ("save", .valued .save), ("base", .valued .base),
   ("jobs", .valued .jobs), ("stdout", .switch .stdout),
   ("no-framing", .switch .noFraming), ("keep-going", .switch .keepGoing),
   ("help", .request .help), ("version", .request .version)].lookup name

/-- The key with a letter. -/
def Key.lettered? (letter : Char) : Option Key :=
  [('f', Key.valued .file), ('s', .valued .save), ('b', .valued .base),
   ('j', .valued .jobs), ('k', .switch .keepGoing), ('h', .request .help),
   ('V', .request .version)].lookup letter

/-- An option as a message shows it: its long name and what its value is. -/
def Valued.usage : Valued → String
  | .file => "--file <path>"
  | .save => "--save <path>"
  | .base => "--base <address>"
  | .jobs => "--jobs <count>"

/-- Why the arguments give no options. -/
inductive Halt
  /-- Something else was asked for. -/
  | requested (request : Request)
  /-- An argument spells nothing. -/
  | unknownArgument
  /-- A value for what takes none. -/
  | tooManyValues
  /-- No value for what takes one, or an empty one where that names nothing. -/
  | invalidValue
  /-- Something was given twice. -/
  | repeated
  /-- A value that the option does not accept. -/
  | rejected (option : Valued) (value reason : String)
  /-- The binary was not given. -/
  | noFile
deriving DecidableEq, Repr

/-- A piece of the arguments. -/
inductive Token
  /-- An option and its value in one argument. -/
  | attached (option : Valued) (value : String)
  /-- An option, and its value in the next argument, if that can be one. -/
  | separate (option : Valued) (value : Option String)
  /-- A switch. -/
  | switch (switch : Switch)
  /-- A request. -/
  | request (request : Request)
  /-- What cannot be read. -/
  | bad (reason : Halt)
deriving DecidableEq, Repr

/-- One argument: its tokens, and the option that awaits its value behind
    them. -/
structure Reading where
  /-- The tokens. -/
  tokens : List Token
  /-- The option whose value the next argument may be. -/
  awaiting : Option Valued := none

/-- An argument behind two dashes. -/
def readLong (cs : List Char) : Reading :=
  match Key.named? (String.ofList (cs.takeWhile (· ≠ '='))), cs.dropWhile (· ≠ '=') with
  | none, _ => { tokens := [.bad .unknownArgument] }
  | some (.valued o), [] => { tokens := [], awaiting := some o }
  | some (.valued o), _ :: value => { tokens := [.attached o (String.ofList value)] }
  | some (.switch s), [] => { tokens := [.switch s] }
  | some (.request r), [] => { tokens := [.request r] }
  | some _, _ :: _ => { tokens := [.bad .tooManyValues] }

/-- A group of letters behind one dash. -/
def readGroup : List Char → Reading
  | [] => { tokens := [] }
  | c :: cs =>
    match Key.lettered? c with
    | none => { tokens := [.bad .unknownArgument] }
    | some (.switch s) =>
      { tokens := .switch s :: (readGroup cs).tokens, awaiting := (readGroup cs).awaiting }
    | some (.request r) => { tokens := [.request r] }
    | some (.valued o) =>
      match cs with
      | [] => { tokens := [], awaiting := some o }
      | '=' :: value => { tokens := [.attached o (String.ofList value)] }
      | value => { tokens := [.attached o (String.ofList value)] }

/-- One argument. -/
def readArgument : List Char → Reading
  | '-' :: '-' :: cs => readLong cs
  | ['-'] => { tokens := [.bad .unknownArgument] }
  | '-' :: cs => readGroup cs
  | _ => { tokens := [.bad .unknownArgument] }

/-- Whether an argument can be the value of the option before it: it must not
    look like an option itself. -/
def canBeValue (argument : String) : Bool :=
  match argument.toList with
  | ['-'] => true
  | '-' :: _ => false
  | _ => true

/-- The token of an option that got no value. -/
def unmet : Option Valued → List Token
  | none => []
  | some o => [.separate o none]

/-- The tokens of arguments, behind an option that awaits its value if there is
    one.  Nothing may stand behind a double dash. -/
def tokensBehind (awaiting : Option Valued) : List String → List Token
  | [] => unmet awaiting
  | argument :: rest =>
    match awaiting, canBeValue argument with
    | some o, true => .separate o (some argument) :: tokensBehind none rest
    | _, _ =>
      if argument = "--" then
        unmet awaiting ++ if rest.isEmpty then [] else [.bad .unknownArgument]
      else
        let reading := readArgument argument.toList
        unmet awaiting ++ reading.tokens ++ tokensBehind reading.awaiting rest

/-- The tokens of all arguments. -/
def tokens (arguments : List String) : List Token := tokensBehind none arguments

end Mips32.Options
