import Mips32.Text.Utf8

/-! # Terminal text — what a text shows

    A terminal takes some characters of a text for commands: the controls, and
    SEQUENCES that start with an escape.  Where no terminal reads along, only
    the rest is shown; of the controls, the blank ones stay.

    A sequence runs up to its final character, or a string inside it up to a
    terminator.  A sequence that never ends takes the rest of the text with
    it.  Messages about arguments and log records are written in this way. -/

namespace Mips32.Terminal

/-- Where a text stands among the characters of a sequence. -/
inductive Sequence
  /-- Outside all sequences. -/
  | ground
  /-- Behind an escape. -/
  | escape
  /-- Behind an escape and further characters before the final one. -/
  | intermediate
  /-- In a control sequence, which an opening bracket starts. -/
  | control
  /-- In a command to the operating system, which a closing bracket starts. -/
  | command
  /-- Behind the P that starts a device control string. -/
  | device
  /-- Among the parameters of a device control string. -/
  | deviceParameter
  /-- Between those parameters and the final character. -/
  | deviceIntermediate
  /-- In a string: of a device, a start of string, a privacy message or an
      application's command. -/
  | string
deriving DecidableEq, Repr

/-- Whether a character lies between two others. -/
def within (low high c : Char) : Bool := decide (low ≤ c) && decide (c ≤ high)

/-- Whether a control is blank: a tabulator, or a line or page end. -/
def isBlank (c : Char) : Bool := c = '\t' || c = '\n' || c = '\x0c' || c = '\r'

/-- Whether a character is shown outside the sequences. -/
def isText (c : Char) : Bool := isBlank c || (decide (' ' ≤ c) && decide (c ≠ '\x7f'))

/-- Whether the string terminator 0x9C is among the bytes of a character. -/
def holdsTerminator (c : Char) : Bool := (Utf8.bytes (String.singleton c)).contains 0x9C

/-- Where a character that is not shown leads.  A cancel and a substitute end
    every sequence, and an escape starts a new one. -/
def Sequence.next (s : Sequence) (c : Char) : Sequence :=
  if c = '\x18' ∨ c = '\x1a' then .ground
  else if c = '\x1b' then .escape
  else
    match s with
    | .ground => .ground
    | .escape =>
      if c = '[' then .control
      else if c = ']' then .command
      else if c = 'P' then .device
      else if c = 'X' ∨ c = '^' ∨ c = '_' then .string
      else if within ' ' '/' c then .intermediate
      else if within '0' '~' c then .ground
      else .escape
    | .intermediate => if within '0' '~' c then .ground else .intermediate
    | .control => if within '@' '~' c then .ground else .control
    | .command => if c = '\x07' then .ground else .command
    | .device =>
      if within ' ' '/' c then .deviceIntermediate
      else if within '0' '?' c then .deviceParameter
      else if within '@' '~' c then .string
      else .device
    | .deviceParameter =>
      if within ' ' '/' c then .deviceIntermediate
      else if within '<' '~' c then .string
      else .deviceParameter
    | .deviceIntermediate => if within '0' '~' c then .string else .deviceIntermediate
    | .string => if holdsTerminator c then .ground else .string

/-- Whether a character is shown there: outside the sequences every text
    character, in an escape or control sequence the blank ones, and the others
    while it is suspended. -/
def Sequence.shows (s : Sequence) (suspended : Bool) (c : Char) : Bool :=
  match s with
  | .ground => isText c
  | .escape | .intermediate | .control => isBlank c || (suspended && isText c)
  | _ => false

/-- What becomes of a sequence that a blank character stands in. -/
inductive Interruption
  /-- It is over. -/
  | ends
  /-- It goes on at the next character that is no text, unless one beyond ASCII
      comes first. -/
  | suspends
deriving DecidableEq, Repr

/-- The sequence that waits behind a character that is shown. -/
def Interruption.waiting (i : Interruption) (s : Sequence) (c : Char) : Sequence :=
  match i with
  | .ends => .ground
  | .suspends => if c ≤ '\x7f' then s else .ground

/-- The characters that are shown of a text inside a sequence, which may be
    suspended. -/
def visible (i : Interruption) (suspended : Bool) (s : Sequence) : List Char → List Char
  | [] => []
  | c :: cs =>
    if s.shows suspended c then c :: visible i true (i.waiting s c) cs
    else visible i false (s.next c) cs

/-- What a text shows. -/
def shown (i : Interruption) (text : String) : String :=
  String.ofList (visible i false .ground text.toList)

end Mips32.Terminal
