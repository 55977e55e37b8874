import Mips32.CommandLine.Terminal
import Mips32.Log

/-! # A logger

    Each record that the filter keeps is written with its time, its level, its
    origin and its text, without what a terminal would take for commands, line
    ends INCLUDED: a sequence that is left open takes the last one with it, and
    whatever is written next stands on the same line. -/

namespace Mips32.Log

/-- A text whose lines are indented, apart from the first one. -/
def indented (text : String) : String :=
  String.ofList (text.toList.flatMap fun c => if c = '\n' then "\n    ".toList else [c])

/-- A record as it is written behind a time: its level in five columns, its
    origin, and its text. -/
def Record.written (time : String) (r : Record) : String :=
  Terminal.shown .suspends
    ("[" ++ time ++ String.ofList (r.level.name.toList.rightpad 5 ' ') ++ " " ++ r.origin.target
      ++ "] " ++ indented r.text ++ "\n")

/-- The records that a filter keeps, each with the time at which it was written. -/
def written (clock : Nat → String) (filter : Filter) (log : List Record) : String :=
  String.join ((log.filter filter.admits).mapIdx fun i r => r.written (clock i))

end Mips32.Log
