/-! # Log records

    What the decoder, the listing and the program note while they work.  A
    record carries its level and where it comes from; a FILTER keeps the
    records up to one level, or none at all.  How a record is written is up to
    the logger. -/

namespace Mips32

namespace Log

/-- How important a record is, the most important first. -/
inductive Level
  | error | warn | info | debug | trace
deriving DecidableEq, Repr

/-- The level's name. -/
def Level.name : Level → String
  | .error => "ERROR"
  | .warn => "WARN"
  | .info => "INFO"
  | .debug => "DEBUG"
  | .trace => "TRACE"

/-- Levels count upwards from the most important one. -/
def Level.rank : Level → Nat
  | .error => 1
  | .warn => 2
  | .info => 3
  | .debug => 4
  | .trace => 5

/-- The part that a record comes from. -/
inductive Origin
  /-- The program itself. -/
  | program
  /-- The listing. -/
  | listing
  /-- The decoder of a stream or a buffer. -/
  | decoder
deriving DecidableEq, Repr

/-- The origin as a record shows it. -/
def Origin.target : Origin → String
  | .program => "mips32_disasm"
  | .listing => "mips32_disasm::listing"
  | .decoder => "mips_disasm::disassembler"

/-- One note. -/
structure Record where
  /-- How important it is. -/
  level : Level
  /-- Where it comes from. -/
  origin : Origin
  /-- What it says. -/
  text : String
deriving DecidableEq, Repr

/-- The records to keep: those up to a level, or none. -/
abbrev Filter := Option Level

/-- The filter that a word asks for. -/
def Filter.named? (word : String) : Option Filter :=
  [("off", none), ("error", some Level.error), ("warn", some .warn), ("info", some .info),
   ("debug", some .debug), ("trace", some .trace)].lookup word

/-- Whether a filter keeps a record. -/
def Filter.admits (f : Filter) (r : Record) : Bool :=
  match f with
  | none => false
  | some l => decide (r.level.rank ≤ l.rank)

end Log

end Mips32
