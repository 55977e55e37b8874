import Mips32.Text.Parts

/-! # Lines of a text

    A line feed ends a line, together with ONE carriage return if that stands
    directly before it.  What stands behind the last line feed is a line as
    well, unless it is empty. -/

namespace Mips32.Lines

/-- A line without the carriage return that may stand before its line feed. -/
def withoutReturn (line : List Char) : List Char :=
  if line.getLast? = some '\r' then line.dropLast else line

/-- The lines of a text, without what ends them. -/
def lines (text : String) : List String :=
  let parts := Parts.split '\n' text.toList
  let ended := parts.dropLast.map withoutReturn
  let open? := parts.getLast?.filter fun last => !last.isEmpty
  (ended ++ open?.toList).map String.ofList

/-- The first line of a text. -/
def headline (text : String) : String := (lines text).headD ""

end Mips32.Lines
