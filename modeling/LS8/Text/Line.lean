/-
LS8/Text/Line.lean

Lines of a text.  A newline ends a line, together with one carriage return
straight before it; no other character separates lines.  A text that ends in a
newline has no further, empty line after it.
-/
namespace LS8.Text

/-- The pieces of a text between its newlines: always one more than there are newlines. -/
def segments (text : List Char) : List (List Char) := text.splitOn '\n'

/-- Drop one carriage return from the end. -/
def dropReturn (segment : List Char) : List Char :=
  if segment.getLast? = some '\r' then segment.dropLast else segment

/-- The lines of a text, without what ends them. -/
def lines (text : List Char) : List (List Char) :=
  let segs := segments text
  let last := segs.getLast?.getD []
  segs.dropLast.map dropReturn ++ if last.isEmpty then [] else [last]

end LS8.Text
