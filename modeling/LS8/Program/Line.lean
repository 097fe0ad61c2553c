/-
LS8/Program/Line.lean

One line of a program file.  The line is cut at its first `#`, which starts a
comment, and trimmed of white space.  What is left is nothing, or a byte in one
to eight binary digits, or not part of a program.
-/
import LS8.Word
import LS8.Text.Numeral
import LS8.Text.Blank

namespace LS8.Program

/-- The longest spelling of a byte. -/
def maxDigits : Nat := 8

/-- A line without its comment and without the white space around the rest. -/
def content (line : List Char) : List Char := Text.trim (line.takeWhile (· != '#'))

/-- Why a text spells no byte. -/
inductive Misspelling where
  /-- It has other characters than binary digits, or too many of them. -/
  | text (text : List Char)
  /-- Its digits cannot be read as a byte. -/
  | digits (failure : Numeral.Failure)
  deriving DecidableEq, Repr

/-- Read the byte that `text` spells.  It need not be complete: leading zeros may be left out. -/
def readSpelling (text : List Char) : Except Misspelling Byte :=
  if text.all Numeral.isBit && text.length ≤ maxDigits then
    (Numeral.readByte text).mapError .digits
  else .error (.text text)

/-- What a line contributes to a program. -/
inductive Line where
  /-- Nothing: the line is empty or a comment. -/
  | blank
  /-- The next byte. -/
  | byte (value : Byte)
  /-- The line is not empty and spells no byte. -/
  | malformed (reason : Misspelling)
  deriving DecidableEq, Repr

/-- Read one line. -/
def Line.read (line : List Char) : Line :=
  let text := content line
  if text.isEmpty then .blank
  else match readSpelling text with
    | .ok value => .byte value
    | .error reason => .malformed reason

end LS8.Program
