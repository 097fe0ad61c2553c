/-
LS8/Text/Printable.lean

A part of the stand-in for the library that reads arguments, which repeats some
of them in its messages.  What is left of a text when it goes to a place that is
no terminal is all that is printed, and nothing of what tells a terminal how to
print.  Control characters are left out, except the four that lay out a page,
and so are the sequences that ESC opens, from colours (ESC [ … m) to window
titles (ESC ] … BEL).

A sequence that is broken off swallows what comes behind it, as it would on a
terminal; only another ESC, or one of the two characters that cancel, is sure
to end it.
-/
namespace LS8.Text

/-! ### Characters -/

/-- The control characters that lay out a page: tab, line feed, form feed, carriage return. -/
def isLayout (c : Char) : Bool := c == '\t' || c == '\n' || c == '\x0c' || c == '\r'

/-- Is `c` printed where it stands in plain text?  All characters are but the control characters of
ASCII that do not lay out. -/
def isPrinted (c : Char) : Bool := isLayout c || (0x20 ≤ c.toNat && c.toNat != 0x7F)

/-- Does the code of `c` lie between the two bounds? -/
def between (low high : Nat) (c : Char) : Bool := low ≤ c.toNat && c.toNat ≤ high

/-- Does `c` end a control string?  The one-byte form of the string terminator is 9C, and it counts
also as a part of the encoding of a character. -/
def endsString (c : Char) : Bool := (String.utf8EncodeChar c).contains 0x9C

/-! ### Sequences -/

/-- Where a text stands. -/
inductive Mode where
  /-- In plain text. -/
  | text
  /-- Behind ESC. -/
  | escape
  /-- In an escape sequence that goes on to its final character. -/
  | escapeTail
  /-- In a control sequence, ESC `[`. -/
  | sequence
  /-- In front of the parameters of a device control string, ESC `P`. -/
  | deviceEntry
  /-- In the parameters of a device control string. -/
  | deviceParameters
  /-- Behind the parameters of a device control string. -/
  | deviceTail
  /-- In the body of a control string. -/
  | string
  /-- In a command to the operating system, ESC `]`. -/
  | command
  deriving DecidableEq, Repr

namespace Mode

/-- Behind ESC, when the next character opens nothing longer: `stay` if that has no meaning here. -/
def conclude (stay : Mode) (c : Char) : Mode :=
  if between 0x20 0x2F c then .escapeTail else if between 0x30 0x7E c then .text else stay

/-- Where the text stands behind `c`. -/
def next (mode : Mode) (c : Char) : Mode :=
  if c == '\x1b' then .escape
  else if c == '\x18' || c == '\x1a' then .text
  else match mode with
  | .text => .text
  | .escape =>
    match c with
    | '[' => .sequence
    | ']' => .command
    | 'P' => .deviceEntry
    | 'X' | '^' | '_' => .string
    | c => conclude .escape c
  | .escapeTail => conclude .escapeTail c
  | .sequence => if between 0x40 0x7E c then .text else .sequence
  | .deviceEntry =>
    if between 0x20 0x2F c then .deviceTail
    else if between 0x30 0x3F c then .deviceParameters
    else if between 0x40 0x7E c then .string
    else .deviceEntry
  | .deviceParameters =>
    if between 0x20 0x2F c then .deviceTail
    else if between 0x3C 0x7E c then .string
    else .deviceParameters
  | .deviceTail => if between 0x30 0x7E c then .string else .deviceTail
  | .string => if endsString c then .text else .string
  | .command => if c == '\x07' then .text else .command

/-- Is `c` printed here?  The layout of a page goes through short sequences, but not through
strings. -/
def prints : Mode → Char → Bool
  | .text, c => isPrinted c
  | .escape, c | .escapeTail, c | .sequence, c => isLayout c
  | _, _ => false

end Mode

/-! ### Scanning -/

/-- The reader of a text. -/
structure Scanner where
  /-- Where the text stands. -/
  mode : Mode
  /-- Is the mode set aside?  That happens when a character is printed: what follows is printed too,
  up to a control character, which is then taken in the mode. -/
  aside : Bool
  deriving DecidableEq, Repr

namespace Scanner

/-- In front of the text. -/
def start : Scanner := ⟨.text, false⟩

/-- Is `c` printed? -/
def prints (s : Scanner) (c : Char) : Bool := if s.aside then isPrinted c else s.mode.prints c

/-- The reader behind `c`.  A character beyond ASCII that is printed ends the mode set aside. -/
def next (s : Scanner) (c : Char) : Scanner :=
  if s.aside && isPrinted c then (if c.toNat < 0x80 then s else start)
  else ⟨s.mode.next c, s.prints c⟩

/-- What is printed of a text. -/
def printed : Scanner → List Char → List Char
  | _, [] => []
  | s, c :: rest =>
    if s.prints c then c :: (s.next c).printed rest else (s.next c).printed rest

end Scanner

/-- What is printed of a text. -/
def printable (text : List Char) : List Char := Scanner.start.printed text

end LS8.Text
