/-
LS8/Program/File.lean

Loading a program from a file.  A file that cannot be read, or that holds no
text, fails before any line of it is looked at.
-/
import LS8.Program.Loader

namespace LS8.Program

variable {size : Nat}

/-- Why a file gave no text. -/
inductive ReadFailure where
  /-- There is no such file. -/
  | notFound
  /-- The path names a directory. -/
  | isDirectory
  /-- The path goes through something that is no directory. -/
  | notDirectory
  /-- A name in the path is too long. -/
  | nameTooLong
  /-- The bytes of the file are not UTF-8. -/
  | notText
  /-- Something else, as the system describes it. -/
  | other (description : String)
  deriving DecidableEq, Repr

/-- The text of a failure to read. -/
def ReadFailure.message : ReadFailure → String
  | .notFound => "No such file or directory (os error 2)"
  | .isDirectory => "Is a directory (os error 21)"
  | .notDirectory => "Not a directory (os error 20)"
  | .nameTooLong => "File name too long (os error 36)"
  | .notText => "stream did not contain valid UTF-8"
  | .other description => description

/-- What reading a path gave. -/
abbrev Content := Except ReadFailure ByteArray

/-- The text of a file. -/
def Content.text (content : Content) : Except ReadFailure (List Char) := do
  match String.fromUTF8? (← content) with
  | some text => return text.toList
  | none => throw .notText

/-- Why a program was not loaded from a file. -/
inductive LoadFailure where
  | unreadable (failure : ReadFailure)
  | malformed (flaws : List Flaw)
  deriving DecidableEq, Repr

/-- The texts of a failure to load, from the outside in. -/
def LoadFailure.messages : LoadFailure → List String
  | .unreadable failure => ["failed to read program", failure.message]
  | .malformed flaws => [summary flaws]

/-- Load a program from a file into an empty memory. -/
def loadFile (content : Content) : Except LoadFailure (Loaded size) :=
  match content.text with
  | .error failure => .error (.unreadable failure)
  | .ok text => (load Memory.zero text).mapError .malformed

end LS8.Program
