/-
LS8/Program/Flaw.lean

What can be wrong with the text of a program, and how it is reported.
-/
import LS8.Program.Line

namespace LS8.Program

/-- A byte for which memory has no room. -/
structure Overflow where
  /-- The address where the byte was to go. -/
  address : Nat
  /-- The number of cells of the memory. -/
  capacity : Nat
  deriving DecidableEq, Repr

/-- The ways in which a line can be wrong. -/
inductive Cause where
  /-- The line spells no byte. -/
  | invalidBinary (reason : Misspelling)
  /-- The line holds the first byte for which memory has no room. -/
  | tooLarge (overflow : Overflow)
  deriving DecidableEq, Repr

/-- What is wrong, in words. -/
def Cause.message : Cause → String
  | .invalidBinary _ => "not an 8-bit binary number"
  | .tooLarge overflow =>
    let address := String.ofList (Numeral.lowerHex overflow.address)
    s!"program does not fit into memory at address `0x{address}`"

/-- What the message refers to. -/
def Cause.context : Cause → String
  | .invalidBinary (.text text) => s!"`{String.ofList text}`"
  | .invalidBinary (.digits failure) => failure.message
  | .tooLarge overflow => s!"memory holds {overflow.capacity} bytes"

/-- The address without a cell, where a byte was to go there. -/
def Cause.address? : Cause → Option Nat
  | .invalidBinary _ => none
  | .tooLarge overflow => some overflow.address

/-- A flaw in the text of a program. -/
structure Flaw where
  /-- The number of the line, counted from 1. -/
  line : Nat
  cause : Cause
  deriving DecidableEq, Repr

/-- The report of a flaw. -/
def Flaw.message (flaw : Flaw) : String :=
  s!"error [ln: {flaw.line}]: {flaw.cause.message} - {flaw.cause.context}"

/-- The report of all flaws of a program together. -/
def summary (flaws : List Flaw) : String := s!"program has {flaws.length} malformed line(s)"

end LS8.Program
