/-
LS8/Fault.lean

The faults that stop a cycle of the machine, and their texts.
-/
import LS8.Word
import LS8.Sink
import LS8.Text.Numeral

namespace LS8

/-- Why a cycle, or a direct access to registers or memory, failed. -/
inductive Fault where
  /-- The arithmetic unit has no operation with this code. -/
  | unsupportedOperation (code : Byte)
  /-- Memory has no cell with this address. -/
  | addressOutOfRange (address : Address)
  /-- There is no register with this number. -/
  | registerOutOfRange (index : Byte)
  /-- The register is the stack pointer, which this instruction may not write. -/
  | reservedRegister (index : Byte)
  /-- The divisor is zero. -/
  | divisionByZero
  /-- A push with the stack pointer at the first address. -/
  | stackOverflow
  /-- A pop with the stack pointer at the last address. -/
  | stackUnderflow
  /-- The sink did not take all of a printed line. -/
  | output (cause : Refusal)
  deriving DecidableEq, Repr

/-- The text of a fault. -/
def Fault.message : Fault → String
  | .unsupportedOperation code =>
    s!"unsupported ALU operation `0b{String.ofList (Numeral.binary 8 code.toNat)}`"
  | .addressOutOfRange address =>
    s!"memory has no address `0x{String.ofList (Numeral.lowerHex address.toNat)}`"
  | .registerOutOfRange index => s!"there is no register R{index}"
  | .reservedRegister index =>
    s!"register R{index} is reserved and cannot be written by this instruction"
  | .divisionByZero => "division by zero"
  | .stackOverflow => "stack overflow"
  | .stackUnderflow => "stack underflow"
  | .output _ => "failed to write program output"

/-- The text of what caused a fault, where that has one of its own. -/
def Fault.cause? : Fault → Option String
  | .output cause => some cause.message
  | _ => none

end LS8
