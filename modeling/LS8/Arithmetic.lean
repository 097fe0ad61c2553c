/-
LS8/Arithmetic.lean

The arithmetic unit.  Registers are bytes and arithmetic wraps around at 256:
`2 - 3` leaves 255 and `16 * 16` leaves 0.  Division truncates and has no
result for the divisor zero.

An operation on registers has two halves.  The calculation reads both
registers and computes; it is what the journal records.  Only then is the
result stored in the first register, which may still be refused.
-/
import LS8.Opcode
import LS8.Registers

namespace LS8

/-- Compute `x op y`. -/
def Operation.compute (op : Operation) (x y : Byte) : Except Fault Byte :=
  match op with
  | .add => .ok (x + y)
  | .sub => .ok (x - y)
  | .mul => .ok (x * y)
  | .div => if y = 0 then .error .divisionByZero else .ok (x / y)

/-- What the arithmetic unit computed, and on which registers. -/
structure Calculation where
  op : Operation
  /-- The register of the first operand, where the result goes. -/
  target : Byte
  /-- The register of the second operand. -/
  source : Byte
  left : Byte
  right : Byte
  result : Byte
  deriving DecidableEq, Repr

namespace Registers

/-- Read two registers and compute with them. -/
def calculate (r : Registers) (op : Operation) (target source : Byte) :
    Except Fault Calculation := do
  let left ← r.get target
  let right ← r.get source
  let result ← op.compute left right
  return ⟨op, target, source, left, right, result⟩

/-- Keep the result of a calculation. -/
def store (r : Registers) (c : Calculation) : Except Fault Registers :=
  r.setGeneral c.target c.result

/-- What a request to the arithmetic unit did: the calculation, if it came to one, and the registers
or the fault at the end. -/
structure Attempt where
  calculation? : Option Calculation
  result : Except Fault Registers

/-- Calculate and keep the result. -/
def combine (r : Registers) (op : Operation) (target source : Byte) : Attempt :=
  match r.calculate op target source with
  | .ok c => ⟨some c, r.store c⟩
  | .error fault => ⟨none, .error fault⟩

/-- Calculate and keep the result, with the operation chosen by its opcode byte. -/
def combineByCode (r : Registers) (code target source : Byte) : Attempt :=
  match Operation.ofByte? code with
  | some op => r.combine op target source
  | none => ⟨none, .error (.unsupportedOperation code)⟩

end Registers

end LS8
