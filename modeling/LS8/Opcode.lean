/-
LS8/Opcode.lean

The instruction table.  An opcode byte is laid out as `AABCDDDD`: `AA` is the
number of operand bytes that follow, `B` marks arithmetic.  The layout alone
fixes the width of an instruction, also of a byte that is in no table; which
operation runs is decided by the whole byte.

The table gives every opcode its byte, its mnemonic and the number of operands
it uses.  `width_byte` and `isArithmetic_byte` say that the layout of the bytes
agrees with it, and `ofByte?_eq_some_iff` that no two opcodes share a byte.
-/
import LS8.Word

namespace LS8

/-! ### The layout of an opcode byte -/

/-- The width in bytes of an instruction that starts with `code`. -/
def widthOf (code : Byte) : Byte := (code >>> 6) + 1

theorem widthOf_toNat (code : Byte) : (widthOf code).toNat = code.toNat / 64 + 1 := by
  have h : code.toNat / 64 + 1 < 256 := by have := code.toNat_lt; omega
  simp [widthOf, Nat.shiftRight_eq_div_pow, Nat.mod_eq_of_lt h]

theorem one_le_widthOf (code : Byte) : 1 ≤ (widthOf code).toNat := by
  rw [widthOf_toNat]
  omega

theorem widthOf_le_four (code : Byte) : (widthOf code).toNat ≤ 4 := by
  have hcode := code.toNat_lt
  rw [widthOf_toNat]
  omega

/-- Does the layout of `code` mark an arithmetic instruction? -/
def isArithmetic (code : Byte) : Bool := (code >>> 5) &&& 1 == 1

/-- A code that is in no row of a table of operations. -/
structure UnknownCode where
  /-- The name of the table. -/
  table : String
  /-- The code looked up. -/
  code : Byte
  deriving DecidableEq, Repr

/-- The text of a failed look-up. -/
def UnknownCode.message (u : UnknownCode) : String :=
  s!"No discriminant in enum `{u.table}` matches the value `{u.code}`"

/-! ### Operations of the arithmetic unit -/

/-- What the arithmetic unit can compute. -/
inductive Operation where
  | add
  | sub
  | mul
  | div
  deriving DecidableEq, Repr

namespace Operation

/-- All operations, in the order of their bytes. -/
def all : List Operation := [.add, .sub, .mul, .div]

/-- The opcode byte of an operation. -/
def byte : Operation → Byte
  | .add => 0b10100000
  | .sub => 0b10100001
  | .mul => 0b10100010
  | .div => 0b10100011

/-- The name of an operation in the journal. -/
def name : Operation → String
  | .add => "Add"
  | .sub => "Sub"
  | .mul => "Mul"
  | .div => "Div"

/-- The operation with this opcode byte. -/
def ofByte? (code : Byte) : Option Operation := all.find? (·.byte == code)

/-- The failure to find `code` among the operations. -/
def unknown (code : Byte) : UnknownCode := ⟨"AluOp", code⟩

@[simp] theorem ofByte?_byte (op : Operation) : ofByte? op.byte = some op := by
  cases op <;> decide

end Operation

/-! ### The opcodes -/

/-- What an instruction does, without its operands. -/
inductive Opcode where
  /-- Load a byte into a register. -/
  | ldi
  /-- Print a register. -/
  | prn
  /-- Stop the machine. -/
  | hlt
  /-- Move the top of the stack into a register. -/
  | pop
  /-- Move a register onto the stack. -/
  | push
  /-- Combine two registers and keep the result in the first. -/
  | arith (op : Operation)
  deriving DecidableEq, Repr

namespace Opcode

/-- The instruction table, in the order in which it is published. -/
def all : List Opcode := [.ldi, .prn, .hlt, .pop, .push] ++ Operation.all.map .arith

/-- The byte of an opcode. -/
def byte : Opcode → Byte
  | .ldi => 0b10000010
  | .prn => 0b01000111
  | .hlt => 0b00000001
  | .pop => 0b01000110
  | .push => 0b01000101
  | .arith op => op.byte

/-- The mnemonic of an opcode. -/
def mnemonic : Opcode → String
  | .ldi => "LDI"
  | .prn => "PRN"
  | .hlt => "HLT"
  | .pop => "POP"
  | .push => "PUSH"
  | .arith .add => "ADD"
  | .arith .sub => "SUB"
  | .arith .mul => "MUL"
  | .arith .div => "DIV"

/-- How many operand bytes an instruction with this opcode uses. -/
def operands : Opcode → Byte
  | .ldi | .arith _ => 2
  | .prn | .pop | .push => 1
  | .hlt => 0

/-- The operation of an arithmetic opcode. -/
def operation? : Opcode → Option Operation
  | .arith op => some op
  | _ => none

/-- The opcode with this byte. -/
def ofByte? (code : Byte) : Option Opcode := all.find? (·.byte == code)

/-- The failure to find `code` in the instruction table. -/
def unknown (code : Byte) : UnknownCode := ⟨"Opcode", code⟩

/-- Opcodes are ordered by their bytes. -/
instance : LE Opcode := ⟨fun x y => x.byte ≤ y.byte⟩

instance : DecidableRel (α := Opcode) (· ≤ ·) :=
  fun x y => inferInstanceAs (Decidable (x.byte ≤ y.byte))

/-- Put opcodes into the order of their bytes. -/
def sort (opcodes : List Opcode) : List Opcode := opcodes.mergeSort fun x y => decide (x ≤ y)

/-! ### Table and layout agree -/

@[simp] theorem ofByte?_byte (op : Opcode) : ofByte? op.byte = some op := by
  rcases op with _ | _ | _ | _ | _ | (_ | _ | _ | _) <;> decide

theorem ofByte?_eq_some_iff {code : Byte} {op : Opcode} : ofByte? code = some op ↔ code = op.byte :=
  ⟨fun h => (beq_iff_eq.mp (List.find?_some h :)).symm, fun h => h ▸ ofByte?_byte op⟩

/-- The width of an instruction is its opcode byte and its operands. -/
theorem width_byte (op : Opcode) : widthOf op.byte = op.operands + 1 := by
  rcases op with _ | _ | _ | _ | _ | (_ | _ | _ | _) <;> decide

/-- The layout marks exactly the opcodes of the arithmetic unit. -/
theorem isArithmetic_byte (op : Opcode) : isArithmetic op.byte = op.operation?.isSome := by
  rcases op with _ | _ | _ | _ | _ | (_ | _ | _ | _) <;> decide

end Opcode

end LS8
