/-
LS8/Machine/Execute.lean

What each instruction does.  Every instruction reads and checks all it needs
before it writes, and none touches the program counter.  The stack grows
towards address 0; the stack pointer is the address of its top.
-/
import LS8.Machine.Cycle

namespace LS8

/-- What a cycle came to. -/
inductive Outcome where
  /-- An instruction with this opcode was executed. -/
  | executed (opcode : Opcode)
  /-- The byte is no opcode, and nothing was done. -/
  | skipped (code : Byte)
  /-- The machine stopped, or had stopped before. -/
  | halted
  deriving DecidableEq, Repr

namespace Cycle

/-- Load `value` into a register. -/
def ldi (register value : Byte) : Cycle Unit := do
  let m ← machine
  let registers ← m.registers.setGeneral register value
  setMachine { m with registers }
  note (.ldi register value)

/-- The line that shows a byte. -/
def printed (value : Byte) : List Char := Numeral.decimal value.toNat ++ ['\n']

/-- Print a register. -/
def prn (register : Byte) : Cycle Unit := do
  let m ← machine
  let value ← m.registers.get register
  print (printed value)
  note (.prn register value)

/-- Stop the machine. -/
def hlt : Cycle Unit := do
  let m ← machine
  setMachine { m with status := .halted }
  note .hlt

/-- Move the top of the stack into a register. -/
def pop (register : Byte) : Cycle Unit := do
  let m ← machine
  let top := m.registers.sp
  if top = 255 then
    throw .stackUnderflow
  let value ← m.memory.read top.toUInt16
  let registers ← m.registers.setGeneral register value
  setMachine { m with registers := registers.setSp (top + 1) }
  note (.pop register value)

/-- Move a register onto the stack.  The stack pointer moves first, and is pushed as moved. -/
def push (register : Byte) : Cycle Unit := do
  let m ← machine
  -- the cell below the top must exist before anything is read
  if m.registers.sp = 0 then
    throw .stackOverflow
  let top := m.registers.sp - 1
  let value ← if register = Registers.stackPointer then pure top else m.registers.get register
  onMemory (Memory.writeCell top.toUInt16 value)
  let m ← machine
  setMachine { m with registers := m.registers.setSp top }
  note (.push register value)

/-- Combine two registers, by the operation with this opcode byte.  The calculation is recorded even
if its result cannot be kept. -/
def arith (code target source : Byte) : Cycle Unit := do
  let m ← machine
  let attempt := m.registers.combineByCode code target source
  -- recorded first: the target may turn out to be the stack pointer
  if let some calculation := attempt.calculation? then
    note (.calculated calculation)
  let registers ← attempt.result
  setMachine { m with registers }

end Cycle

/-- Do what an instruction says. -/
def Instruction.execute : Instruction → Cycle Unit
  | .ldi register value => Cycle.ldi register value
  | .prn register => Cycle.prn register
  | .hlt => Cycle.hlt
  | .pop register => Cycle.pop register
  | .push register => Cycle.push register
  | .arith op target source => Cycle.arith op.byte target source

/-- What a cycle that executed the instruction came to. -/
def Instruction.outcome : Instruction → Outcome
  | .hlt => .halted
  | i => .executed i.opcode

namespace Cycle

/-- Hand the operands to the handler of an opcode.  The operations of the arithmetic unit have
none. -/
def handle (opcode : Opcode) (a b : Byte) : Cycle Outcome := do
  match opcode with
  | .ldi => ldi a b
  | .prn => prn a
  | .hlt =>
    hlt
    return .halted
  | .pop => pop a
  | .push => push a
  | .arith op => throw (.unsupportedOperation op.byte)
  return .executed opcode

/-- Hand an opcode byte and its operands to the arithmetic unit. -/
def calculate (code a b : Byte) : Cycle Outcome := do
  match Opcode.ofByte? code with
  | some opcode =>
    arith code a b
    return .executed opcode
  | none => throw (.unsupportedOperation code)

/-- Execute the fetched instruction, or record that there is none. -/
def perform (fetched : Fetched) : Cycle Outcome := do
  match fetched.route with
  | .handler opcode => handle opcode fetched.a fetched.b
  | .arithmetic code => calculate code fetched.a fetched.b
  | .nowhere code =>
    note (.skipped code (← machine).pc)
    return .skipped code

end Cycle

end LS8
