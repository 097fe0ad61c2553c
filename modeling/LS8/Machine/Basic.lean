/-
LS8/Machine/Basic.lean

The machine: a program counter, the registers, the memory, and whether it still
runs.  `fetch` reads what a cycle needs and fails where a needed byte does not
exist; `snapshot` reads the same three bytes and fails nowhere.
-/
import LS8.Memory.Basic
import LS8.Snapshot

namespace LS8

/-- Where a machine is in its life. -/
inductive Status where
  | running
  /-- The machine has stopped and fetches nothing any more. -/
  | halted
  deriving DecidableEq, Repr

/-- The state of the machine. -/
structure Machine where
  /-- The address of the next instruction. -/
  pc : Address
  registers : Registers
  memory : Ram
  /-- Is a snapshot to be recorded before every cycle? -/
  tracing : Bool
  status : Status
  deriving DecidableEq, Repr

namespace Machine

/-- A machine about to run `memory` from address 0. -/
def boot (memory : Ram) : Machine := ⟨0, Registers.initial, memory, false, .running⟩

/-- Read the operand `offset` bytes behind the opcode of an instruction of `width` bytes.  An
operand that the instruction does not use is zero where there is no cell. -/
def operand (m : Machine) (width : Byte) (offset : Address) : Except Fault Byte :=
  let position := m.pc + offset
  if offset < width.toUInt16 then m.memory.read position
  else .ok ((m.memory.get? position).getD 0)

/-- Read the three bytes of a cycle. -/
def fetch (m : Machine) : Except Fault Fetched := do
  let code ← m.memory.read m.pc
  -- a byte that is no opcode uses no operands, whatever its layout says
  let width := if (Opcode.ofByte? code).isSome then widthOf code else 1
  let a ← m.operand width 1
  let b ← m.operand width 2
  return ⟨code, a, b⟩

/-- What can be seen of the machine now. -/
def snapshot (m : Machine) : Snapshot :=
  let byte (offset : Nat) : Byte := (m.memory.cell? (m.pc.toNat + offset)).getD 0
  ⟨m.pc, ⟨byte 0, byte 1, byte 2⟩, m.registers⟩

end Machine

end LS8
