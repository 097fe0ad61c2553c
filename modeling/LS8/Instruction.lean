/-
LS8/Instruction.lean

Instructions: an opcode with the operands it uses.  Every cycle reads three
bytes, whatever the opcode needs of them; `Fetched.route` says what carries
them out, `Fetched.instruction?` which instruction they are, and
`Instruction.encode` gives the bytes of an instruction as they stand in memory.
`instruction?_of_arguments` says that decoding undoes encoding, `route_eq` that the
route of an instruction is the one its opcode asks for, and `length_encode`
that an instruction is as long as its width says.
-/
import LS8.Opcode

namespace LS8

/-- An instruction of the LS-8. -/
inductive Instruction where
  /-- `register` becomes `value`. -/
  | ldi (register value : Byte)
  /-- Print `register`. -/
  | prn (register : Byte)
  /-- Stop. -/
  | hlt
  /-- Move the top of the stack into `register`. -/
  | pop (register : Byte)
  /-- Move `register` onto the stack. -/
  | push (register : Byte)
  /-- `target` becomes `target op source`. -/
  | arith (op : Operation) (target source : Byte)
  deriving DecidableEq, Repr

/-- The opcode of an instruction. -/
def Instruction.opcode : Instruction → Opcode
  | .ldi .. => .ldi
  | .prn _ => .prn
  | .hlt => .hlt
  | .pop _ => .pop
  | .push _ => .push
  | .arith op .. => .arith op

/-- The operands of an instruction, in order. -/
def Instruction.arguments : Instruction → List Byte
  | .ldi register value => [register, value]
  | .prn register | .pop register | .push register => [register]
  | .hlt => []
  | .arith _ target source => [target, source]

/-- The bytes of an instruction in memory. -/
def Instruction.encode (i : Instruction) : List Byte := i.opcode.byte :: i.arguments

/-- The three bytes that a cycle reads: an opcode byte and two operands. -/
structure Fetched where
  /-- The opcode byte. -/
  code : Byte
  /-- The first operand, if the opcode has one. -/
  a : Byte
  /-- The second operand, if the opcode has two. -/
  b : Byte
  deriving DecidableEq, Repr

namespace Fetched

/-- The opcode of the fetched bytes, if it is in the instruction table. -/
def opcode? (f : Fetched) : Option Opcode := Opcode.ofByte? f.code

/-- How far the program counter moves past the fetched bytes. -/
def width (f : Fetched) : Byte := widthOf f.code

/-- Where fetched bytes go to be carried out. -/
inductive Route where
  /-- To the handler of the opcode. -/
  | handler (opcode : Opcode)
  /-- To the arithmetic unit, which finds its operation by the byte. -/
  | arithmetic (code : Byte)
  /-- Nowhere: the byte is no opcode. -/
  | nowhere (code : Byte)
  deriving DecidableEq, Repr

/-- The route of the fetched bytes.  The table says what an opcode is, the layout of the byte alone
which of them are for the arithmetic unit. -/
def route (f : Fetched) : Route :=
  match f.opcode? with
  | none => .nowhere f.code
  | some opcode => if isArithmetic f.code then .arithmetic f.code else .handler opcode

/-- Give an opcode its operands from the fetched bytes. -/
def operate (f : Fetched) : Opcode → Instruction
  | .ldi => .ldi f.a f.b
  | .prn => .prn f.a
  | .hlt => .hlt
  | .pop => .pop f.a
  | .push => .push f.a
  | .arith op => .arith op f.a f.b

/-- The instruction that the fetched bytes hold, if the opcode is in the table. -/
def instruction? (f : Fetched) : Option Instruction := f.opcode?.map f.operate

@[simp] theorem opcode_operate (f : Fetched) (op : Opcode) : (f.operate op).opcode = op := by
  cases op <;> rfl

/-- The flag in the layout sends every opcode where the table has it. -/
theorem route_eq {f : Fetched} {op : Opcode} (h : f.opcode? = some op) :
    f.route = if op.operation?.isSome then .arithmetic op.byte else .handler op := by
  have hcode : f.code = op.byte := Opcode.ofByte?_eq_some_iff.mp h
  simp only [route, h, hcode, Opcode.isArithmetic_byte]

theorem route_of_unknown {f : Fetched} (h : f.opcode? = none) : f.route = .nowhere f.code := by
  simp only [route, h]

end Fetched

theorem Instruction.length_arguments (i : Instruction) :
    i.arguments.length = i.opcode.operands.toNat := by
  cases i <;> rfl

/-- An instruction is as long as the layout of its opcode byte says. -/
theorem Instruction.length_encode (i : Instruction) :
    i.encode.length = (widthOf i.opcode.byte).toNat := by
  rw [Opcode.width_byte, encode, List.length_cons, length_arguments]
  cases i <;> rfl

/-- Decoding undoes encoding: the fetched bytes are those of `i`, if the operands are. -/
theorem Fetched.instruction?_of_arguments {i : Instruction} {a b : Byte}
    (ha : ∀ v, i.arguments[0]? = some v → a = v) (hb : ∀ v, i.arguments[1]? = some v → b = v) :
    Fetched.instruction? ⟨i.opcode.byte, a, b⟩ = some i := by
  rw [instruction?, opcode?, Opcode.ofByte?_byte, Option.map_some]
  cases i with
  | ldi register value =>
    rw [ha register rfl, hb value rfl]
    rfl
  | prn register | pop register | push register =>
    rw [ha register rfl]
    rfl
  | hlt => rfl
  | arith op target source =>
    rw [ha target rfl, hb source rfl]
    rfl

end LS8
