/-
LS8/Proofs/Frame.lean

What a successful cycle changes, and that it changes nothing else.

Every kind of instruction has a rule (`Instruction.Does`), which says what is
written and that nothing else is.  `step_frame` says that a successful cycle
does what the rule of the bytes at the program counter says, and no more.
-/
import LS8.Proofs.Assembly
import LS8.Proofs.Fetch
import Mathlib.Data.List.Basic

namespace LS8

/-! ### Cycles -/

/-- The bytes of the instruction that is fetched are in memory where the program counter stands. -/
theorem Machine.holds_of_fetch {m : Machine} {fetched : Fetched} {i : Instruction}
    (hfetch : m.fetch = .ok fetched) (hi : fetched.instruction? = some i) :
    m.memory.Holds m.pc.toNat i.encode := by
  obtain ⟨-, hfits, rfl⟩ := fetch_eq_ok_iff.mp hfetch
  obtain ⟨op, hop, rfl⟩ := Option.map_eq_some_iff.mp hi
  have hfits' := hfits (Option.isSome_of_mem hop)
  have hcode : m.byte 0 = op.byte := Opcode.ofByte?_eq_some_iff.mp hop
  have hwidth : m.snapshot.bytes.width = widthOf op.byte := congrArg widthOf hcode
  have hencode : (m.snapshot.bytes.operate op).encode =
      [m.byte 0, m.byte 1, m.byte 2].take (widthOf op.byte).toNat := by
    rw [hcode]
    rcases op with - | - | - | - | - | (- | - | - | -) <;> rfl
  intro j byte hj
  rw [hencode, List.getElem?_take] at hj
  split at hj
  · next hlt =>
    rw [hwidth] at hfits'
    obtain ⟨value, hvalue⟩ := m.memory.exists_cell (i := m.pc.toNat + j) (by
      simp only [ramSize]
      omega)
    have hbyte : m.byte j = value := by rw [Machine.byte, hvalue]; rfl
    rw [hvalue, ← hbyte]
    rcases j with - | - | - | j
    · exact hj
    · exact hj
    · exact hj
    · cases hj
  · cases hj

/-- What a successful cycle comes to, of which `code` is the byte at the program counter and `pc`
the program counter behind it. -/
inductive Machine.Changes (m : Machine) (sink : Sink) (code : Byte) (pc : Address) :
    Reply Outcome → Prop
  /-- The byte is no opcode: only the program counter moves. -/
  | skipped {journal : Journal} (hcode : Opcode.ofByte? code = none) (hout : journal.output = []) :
      m.Changes sink code pc ⟨.ok (.skipped code), { m with pc }, sink, journal⟩
  /-- The byte starts an instruction: what this does is done, and no more. -/
  | executed {i : Instruction} {e : Effect} {journal : Journal} (hcode : i.opcode.byte = code)
      (hholds : m.memory.Holds m.pc.toNat i.encode) (hdoes : i.Does m.registers m.memory e)
      (hout : journal.output = e.text) :
      m.Changes sink code pc
        ⟨.ok i.outcome, ⟨pc, e.registers, e.memory, m.tracing, i.status .running⟩,
          sink.offer e.text, journal⟩

/-- A successful cycle follows the rule of the bytes at the program counter. -/
theorem Machine.changes_of_step {m : Machine} {sink : Sink} {outcome : Outcome}
    (hm : m.status = .running) (h : (m.step sink).result = .ok outcome) :
    ∃ code pc, m.memory.cell? m.pc.toNat = some code ∧
      pc.toNat = m.pc.toNat + (widthOf code).toNat ∧ m.Changes sink code pc (m.step sink) := by
  have hcycled := cycled hm sink
  generalize m.step sink = reply at h hcycled ⊢
  cases hcycled with
  | faulted | refused => cases h
  | @skipped fetched journal hfetch hi hout =>
    refine ⟨fetched.code, _, cell?_of_fetch hfetch, toNat_pc_add hfetch, ?_⟩
    exact .skipped (Option.map_eq_none_iff.mp hi) hout
  | @executed fetched i e journal hfetch hi he hfits hout =>
    refine ⟨fetched.code, _, cell?_of_fetch hfetch, toNat_pc_add hfetch, ?_⟩
    rw [Machine.after, hm]
    exact .executed (Fetched.code_of_instruction? hi).symm (holds_of_fetch hfetch hi)
      (Instruction.does_of_effect he) hout

section Changes

variable {m : Machine} {sink : Sink} {code : Byte} {pc : Address} {reply : Reply Outcome}

theorem Machine.Changes.pc_eq (h : m.Changes sink code pc reply) : reply.machine.pc = pc := by
  cases h <;> rfl

theorem Machine.Changes.tracing (h : m.Changes sink code pc reply) :
    reply.machine.tracing = m.tracing := by
  cases h <;> rfl

/-- Only a push and a pop move the stack pointer, and each by one. -/
theorem Machine.Changes.sp_of_ne (h : m.Changes sink code pc reply)
    (hsp : reply.machine.registers.sp ≠ m.registers.sp) :
    (code = Opcode.push.byte ∧ reply.machine.registers.sp.toNat + 1 = m.registers.sp.toNat) ∨
      (code = Opcode.pop.byte ∧ reply.machine.registers.sp.toNat = m.registers.sp.toNat + 1) := by
  cases h with
  | skipped => exact absurd rfl hsp
  | executed hcode _ hdoes _ =>
    rcases hdoes.sp_of_ne hsp with ⟨hop, hmoved⟩ | ⟨hop, hmoved⟩
    · exact .inl ⟨by rw [← hcode, hop], hmoved⟩
    · exact .inr ⟨by rw [← hcode, hop], hmoved⟩

/-- Only a push writes to memory, and only to the cell right below the stack. -/
theorem Machine.Changes.push_of_ne (h : m.Changes sink code pc reply) {a : Nat}
    (ha : reply.machine.memory.cell? a ≠ m.memory.cell? a) :
    code = Opcode.push.byte ∧ a + 1 = m.registers.sp.toNat := by
  cases h with
  | skipped => exact absurd rfl ha
  | executed hcode _ hdoes _ =>
    obtain ⟨hop, hbelow⟩ := hdoes.push_of_ne ha
    exact ⟨by rw [← hcode, hop], hbelow⟩

/-- Only a halt stops the machine. -/
theorem Machine.Changes.hlt_of_ne (h : m.Changes sink code pc reply) (hm : m.status = .running)
    (hstatus : reply.machine.status ≠ .running) : code = Opcode.hlt.byte := by
  cases h with
  | skipped => exact absurd hm hstatus
  | @executed i _ _ hcode =>
    cases i with
    | hlt => exact hcode.symm
    | ldi | prn | pop | push | arith => exact absurd rfl hstatus

/-- Only a print prints. -/
theorem Machine.Changes.prn_of_ne (h : m.Changes sink code pc reply)
    (hout : reply.journal.output ≠ []) : code = Opcode.prn.byte := by
  cases h with
  | skipped _ hnothing => exact absurd hnothing hout
  | executed hcode _ hdoes htext =>
    change Journal.output _ ≠ [] at hout
    rw [htext] at hout
    rw [← hcode, hdoes.prn_of_ne hout]

end Changes

/-- **What a cycle does, and that it does nothing else.**  A successful cycle of a running machine
moves the program counter past the byte there and its operands.  If the byte is no opcode, that is
all.  Otherwise registers, memory and output follow the rule of the instruction that stands there.
So the stack pointer moves in a push and in a pop alone, by one; memory changes in a push alone, in
the cell below the stack; the machine stops in a halt alone; and nothing but a print has output. -/
theorem step_frame {m : Machine} {sink : Sink} {outcome : Outcome} (hm : m.status = .running)
    (h : (m.step sink).result = .ok outcome) :
    ∃ code pc, m.memory.cell? m.pc.toNat = some code ∧
      pc.toNat = m.pc.toNat + (widthOf code).toNat ∧
      (m.step sink).machine.pc = pc ∧ (m.step sink).machine.tracing = m.tracing ∧
      m.Changes sink code pc (m.step sink) ∧
      ((m.step sink).machine.registers.sp ≠ m.registers.sp →
        (code = Opcode.push.byte ∧
          (m.step sink).machine.registers.sp.toNat + 1 = m.registers.sp.toNat) ∨
        (code = Opcode.pop.byte ∧
          (m.step sink).machine.registers.sp.toNat = m.registers.sp.toNat + 1)) ∧
      (∀ a, (m.step sink).machine.memory.cell? a ≠ m.memory.cell? a →
        code = Opcode.push.byte ∧ a + 1 = m.registers.sp.toNat) ∧
      ((m.step sink).machine.status ≠ .running → code = Opcode.hlt.byte) ∧
      ((m.step sink).journal.output ≠ [] → code = Opcode.prn.byte) := by
  obtain ⟨code, pc, hcode, hpc, hchanges⟩ := Machine.changes_of_step hm h
  refine ⟨code, pc, hcode, hpc, hchanges.pc_eq, hchanges.tracing, hchanges, hchanges.sp_of_ne, ?_,
    hchanges.hlt_of_ne hm, hchanges.prn_of_ne⟩
  intro a
  exact hchanges.push_of_ne

/-- `PUSH R7` at the address below the stack, so that the cell it writes is its own operand. -/
def burrowing : Machine := { Machine.boot (Memory.zero.placeBlock 0xF2 #[0x45, 7]) with pc := 0xF2 }

/-- The stack pointer is pushed as moved, and nothing else in memory changes. -/
theorem step_frame_burrowing :
    burrowing.status = .running ∧ (burrowing.step .unlimited).result = .ok (.executed .push) ∧
      (burrowing.step .unlimited).machine.pc.toNat = 0xF4 ∧
      (burrowing.step .unlimited).machine.memory.cell? 0xF3 = some 0xF3 ∧
      ∀ a, (burrowing.step .unlimited).machine.memory.cell? a ≠ burrowing.memory.cell? a →
        a = 0xF3 := by
  obtain ⟨hresult, hbyte, hcell⟩ :
      (burrowing.step .unlimited).result = .ok (.executed .push) ∧
        burrowing.memory.cell? burrowing.pc.toNat = some 0x45 ∧
        (burrowing.step .unlimited).machine.memory.cell? 0xF3 = some 0xF3 := by decide +kernel
  obtain ⟨code, pc, hcode, hpc, hmoved, -, -, -, hmemory, -⟩ := step_frame rfl hresult
  obtain rfl := Option.some.inj (hcode.symm.trans hbyte)
  refine ⟨rfl, hresult, ?_, hcell, ?_⟩
  · rw [hmoved, hpc]
    rfl
  · intro a ha
    have hbelow : a + 1 = 0xF4 := (hmemory a ha).2
    omega

end LS8
