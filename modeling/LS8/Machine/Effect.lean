/-
LS8/Machine/Effect.lean

The effect of each instruction, written out: which checks it makes, in which
order, and what is left on the bench if it succeeds and if it does not.  Two
instructions leave something behind when they fault: a print keeps what the
sink took of its line, and arithmetic keeps the record of a calculation whose
result has no place.
-/
import LS8.Machine.Execute

namespace LS8.Cycle

theorem ldi_run (register value : Byte) (s : Bench) :
    ldi register value s =
      match s.machine.registers.setGeneral register value with
      | .error fault => .error fault s
      | .ok registers =>
        .ok () ⟨{ s.machine with registers }, s.sink,
          s.journal ++ [.record (.ldi register value)]⟩ := by
  simp only [ldi, bind_run, machine_run, lift_run]
  cases s.machine.registers.setGeneral register value <;> rfl

theorem prn_run (register : Byte) (s : Bench) :
    prn register s =
      match s.machine.registers.get register with
      | .error fault => .error fault s
      | .ok value =>
        let line := printed value
        let journal := s.journal ++ [.output (s.sink.taken line)]
        if s.sink.fits line then
          .ok () ⟨s.machine, s.sink.offer line, journal ++ [.record (.prn register value)]⟩
        else .error (.output s.sink.refusal) ⟨s.machine, s.sink.offer line, journal⟩ := by
  simp only [prn, bind_run, machine_run, lift_run]
  rcases s.machine.registers.get register with fault | value
  · rfl
  · simp only [print_run]
    cases s.sink.fits (printed value) <;> rfl

theorem hlt_run (s : Bench) :
    hlt s = .ok () ⟨{ s.machine with status := .halted }, s.sink,
      s.journal ++ [.record .hlt]⟩ := rfl

theorem pop_run (register : Byte) (s : Bench) :
    pop register s =
      let m := s.machine
      if m.registers.sp = 255 then .error .stackUnderflow s
      else match m.memory.read m.registers.sp.toUInt16 with
        | .error fault => .error fault s
        | .ok value =>
          match m.registers.setGeneral register value with
          | .error fault => .error fault s
          | .ok registers =>
            .ok () ⟨{ m with registers := registers.setSp (m.registers.sp + 1) }, s.sink,
              s.journal ++ [.record (.pop register value)]⟩ := by
  simp only [pop, bind_run, machine_run]
  split
  · rfl
  · simp only [bind_run, lift_run]
    rcases s.machine.memory.read s.machine.registers.sp.toUInt16 with fault | value
    · rfl
    · dsimp only
      cases s.machine.registers.setGeneral register value <;> rfl

theorem push_run (register : Byte) (s : Bench) :
    push register s =
      let m := s.machine
      let top := m.registers.sp - 1
      if m.registers.sp = 0 then .error .stackOverflow s
      else match (if register = Registers.stackPointer then .ok top
          else m.registers.get register : Except Fault Byte) with
        | .error fault => .error fault s
        | .ok value =>
          match m.memory.write top.toUInt16 value with
          | .error fault => .error fault s
          | .ok memory =>
            .ok () ⟨{ m with memory, registers := m.registers.setSp top }, s.sink,
              s.journal ++ [.record (.push register value)]⟩ := by
  simp only [push, bind_run, machine_run]
  split
  · rfl
  · by_cases h : register = Registers.stackPointer
    · simp only [h, if_true, bind_run, pure_run, onMemory_writeCell_run, machine_run]
      cases s.machine.memory.write (s.machine.registers.sp - 1).toUInt16
        (s.machine.registers.sp - 1) <;> rfl
    · simp only [h, if_false, bind_run, lift_run, onMemory_writeCell_run, machine_run]
      rcases s.machine.registers.get register with fault | value
      · rfl
      · dsimp only
        cases s.machine.memory.write (s.machine.registers.sp - 1).toUInt16 value <;> rfl

theorem arith_run (op : Operation) (target source : Byte) (s : Bench) :
    arith op.byte target source s =
      match s.machine.registers.calculate op target source with
      | .error fault => .error fault s
      | .ok c =>
        let journal := s.journal ++ [.record (.calculated c)]
        match s.machine.registers.store c with
        | .error fault => .error fault ⟨s.machine, s.sink, journal⟩
        | .ok registers => .ok () ⟨{ s.machine with registers }, s.sink, journal⟩ := by
  simp only [arith, bind_run, machine_run, Registers.combineByCode, Operation.ofByte?_byte,
    Registers.combine]
  rcases s.machine.registers.calculate op target source with fault | c
  · rfl
  · dsimp only
    cases s.machine.registers.store c <;> rfl

/-! ### From the fetched bytes to the instruction -/

/-- The handler of an opcode does what the instruction says. -/
theorem handle_run {op : Opcode} (h : op.operation? = none) (fetched : Fetched) (s : Bench) :
    handle op fetched.a fetched.b s =
      match (fetched.operate op).execute s with
      | .ok _ t => .ok (fetched.operate op).outcome t
      | .error fault t => .error fault t := by
  cases op
  case arith op => exact absurd h (by simp [Opcode.operation?])
  case hlt => rfl
  all_goals
    simp only [handle, bind_run, Fetched.operate, Instruction.execute]
    split
    · next hx =>
      rw [hx]
      rfl
    · next hx => rw [hx]

/-- The arithmetic unit does what the instruction says. -/
theorem calculate_run (op : Operation) (a b : Byte) (s : Bench) :
    calculate op.byte a b s =
      match (Instruction.arith op a b).execute s with
      | .ok _ t => .ok (Instruction.arith op a b).outcome t
      | .error fault t => .error fault t := by
  have hbyte : Opcode.ofByte? op.byte = some (.arith op) := Opcode.ofByte?_byte (.arith op)
  simp only [calculate, hbyte, bind_run, Instruction.execute]
  cases arith op.byte a b s <;> rfl

/-- Whatever way the fetched bytes go, they do what their instruction says. -/
theorem perform_of_instruction {fetched : Fetched} {i : Instruction}
    (h : fetched.instruction? = some i) (s : Bench) :
    perform fetched s =
      match i.execute s with
      | .ok _ t => .ok i.outcome t
      | .error fault t => .error fault t := by
  obtain ⟨op, hop, rfl⟩ := Option.map_eq_some_iff.mp h
  rw [perform, Fetched.route_eq hop]
  -- the table decides the route, so neither refusal of an opcode is ever reached
  rcases hk : op.operation? with - | k
  · exact handle_run hk fetched s
  · obtain rfl : op = .arith k := by
      cases op <;> simp_all [Opcode.operation?]
    exact calculate_run k fetched.a fetched.b s

theorem perform_of_unknown {fetched : Fetched} (h : fetched.instruction? = none) (s : Bench) :
    perform fetched s =
      .ok (.skipped fetched.code) ⟨s.machine, s.sink,
        s.journal ++ [.record (.skipped fetched.code s.machine.pc)]⟩ := by
  simp only [perform, Fetched.route_of_unknown (Option.map_eq_none_iff.mp h), bind_run, machine_run]
  rfl

end LS8.Cycle
