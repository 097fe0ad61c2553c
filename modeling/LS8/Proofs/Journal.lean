/-
LS8/Proofs/Journal.lean

What a cycle shows, event by event.

An instruction that has its effect shows what the sink takes of its line, if it
prints one, and then a record, unless the sink has refused a part of the line.
The record can be told from registers and memory before the cycle
(`Instruction.record`), although the instruction makes it at the end of its work.

A cycle that faults shows no record, but for one case: arithmetic is recorded
when it is done, and that is before the target turns out to be the stack pointer
(`Instruction.unkept`).  `journal_of_step` says that this, behind the trace of
the cycle, is all there is.
-/
import LS8.Proofs.Faults

namespace LS8

/-! ### Records of instructions -/

/-- The byte at an address of memory, zero if there is no cell. -/
def Memory.value (m : Ram) (address : Byte) : Byte := (m.cell? address.toNat).getD 0

/-- The calculation with two registers; its result is zero if there is none. -/
def Registers.calculation (r : Registers) (op : Operation) (target source : Byte) :
    Calculation where
  op := op
  target := target
  source := source
  left := r.value target
  right := r.value source
  result := ((op.compute (r.value target) (r.value source)).toOption).getD 0

/-- The record of an instruction that has its effect. -/
def Instruction.record (r : Registers) (m : Ram) : Instruction → Record
  | .ldi register value => .ldi register value
  | .prn register => .prn register (r.value register)
  | .hlt => .hlt
  | .pop register => .pop register (m.value r.sp)
  | .push register =>
    .push register (if register = Registers.stackPointer then r.sp - 1 else r.value register)
  | .arith op target source => .calculated (r.calculation op target source)

/-- What an instruction shows when it faults: a calculation that was made and cannot be kept. -/
def Instruction.unkept (r : Registers) : Instruction → Journal
  | .arith op target source =>
    match r.calculate op target source with
    | .ok c => [.record (.calculated c)]
    | .error _ => []
  | _ => []

/-- What a sink shows when it is offered a text. -/
def Sink.echo (sink : Sink) (text : List Char) : Journal :=
  if text.isEmpty then [] else [.output (sink.taken text)]

/-- What an instruction shows. -/
def Instruction.told (i : Instruction) (r : Registers) (m : Ram) (sink : Sink) : Journal :=
  match i.effect r m with
  | .error _ => i.unkept r
  | .ok e => sink.echo e.text ++ if sink.fits e.text then [.record (i.record r m)] else []

/-- What a cycle shows, but for its trace. -/
def Machine.told (m : Machine) (sink : Sink) : Journal :=
  match m.fetch with
  | .error _ => []
  | .ok fetched =>
    match fetched.instruction? with
    | none => [.record (.skipped fetched.code m.pc)]
    | some i => i.told m.registers m.memory sink

/-! ### Instructions show what is told -/

variable {r : Registers} {m : Ram} {i : Instruction} {e : Effect}

@[simp] theorem Sink.echo_nil (sink : Sink) : sink.echo [] = [] := rfl

theorem Sink.echo_printed (sink : Sink) (value : Byte) :
    sink.echo (Cycle.printed value) = [.output (sink.taken (Cycle.printed value))] := by
  simp [echo, Cycle.printed]

theorem Instruction.told_of_effect (he : i.effect r m = .ok e) (sink : Sink) :
    i.told r m sink =
      sink.echo e.text ++ if sink.fits e.text then [.record (i.record r m)] else [] := by
  rw [told, he]

theorem Instruction.told_of_error {fault : Fault} (he : i.effect r m = .error fault) (sink : Sink) :
    i.told r m sink = i.unkept r := by
  rw [told, he]

theorem Registers.calculate_eq_ok {op : Operation} {target source : Byte} {c : Calculation}
    (h : r.calculate op target source = .ok c) : c = r.calculation op target source := by
  simp only [calculate, bind_eq_ok_iff, pure_eq_ok_iff] at h
  obtain ⟨left, hleft, right, hright, result, hresult, rfl⟩ := h
  obtain ⟨-, rfl⟩ := r.get_eq_ok hleft
  obtain ⟨-, rfl⟩ := r.get_eq_ok hright
  rw [calculation, hresult]
  rfl

theorem Registers.pushed_eq_ok {register value : Byte} (h : r.pushed register = .ok value) :
    (if register = stackPointer then r.sp - 1 else r.value register) = value := by
  unfold pushed at h
  by_cases hsp : register = stackPointer
  · rw [if_pos hsp] at h ⊢
    exact Except.ok.inj h
  · rw [if_neg hsp] at h ⊢
    exact (r.get_eq_ok h).2

/-- Arithmetic calculates, and then keeps the result. -/
theorem Instruction.effect_arith (op : Operation) (target source : Byte) (r : Registers) (m : Ram) :
    (arith op target source).effect r m = do
      let c ← r.calculate op target source
      let r' ← r.store c
      return ⟨r', m, []⟩ := by
  simp only [effect, Registers.calculate, Registers.store, bind_assoc, pure_bind]

/-- **An instruction adds to the journal what is told of it.** -/
theorem Instruction.journal_of_execute (i : Instruction) (s : Bench) :
    (Reply.ofResult (i.execute s)).journal =
      s.journal ++ i.told s.machine.registers s.machine.memory s.sink := by
  cases i with
  | ldi register value =>
    simp only [execute, Cycle.ldi_run, told, effect]
    cases s.machine.registers.setGeneral register value <;>
      simp [Reply.ofResult, bind, Except.bind, pure, Except.pure, unkept, record]
  | prn register =>
    simp only [execute, Cycle.prn_run, told, effect]
    rcases hget : s.machine.registers.get register with fault | value
    · simp [Reply.ofResult, bind, Except.bind, unkept]
    · -- the line is recorded only if the sink took all of it
      have hvalue := (s.machine.registers.get_eq_ok hget).2
      cases hfits : s.sink.fits (Cycle.printed value) <;>
        simp [Reply.ofResult, bind, Except.bind, pure, Except.pure, Sink.echo_printed, record,
          hfits, hvalue]
  | hlt =>
    simp [execute, Cycle.hlt_run, told, effect, Reply.ofResult, pure, Except.pure, record]
  | pop register =>
    obtain ⟨value, hread⟩ := s.machine.memory.read_of_byte s.machine.registers.sp
    have hvalue : s.machine.memory.value s.machine.registers.sp = value := by
      rw [Memory.read_eq_ok_iff, UInt8.toNat_toUInt16] at hread
      rw [Memory.value, hread]
      rfl
    simp only [execute, Cycle.pop_run, told, effect, hread]
    by_cases hsp : s.machine.registers.sp = 255
    · simp [Reply.ofResult, hsp, unkept]
    · cases hset : s.machine.registers.setGeneral register value <;>
        simp [Reply.ofResult, hsp, bind, Except.bind, pure, Except.pure, unkept, record, hset,
          hvalue]
  | push register =>
    simp only [execute, Cycle.push_run, told, effect]
    rw [← Registers.pushed]
    by_cases hsp : s.machine.registers.sp = 0
    · simp [Reply.ofResult, hsp, unkept]
    · rcases hpushed : s.machine.registers.pushed register with fault | value
      · simp [Reply.ofResult, hsp, bind, Except.bind, unkept]
      · have hvalue := Registers.pushed_eq_ok hpushed
        obtain ⟨m, hwrite⟩ := s.machine.memory.write_of_byte (s.machine.registers.sp - 1) value
        simp [Reply.ofResult, hsp, bind, Except.bind, pure, Except.pure, record, hwrite, hvalue,
          -UInt8.toUInt16_sub]
  | arith op target source =>
    simp only [execute, Cycle.arith_run, told, effect_arith, unkept]
    rcases hcalculate : s.machine.registers.calculate op target source with fault | c
    · simp [Reply.ofResult, bind, Except.bind]
    · -- recorded whether the result is kept or not
      obtain rfl := Registers.calculate_eq_ok hcalculate
      cases hstore : s.machine.registers.store
          (s.machine.registers.calculation op target source) <;>
        simp [Reply.ofResult, bind, Except.bind, pure, Except.pure, record, hstore]

/-! ### Cycles show what is told -/

variable {m m₁ : Machine} {sink sink₁ : Sink} {outcome : Outcome} {journal : Journal}
  {fetched : Fetched}

theorem Machine.told_of_instruction {i : Instruction} (hfetch : m.fetch = .ok fetched)
    (hi : fetched.instruction? = some i) (sink : Sink) :
    m.told sink = i.told m.registers m.memory sink := by
  rw [told, hfetch]
  dsimp only
  rw [hi]

theorem Machine.told_of_unknown (hfetch : m.fetch = .ok fetched)
    (hi : fetched.instruction? = none) (sink : Sink) :
    m.told sink = [.record (.skipped fetched.code m.pc)] := by
  rw [told, hfetch]
  dsimp only
  rw [hi]

/-- **A cycle shows its trace and what is told of it.** -/
theorem Machine.journal_of_step (hm : m.status = .running) (sink : Sink) :
    (m.step sink).journal = m.announcement ++ m.told sink := by
  rw [step_of_running hm, Cycle.advance_run]
  dsimp only
  rcases hfetch : m.fetch with fault | fetched
  · rw [told, hfetch]
    exact (List.append_nil _).symm
  · dsimp only
    rcases hi : fetched.instruction? with - | i
    · rw [told_of_unknown hfetch hi, Cycle.perform_of_unknown hi]
      rfl
    · rw [told_of_instruction hfetch hi, Cycle.perform_of_instruction hi]
      have hjournal := i.journal_of_execute ⟨m, sink, m.announcement⟩
      -- moving the program counter shows nothing
      cases hexecute : i.execute ⟨m, sink, m.announcement⟩ <;>
        rw [hexecute] at hjournal <;> exact hjournal

end LS8
