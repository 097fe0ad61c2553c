/-
LS8/Proofs/Effect.lean

What an instruction does, without a machine around it: a function from
registers and memory to registers, memory and printed text, or to a fault.

    Instruction.effect : Instruction → Registers → Ram → Except Fault Effect

The instructions of the machine work step by step on a bench and could leave
anything behind when they fault.  `execute_run` says that they realize their
effect: all of it if the sink takes the text, and nothing of it otherwise.
-/
import LS8.Machine.Effect

namespace LS8

/-! ### Effects -/

/-- What an instruction leaves behind: registers and memory, and the text that it prints. -/
structure Effect where
  registers : Registers
  memory : Ram
  text : List Char

/-- The byte that a push of `register` stores.  The stack pointer is pushed as moved. -/
def Registers.pushed (r : Registers) (register : Byte) : Except Fault Byte :=
  if register = stackPointer then .ok (r.sp - 1) else r.get register

/-- The effect of an instruction, or its fault. -/
def Instruction.effect (i : Instruction) (r : Registers) (m : Ram) : Except Fault Effect :=
  match i with
  | .ldi register value => do
    let r' ← r.setGeneral register value
    return ⟨r', m, []⟩
  | .prn register => do
    let value ← r.get register
    return ⟨r, m, Cycle.printed value⟩
  | .hlt => return ⟨r, m, []⟩
  | .pop register =>
    if r.sp = 255 then .error .stackUnderflow
    else do
      let value ← m.read r.sp.toUInt16
      let r' ← r.setGeneral register value
      return ⟨r'.setSp (r.sp + 1), m, []⟩
  | .push register =>
    if r.sp = 0 then .error .stackOverflow
    else do
      let value ← r.pushed register
      let m' ← m.write (r.sp - 1).toUInt16 value
      return ⟨r.setSp (r.sp - 1), m', []⟩
  | .arith op target source => do
    let left ← r.get target
    let right ← r.get source
    let result ← op.compute left right
    let r' ← r.setGeneral target result
    return ⟨r', m, []⟩

/-- The status after an instruction. -/
def Instruction.status (i : Instruction) (status : Status) : Status :=
  match i with
  | .hlt => .halted
  | _ => status

/-! ### Opening an effect -/

/-- A sequence has a result if both its parts have one. -/
theorem bind_eq_ok_iff {α β : Type} {x : Except Fault α} {f : α → Except Fault β} {b : β} :
    (x >>= f) = .ok b ↔ ∃ a, x = .ok a ∧ f a = .ok b := by
  cases x <;> simp [bind, Except.bind]

/-- A sequence faults in its first part or in its second. -/
theorem bind_eq_error_iff {α β : Type} {x : Except Fault α} {f : α → Except Fault β}
    {fault : Fault} :
    (x >>= f) = .error fault ↔ x = .error fault ∨ ∃ a, x = .ok a ∧ f a = .error fault := by
  cases x <;> simp [bind, Except.bind]

theorem pure_eq_ok_iff {α : Type} {a b : α} : (pure a : Except Fault α) = .ok b ↔ a = b := by
  simp [pure, Except.pure]

theorem effect_pop_eq_ok_iff {register : Byte} {r : Registers} {m : Ram} {e : Effect} :
    (Instruction.pop register).effect r m = .ok e ↔
      r.sp ≠ 255 ∧ ∃ value r', m.read r.sp.toUInt16 = .ok value ∧
        r.setGeneral register value = .ok r' ∧ e = ⟨r'.setSp (r.sp + 1), m, []⟩ := by
  simp only [Instruction.effect]
  by_cases hsp : r.sp = 255
  · simp [hsp]
  · simp only [hsp, if_false, bind_eq_ok_iff, pure_eq_ok_iff]
    simp [hsp, eq_comm]

theorem effect_push_eq_ok_iff {register : Byte} {r : Registers} {m : Ram} {e : Effect} :
    (Instruction.push register).effect r m = .ok e ↔
      r.sp ≠ 0 ∧ ∃ value m', r.pushed register = .ok value ∧
        m.write (r.sp - 1).toUInt16 value = .ok m' ∧ e = ⟨r.setSp (r.sp - 1), m', []⟩ := by
  simp only [Instruction.effect]
  by_cases hsp : r.sp = 0
  · simp [hsp]
  · simp only [hsp, if_false, bind_eq_ok_iff, pure_eq_ok_iff]
    simp [hsp, eq_comm]

/-- A push moves the stack down by a cell. -/
theorem toNat_sp_of_push {register : Byte} {r : Registers} {m : Ram} {e : Effect}
    (h : (Instruction.push register).effect r m = .ok e) :
    e.registers.sp.toNat + 1 = r.sp.toNat := by
  obtain ⟨hsp, value, m', -, -, rfl⟩ := effect_push_eq_ok_iff.mp h
  have hpos : r.sp.toNat ≠ 0 := fun hzero => hsp (UInt8.toNat_inj.mp hzero)
  have hlt := r.sp.toNat_lt
  rw [Registers.sp_setSp, UInt8.toNat_sub]
  simp only [UInt8.toNat_ofNat]
  omega

/-- A push writes the cell at the new top of the stack. -/
theorem cell?_of_push {register : Byte} {r : Registers} {m : Ram} {e : Effect}
    (h : (Instruction.push register).effect r m = .ok e) :
    ∃ value, r.pushed register = .ok value ∧ ∀ a,
      e.memory.cell? a = if a = e.registers.sp.toNat then some value else m.cell? a := by
  obtain ⟨-, value, m', hvalue, hwrite, rfl⟩ := effect_push_eq_ok_iff.mp h
  refine ⟨value, hvalue, ?_⟩
  intro a
  rw [Memory.cell?_of_write hwrite, UInt8.toNat_toUInt16, Registers.sp_setSp]

/-- A pop moves the stack up by a cell. -/
theorem toNat_sp_of_pop {register : Byte} {r : Registers} {m : Ram} {e : Effect}
    (h : (Instruction.pop register).effect r m = .ok e) :
    e.registers.sp.toNat = r.sp.toNat + 1 := by
  obtain ⟨hsp, value, r', -, -, rfl⟩ := effect_pop_eq_ok_iff.mp h
  have hlast : r.sp.toNat ≠ 255 := fun htop => hsp (UInt8.toNat_inj.mp htop)
  have hlt := r.sp.toNat_lt
  rw [Registers.sp_setSp, UInt8.toNat_add]
  simp only [UInt8.reduceToNat]
  omega

/-- A pop reads the cell at the old top of the stack. -/
theorem get_of_pop {register : Byte} {r : Registers} {m : Ram} {e : Effect}
    (h : (Instruction.pop register).effect r m = .ok e) :
    ∃ value, m.cell? r.sp.toNat = some value ∧ e.registers.get register = .ok value := by
  obtain ⟨-, value, r', hread, hset, rfl⟩ := effect_pop_eq_ok_iff.mp h
  obtain ⟨hreserved, hset⟩ := Registers.setGeneral_eq_ok_iff.mp hset
  have hne : register.toNat ≠ 7 := fun hseven => hreserved (UInt8.toNat_inj.mp hseven)
  refine ⟨value, ?_, ?_⟩
  · rw [Memory.read_eq_ok_iff, UInt8.toNat_toUInt16] at hread
    exact hread
  · rw [Registers.get_eq_ok_iff, Registers.cell?_setSp, if_neg hne, Registers.cell?_of_set hset,
      if_pos rfl]

/-- Only a push writes to memory. -/
theorem memory_of_effect {i : Instruction} {r : Registers} {m : Ram} {e : Effect}
    (h : i.effect r m = .ok e) (hi : ∀ register, i ≠ .push register) : e.memory = m := by
  cases i with
  | push register => exact absurd rfl (hi register)
  | pop register =>
    obtain ⟨-, value, r', -, -, rfl⟩ := effect_pop_eq_ok_iff.mp h
    rfl
  | ldi | prn | hlt | arith =>
    simp only [Instruction.effect, bind_eq_ok_iff, pure_eq_ok_iff] at h
    grind

/-- Only the two stack instructions move the stack pointer. -/
theorem sp_of_effect {i : Instruction} {r : Registers} {m : Ram} {e : Effect}
    (h : i.effect r m = .ok e) (hpush : ∀ register, i ≠ .push register)
    (hpop : ∀ register, i ≠ .pop register) : e.registers.sp = r.sp := by
  cases i with
  | push register => exact absurd rfl (hpush register)
  | pop register => exact absurd rfl (hpop register)
  | ldi register value =>
    simp only [Instruction.effect, bind_eq_ok_iff, pure_eq_ok_iff] at h
    obtain ⟨r', hset, rfl⟩ := h
    exact Registers.sp_of_setGeneral hset
  | arith op target source =>
    simp only [Instruction.effect, bind_eq_ok_iff, pure_eq_ok_iff] at h
    obtain ⟨left, -, right, -, result, -, r', hset, rfl⟩ := h
    exact Registers.sp_of_setGeneral hset
  | prn register =>
    simp only [Instruction.effect, bind_eq_ok_iff, pure_eq_ok_iff] at h
    obtain ⟨value, -, rfl⟩ := h
    rfl
  | hlt =>
    simp only [Instruction.effect, pure_eq_ok_iff] at h
    rw [← h]

/-- Only a print has a text, the line of a register. -/
theorem text_of_effect {i : Instruction} {r : Registers} {m : Ram} {e : Effect}
    (h : i.effect r m = .ok e) :
    e.text = [] ∨ ∃ register value,
      i = .prn register ∧ r.get register = .ok value ∧ e.text = Cycle.printed value := by
  cases i with
  | prn register =>
    simp only [Instruction.effect, bind_eq_ok_iff, pure_eq_ok_iff] at h
    obtain ⟨value, hget, rfl⟩ := h
    exact .inr ⟨register, value, rfl, hget, rfl⟩
  | pop register =>
    obtain ⟨-, value, r', -, -, rfl⟩ := effect_pop_eq_ok_iff.mp h
    exact .inl rfl
  | push register =>
    obtain ⟨-, value, m', -, -, rfl⟩ := effect_push_eq_ok_iff.mp h
    exact .inl rfl
  | ldi register value =>
    simp only [Instruction.effect, bind_eq_ok_iff, pure_eq_ok_iff] at h
    obtain ⟨r', -, rfl⟩ := h
    exact .inl rfl
  | arith op target source =>
    simp only [Instruction.effect, bind_eq_ok_iff, pure_eq_ok_iff] at h
    obtain ⟨left, -, right, -, result, -, r', -, rfl⟩ := h
    exact .inl rfl
  | hlt =>
    simp only [Instruction.effect, pure_eq_ok_iff] at h
    exact .inl (by rw [← h])

/-! ### The faults of an effect -/

/-- Is this a fault of the machine itself, and not one of its sink? -/
def Fault.Inner (fault : Fault) : Prop := ∀ refusal, fault ≠ .output refusal

/-- A computation whose faults are all faults of the machine itself. -/
def FaultsWithin {α : Type} (x : Except Fault α) : Prop := ∀ fault, x = .error fault → fault.Inner

theorem FaultsWithin.pure {α : Type} (a : α) : FaultsWithin (Pure.pure a : Except Fault α) := by
  intro fault h
  cases h

theorem FaultsWithin.error {α : Type} {fault : Fault} (h : fault.Inner) :
    FaultsWithin (.error fault : Except Fault α) := by
  intro fault' h'
  cases h'
  exact h

theorem FaultsWithin.bind {α β : Type} {x : Except Fault α} {f : α → Except Fault β}
    (hx : FaultsWithin x) (hf : ∀ a, FaultsWithin (f a)) : FaultsWithin (x >>= f) := by
  intro fault h
  rcases bind_eq_error_iff.mp h with h | ⟨a, -, h⟩
  · exact hx fault h
  · exact hf a fault h

theorem Registers.faultsWithin_get (r : Registers) (index : Byte) : FaultsWithin (r.get index) := by
  unfold Registers.get
  split
  · exact .pure _
  · exact .error (by intro refusal h; cases h)

theorem Registers.faultsWithin_setGeneral (r : Registers) (index value : Byte) :
    FaultsWithin (r.setGeneral index value) := by
  unfold Registers.setGeneral Registers.set
  split
  · exact .error (by intro refusal h; cases h)
  · split
    · exact .pure _
    · exact .error (by intro refusal h; cases h)

theorem Registers.faultsWithin_pushed (r : Registers) (register : Byte) :
    FaultsWithin (r.pushed register) := by
  unfold Registers.pushed
  split
  · exact .pure _
  · exact r.faultsWithin_get register

theorem Memory.faultsWithin_read {size : Nat} (m : Memory size) (address : Address) :
    FaultsWithin (m.read address) := by
  unfold Memory.read
  split
  · exact .pure _
  · exact .error (by intro refusal h; cases h)

theorem Memory.faultsWithin_write {size : Nat} (m : Memory size) (address : Address)
    (value : Byte) : FaultsWithin (m.write address value) := by
  rw [Memory.write_eq]
  split
  · exact .pure _
  · exact .error (by intro refusal h; cases h)

theorem Operation.faultsWithin_compute (op : Operation) (x y : Byte) :
    FaultsWithin (op.compute x y) := by
  cases op with
  | add | sub | mul => exact .pure _
  | div =>
    simp only [Operation.compute]
    split
    · exact .error (by intro refusal h; cases h)
    · exact .pure _

/-- An instruction by itself never faults for the sink. -/
theorem Instruction.faultsWithin_effect (i : Instruction) (r : Registers) (m : Ram) :
    FaultsWithin (i.effect r m) := by
  cases i with
  | ldi register value =>
    exact (r.faultsWithin_setGeneral register value).bind fun _ => .pure _
  | prn register => exact (r.faultsWithin_get register).bind fun _ => .pure _
  | hlt => exact .pure _
  | pop register =>
    simp only [Instruction.effect]
    split
    · exact .error (by intro refusal h; cases h)
    · refine (m.faultsWithin_read _).bind fun value => ?_
      exact (r.faultsWithin_setGeneral register value).bind fun _ => .pure _
  | push register =>
    simp only [Instruction.effect]
    split
    · exact .error (by intro refusal h; cases h)
    · refine (r.faultsWithin_pushed register).bind fun value => ?_
      exact (m.faultsWithin_write _ value).bind fun _ => .pure _
  | arith op target source =>
    refine (r.faultsWithin_get target).bind fun left => ?_
    refine (r.faultsWithin_get source).bind fun right => ?_
    refine (op.faultsWithin_compute left right).bind fun result => ?_
    exact (r.faultsWithin_setGeneral target result).bind fun _ => .pure _

/-! ### Instructions realize their effects -/

/-- The bench after an instruction, but for the program counter. -/
def Bench.leave (s : Bench) (i : Instruction) (e : Effect) (journal : Journal) : Bench where
  machine := ⟨s.machine.pc, e.registers, e.memory, s.machine.tracing, i.status s.machine.status⟩
  sink := s.sink.offer e.text
  journal := s.journal ++ journal

/-- What the execution of `i` comes to, given its effect.  A fault of the instruction leaves the
bench alone but for a record, and so does a refused text but for the part that the sink took. -/
def Realizes (i : Instruction) (s : Bench) (journal : Journal)
    (result : EStateM.Result Fault Bench Unit) : Except Fault Effect → Prop
  | .error fault =>
    journal.output = [] ∧ result = .error fault ⟨s.machine, s.sink, s.journal ++ journal⟩
  | .ok e =>
    journal.output = s.sink.taken e.text ∧
      result = if s.sink.fits e.text then .ok () (s.leave i e journal)
        else .error (.output s.sink.refusal)
          ⟨s.machine, s.sink.offer e.text, s.journal ++ journal⟩

/-- A fault before anything was recorded. -/
theorem Realizes.of_error {i : Instruction} {s : Bench} {fault : Fault} :
    Realizes i s [] (.error fault s) (.error fault) := by
  refine ⟨rfl, ?_⟩
  rw [List.append_nil]

/-- An instruction that prints nothing. -/
theorem Realizes.of_silent {i : Instruction} {s : Bench} {record : Record} {r : Registers} {m : Ram}
    {result : EStateM.Result Fault Bench Unit}
    (h : result = .ok () ⟨⟨s.machine.pc, r, m, s.machine.tracing, i.status s.machine.status⟩,
      s.sink, s.journal ++ [.record record]⟩) :
    Realizes i s [.record record] result (.ok ⟨r, m, []⟩) := by
  refine ⟨(Sink.taken_nil _).symm, ?_⟩
  rw [if_pos (Sink.fits_nil _), h, Bench.leave, Sink.offer_nil]

/-- **Instructions realize their effects.** -/
theorem Instruction.execute_run (i : Instruction) (s : Bench) :
    ∃ journal, Realizes i s journal (i.execute s)
      (i.effect s.machine.registers s.machine.memory) := by
  cases i with
  | ldi register value =>
    simp only [execute, Cycle.ldi_run, effect]
    rcases s.machine.registers.setGeneral register value with fault | r
    · exact ⟨_, .of_error⟩
    · exact ⟨_, .of_silent rfl⟩
  | prn register =>
    simp only [execute, Cycle.prn_run, effect]
    rcases s.machine.registers.get register with fault | value
    · exact ⟨_, .of_error⟩
    · -- the line is recorded only if the sink took all of it
      rcases hfits : s.sink.fits (Cycle.printed value) with - | -
      · refine ⟨[.output (s.sink.taken (Cycle.printed value))], ?_, ?_⟩
        · exact List.append_nil _
        · simp [hfits]
      · refine ⟨[.output (s.sink.taken (Cycle.printed value)), .record (.prn register value)],
          ?_, ?_⟩
        · exact List.append_nil _
        · simp [hfits, Bench.leave, Instruction.status]
  | hlt => exact ⟨_, .of_silent rfl⟩
  | pop register =>
    simp only [execute, Cycle.pop_run, effect]
    by_cases hsp : s.machine.registers.sp = 255
    · simp only [hsp, if_true]
      exact ⟨_, .of_error⟩
    · simp only [hsp, if_false]
      rcases s.machine.memory.read s.machine.registers.sp.toUInt16 with fault | value
      · exact ⟨_, .of_error⟩
      · rcases hset : s.machine.registers.setGeneral register value with fault | r
        · simp only [bind, Except.bind, hset]
          exact ⟨_, .of_error⟩
        · simp only [bind, Except.bind, hset]
          exact ⟨_, .of_silent rfl⟩
  | push register =>
    simp only [execute, Cycle.push_run, effect]
    by_cases hsp : s.machine.registers.sp = 0
    · simp only [hsp, if_true]
      exact ⟨_, .of_error⟩
    · simp only [hsp, if_false]
      rw [← Registers.pushed]
      rcases s.machine.registers.pushed register with fault | value
      · exact ⟨_, .of_error⟩
      · rcases hw : s.machine.memory.write (s.machine.registers.sp - 1).toUInt16 value with
          fault | m
        · simp only [bind, Except.bind, hw]
          exact ⟨_, .of_error⟩
        · simp only [bind, Except.bind, hw]
          exact ⟨_, .of_silent rfl⟩
  | arith op target source =>
    simp only [execute, Cycle.arith_run, effect, Registers.calculate]
    rcases s.machine.registers.get target with fault | left
    · exact ⟨_, .of_error⟩
    · rcases hright : s.machine.registers.get source with fault | right
      · simp only [bind, Except.bind]
        exact ⟨_, .of_error⟩
      · rcases hop : op.compute left right with fault | result
        · simp only [bind, Except.bind, hop]
          exact ⟨_, .of_error⟩
        · simp only [bind, Except.bind, hop, pure, Except.pure, Registers.store]
          rcases s.machine.registers.setGeneral target result with fault | r
          · -- the one fault that leaves a record
            exact ⟨[.record (.calculated ⟨op, target, source, left, right, result⟩)], rfl, rfl⟩
          · exact ⟨_, .of_silent rfl⟩

end LS8
