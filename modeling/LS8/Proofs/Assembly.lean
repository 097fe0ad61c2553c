/-
LS8/Proofs/Assembly.lean

An assembled program runs as it is written.

A list of instructions can be run by itself, one instruction after the other on
registers, memory and output (`evaluate`): there is no program counter, and
nothing is fetched.  It can also be assembled into memory and left to the
machine, which knows nothing but bytes.  `run_assembled` says that the machine
then does the same, instruction by instruction, wherever the program lies.

The machine keeps its stack in the same memory as the program, so one condition
is needed: no push that is executed writes over instructions still to come.

The evaluation works with the effects of instructions, as the machine does.  So
that it says by itself what a program does, `evaluates_evaluate` takes it to the
rules and the checks of the instructions.
-/
import LS8.Proofs.Faults
import LS8.Proofs.Moves
import LS8.Proofs.Rules
import Mathlib.Data.List.Basic

namespace LS8

/-! ### Assembling -/

/-- An opcode makes an instruction with exactly as many operands as the table says. -/
theorem Opcode.exists_instruction_iff {op : Opcode} {operands : List Byte} :
    (∃ i : Instruction, i.opcode = op ∧ i.arguments = operands ∧ i.encode = op.byte :: operands) ↔
      operands.length = op.operands.toNat := by
  constructor
  · rintro ⟨i, rfl, rfl, -⟩
    exact i.length_arguments
  · intro h
    cases op with
    | hlt =>
      obtain rfl := List.length_eq_zero_iff.mp h
      exact ⟨.hlt, rfl, rfl, rfl⟩
    | prn =>
      obtain ⟨register, rfl⟩ := List.length_eq_one_iff.mp h
      exact ⟨.prn register, rfl, rfl, rfl⟩
    | pop =>
      obtain ⟨register, rfl⟩ := List.length_eq_one_iff.mp h
      exact ⟨.pop register, rfl, rfl, rfl⟩
    | push =>
      obtain ⟨register, rfl⟩ := List.length_eq_one_iff.mp h
      exact ⟨.push register, rfl, rfl, rfl⟩
    | ldi =>
      obtain ⟨register, value, rfl⟩ := List.length_eq_two.mp h
      exact ⟨.ldi register value, rfl, rfl, rfl⟩
    | arith op =>
      obtain ⟨target, source, rfl⟩ := List.length_eq_two.mp h
      exact ⟨.arith op target source, rfl, rfl, rfl⟩

/-- The bytes of a program. -/
def assemble (program : List Instruction) : List Byte := program.flatMap Instruction.encode

@[simp] theorem assemble_nil : assemble [] = [] := rfl

@[simp] theorem assemble_cons (i : Instruction) (program : List Instruction) :
    assemble (i :: program) = i.encode ++ assemble program := rfl

/-- Where the instruction with number `k` starts, from the start of the program on. -/
def address (program : List Instruction) (k : Nat) : Nat := (assemble (program.take k)).length

@[simp] theorem address_zero (program : List Instruction) : address program 0 = 0 := rfl

@[simp] theorem address_cons_succ (i : Instruction) (program : List Instruction) (k : Nat) :
    address (i :: program) (k + 1) = i.encode.length + address program k := by
  simp [address]

/-- `m` holds `bytes` in the cells from `start` on. -/
def Memory.Holds {size : Nat} (m : Memory size) (start : Nat) (bytes : List Byte) : Prop :=
  ∀ j byte, bytes[j]? = some byte → m.cell? (start + j) = some byte

theorem Memory.Holds.left {size : Nat} {m : Memory size} {start : Nat} {bytes bytes' : List Byte}
    (h : m.Holds start (bytes ++ bytes')) : m.Holds start bytes := by
  intro j byte hj
  apply h j byte
  rw [List.getElem?_append_left (List.getElem?_eq_some_iff.mp hj).1]
  exact hj

theorem Memory.Holds.right {size : Nat} {m : Memory size} {start : Nat} {bytes bytes' : List Byte}
    (h : m.Holds start (bytes ++ bytes')) : m.Holds (start + bytes.length) bytes' := by
  intro j byte hj
  rw [Nat.add_assoc]
  apply h (bytes.length + j) byte
  rw [List.getElem?_append_right (Nat.le_add_right _ _), Nat.add_sub_cancel_left]
  exact hj

/-! ### Evaluating -/

/-- What a program works on. -/
structure Store where
  registers : Registers
  memory : Ram
  /-- All that was printed. -/
  output : List Char

/-- How the evaluation of a program ends. -/
inductive Ending where
  /-- After the last instruction. -/
  | completed
  /-- After an instruction that stops. -/
  | halted
  /-- At an instruction that faults. -/
  | faulted (fault : Fault)

/-- What the evaluation of a program comes to: the store after every instruction that was executed,
and the ending. -/
structure Evaluation where
  stores : List Store
  ending : Ending

/-- The store after an instruction with effect `e`. -/
def Store.after (s : Store) (e : Effect) : Store := ⟨e.registers, e.memory, s.output ++ e.text⟩

/-- Execute instructions one after the other. -/
def evaluate : List Instruction → Store → Evaluation
  | [], _ => ⟨[], .completed⟩
  | i :: program, s =>
    match i.effect s.registers s.memory with
    | .error fault => ⟨[], .faulted fault⟩
    | .ok e =>
      if i = .hlt then ⟨[s.after e], .halted⟩
      else ⟨s.after e :: (evaluate program (s.after e)).stores,
        (evaluate program (s.after e)).ending⟩

theorem evaluate_of_error {i : Instruction} {s : Store} {fault : Fault}
    (h : i.effect s.registers s.memory = .error fault) (program : List Instruction) :
    evaluate (i :: program) s = ⟨[], .faulted fault⟩ := by
  rw [evaluate, h]

theorem evaluate_of_hlt {s : Store} {e : Effect}
    (h : Instruction.hlt.effect s.registers s.memory = .ok e) (program : List Instruction) :
    evaluate (.hlt :: program) s = ⟨[s.after e], .halted⟩ := by
  rw [evaluate, h]
  rfl

theorem evaluate_of_ok {i : Instruction} {s : Store} {e : Effect} (hi : i ≠ .hlt)
    (h : i.effect s.registers s.memory = .ok e) (program : List Instruction) :
    evaluate (i :: program) s =
      ⟨s.after e :: (evaluate program (s.after e)).stores,
        (evaluate program (s.after e)).ending⟩ := by
  rw [evaluate, h]
  exact if_neg hi

/-- A program by the rules: every instruction does what its rule says, up to the first one that
stops or has a check that trips. -/
inductive Evaluates : List Instruction → Store → List Store → Ending → Prop
  /-- Nothing is left to execute. -/
  | completed (s : Store) : Evaluates [] s [] .completed
  /-- The first instruction stops. -/
  | halted {program : List Instruction} {s : Store} {e : Effect}
      (hdoes : Instruction.hlt.Does s.registers s.memory e) :
      Evaluates (.hlt :: program) s [⟨e.registers, e.memory, s.output ++ e.text⟩] .halted
  /-- The first instruction does its work, and the program goes on with what it leaves. -/
  | executed {i : Instruction} {program : List Instruction} {s : Store} {e : Effect}
      {stores : List Store} {ending : Ending} (hi : i ≠ .hlt)
      (hdoes : i.Does s.registers s.memory e)
      (hrest : Evaluates program ⟨e.registers, e.memory, s.output ++ e.text⟩ stores ending) :
      Evaluates (i :: program) s (⟨e.registers, e.memory, s.output ++ e.text⟩ :: stores) ending
  /-- The first instruction has checks that trip; the first of these is the fault. -/
  | faulted {i : Instruction} {program : List Instruction} {s : Store} {fault : Fault}
      (hchecks : firstFault (i.checks s.registers .unlimited) = some fault) :
      Evaluates (i :: program) s [] (.faulted fault)

/-- An effect that faults has a check that trips. -/
theorem Instruction.firstFault_checks {i : Instruction} {r : Registers} {m : Ram} {fault : Fault}
    (he : i.effect r m = .error fault) (sink : Sink) :
    firstFault (i.checks r sink) = some fault := by
  have hgoverns : firstFault (i.checks r sink) = faultOf (i.deliver r m sink) :=
    i.governs_checks r m sink
  rw [hgoverns, deliver, he]
  rfl

/-- **The evaluation goes by the rules.** -/
theorem evaluates_evaluate (program : List Instruction) (s : Store) :
    Evaluates program s (evaluate program s).stores (evaluate program s).ending := by
  induction program generalizing s with
  | nil => exact .completed s
  | cons i program ih =>
    rcases he : i.effect s.registers s.memory with fault | e
    · rw [evaluate_of_error he]
      exact .faulted (Instruction.firstFault_checks he .unlimited)
    · have hdoes := Instruction.does_of_effect he
      by_cases hhlt : i = .hlt
      · subst hhlt
        rw [evaluate_of_hlt he]
        exact .halted hdoes
      · rw [evaluate_of_ok hhlt he]
        exact .executed hhlt hdoes (ih _)

/-- No push that is executed writes over what follows it in the program.  A push writes the cell at
the stack pointer that it leaves, and is two bytes long. -/
def Clear (program : List Instruction) (base : Nat) (stores : List Store) : Prop :=
  ∀ k register store, program[k]? = some (.push register) → stores[k]? = some store →
    ¬(base + address program k + 2 ≤ store.registers.sp.toNat ∧
      store.registers.sp.toNat < base + (assemble program).length)

theorem Clear.tail {i : Instruction} {program : List Instruction} {base : Nat} {store : Store}
    {stores : List Store} (h : Clear (i :: program) base (store :: stores)) :
    Clear program (base + i.encode.length) stores := by
  intro k register store' hk hstore
  have hcons := h (k + 1) register store' hk hstore
  rw [address_cons_succ, assemble_cons, List.length_append, ← Nat.add_assoc, ← Nat.add_assoc]
    at hcons
  exact hcons

/-! ### Fetching assembled code -/

/-- The operand with number `n` is fetched where the memory holds the instruction. -/
theorem Machine.operand_of_holds {m : Machine} {i : Instruction} {n : Nat} (hn : n < 2)
    (hcode : m.memory.Holds m.pc.toNat i.encode) (hpc : m.pc.toNat < ramSize) :
    ∃ a, m.operand (widthOf i.opcode.byte) (n + 1).toUInt16 = .ok a ∧
      ∀ v, i.arguments[n]? = some v → a = v := by
  have hoffset : (n + 1).toUInt16.toNat = n + 1 := by
    rw [Nat.toUInt16_eq, UInt16.toNat_ofNat_of_lt']
    simp only [UInt16.size]
    omega
  have hposition : (m.pc + (n + 1).toUInt16).toNat = m.pc.toNat + (n + 1) := by
    rw [Address.toNat_add_of_lt hpc (by omega), hoffset]
  rw [operand]
  rcases harg : i.arguments[n]? with - | v
  · -- not used, so the cell need not exist
    have hunused : ¬(n + 1).toUInt16 < (widthOf i.opcode.byte).toUInt16 := by
      have hlen := List.getElem?_eq_none_iff.mp harg
      have hwidth : (widthOf i.opcode.byte).toNat = i.arguments.length + 1 := i.length_encode.symm
      rw [UInt16.lt_iff_toNat_lt, hoffset, UInt8.toNat_toUInt16, hwidth]
      omega
    refine ⟨_, if_neg hunused, ?_⟩
    intro v hv
    cases hv
  · have hcell : m.memory.cell? (m.pc + (n + 1).toUInt16).toNat = some v := by
      rw [hposition]
      apply hcode (n + 1) v
      rw [Instruction.encode, List.getElem?_cons_succ]
      exact harg
    refine ⟨v, ?_, fun v' hv' => Option.some.inj hv'⟩
    split
    · exact Memory.read_eq_ok_iff.mpr hcell
    · rw [Memory.get?, hcell]
      rfl

/-- **Fetching undoes assembling.** -/
theorem Machine.fetch_of_holds {m : Machine} {i : Instruction}
    (hcode : m.memory.Holds m.pc.toNat i.encode) :
    ∃ fetched, m.fetch = .ok fetched ∧ fetched.instruction? = some i ∧
      fetched.width.toNat = i.encode.length := by
  have hbyte : m.memory.cell? m.pc.toNat = some i.opcode.byte := hcode 0 _ rfl
  have hpc : m.pc.toNat < ramSize := Memory.lt_of_cell? hbyte
  obtain ⟨a, ha, hargument⟩ := operand_of_holds (n := 0) (by omega) hcode hpc
  obtain ⟨b, hb, hargument'⟩ := operand_of_holds (n := 1) (by omega) hcode hpc
  refine ⟨⟨i.opcode.byte, a, b⟩, ?_, Fetched.instruction?_of_arguments hargument hargument',
    i.length_encode.symm⟩
  have hopcode : (Opcode.ofByte? i.opcode.byte).isSome = true := by
    rw [Opcode.ofByte?_byte]
    rfl
  rw [fetch, Memory.read_eq_ok_iff.mpr hbyte]
  simp only [bind, Except.bind, hopcode, if_true]
  have ha' : m.operand (widthOf i.opcode.byte) 1 = .ok a := ha
  have hb' : m.operand (widthOf i.opcode.byte) 2 = .ok b := hb
  rw [ha', hb']
  rfl

/-! ### Executing assembled code -/

/-- The move with number `k` executes the instruction with number `k`, at its address, and leaves
the store that the evaluation has after it. -/
structure Executes (program : List Instruction) (base : Nat) (stores : List Store) (k : Nat)
    (output : List Char) (move : Move) : Prop where
  address : move.source.pc.toNat = base + address program k
  instruction : ∃ i, program[k]? = some i ∧ move.instruction? = some i ∧ move.outcome = i.outcome
  store : stores[k]? = some ⟨move.target.registers, move.target.memory, output⟩

/-- `m` comes to the ending of the evaluation when `count` instructions were executed. -/
def Machine.EndsAs (m : Machine) (program : List Instruction) (count : Nat) : Ending → Prop
  | .completed => count = program.length ∧ m.status = .running
  | .halted => (∃ k, count = k + 1 ∧ program[k]? = some .hlt) ∧ m.status = .halted
  | .faulted fault => count < program.length ∧ m.status = .running ∧
      ∃ journal, journal.output = [] ∧
        m.step .unlimited = ⟨.error fault, m, .unlimited, journal⟩

/-- What is assembled behind an instruction is still there after it, if a push is clear of it. -/
theorem holds_after {m : Machine} {i : Instruction} {e : Effect} {bytes : List Byte}
    (hcode : m.memory.Holds m.pc.toNat (i.encode ++ bytes))
    (he : i.effect m.registers m.memory = .ok e)
    (hclear : ∀ register, i = .push register →
      ¬(m.pc.toNat + 2 ≤ e.registers.sp.toNat ∧
        e.registers.sp.toNat < m.pc.toNat + (i.encode ++ bytes).length)) :
    e.memory.Holds (m.pc.toNat + i.encode.length) bytes := by
  have hbehind := hcode.right
  by_cases hpush : ∃ register, i = .push register
  · obtain ⟨register, rfl⟩ := hpush
    have hclear := hclear register rfl
    obtain ⟨value, -, hcells⟩ := cell?_of_push he
    intro j byte hj
    have hlt := (List.getElem?_eq_some_iff.mp hj).1
    rw [List.length_append] at hclear
    have hlen : (Instruction.push register).encode.length = 2 := rfl
    rw [hcells, if_neg (by omega)]
    exact hbehind j byte hj
  · rw [memory_of_effect he fun register hi => hpush ⟨register, hi⟩]
    exact hbehind

theorem Executes.succ {i : Instruction} {program : List Instruction} {base : Nat} {store : Store}
    {stores : List Store} {k : Nat} {output : List Char} {move : Move}
    (h : Executes program (base + i.encode.length) stores k output move) :
    Executes (i :: program) base (store :: stores) (k + 1) output move := by
  obtain ⟨haddress, ⟨j, hj, hmove, hout⟩, hstore⟩ := h
  refine ⟨?_, ⟨j, ?_, hmove, hout⟩, ?_⟩
  · rw [haddress, address_cons_succ, Nat.add_assoc]
  · rw [List.getElem?_cons_succ]
    exact hj
  · rw [List.getElem?_cons_succ]
    exact hstore

theorem Machine.EndsAs.succ {m : Machine} {i : Instruction} {program : List Instruction}
    {count : Nat} {ending : Ending} (h : m.EndsAs program count ending) :
    m.EndsAs (i :: program) (count + 1) ending := by
  cases ending with
  | completed => exact ⟨congrArg Nat.succ h.1, h.2⟩
  | halted =>
    obtain ⟨⟨k, hcount, hk⟩, hm⟩ := h
    exact ⟨⟨k + 1, congrArg Nat.succ hcount, hk⟩, hm⟩
  | faulted fault => exact ⟨Nat.succ_lt_succ h.1, h.2⟩

/-- The machine `m` executes an assembled instruction with effect `e`, which leaves `m₁`. -/
structure Performs (i : Instruction) (e : Effect) (m : Machine) (journal : Journal)
    (m₁ : Machine) : Prop where
  output : journal.output = e.text
  step : m.step .unlimited = ⟨.ok i.outcome, m₁, .unlimited, journal⟩
  /-- The program counter stands behind the instruction. -/
  pc : m₁.pc.toNat = m.pc.toNat + i.encode.length
  registers : m₁.registers = e.registers
  memory : m₁.memory = e.memory
  status : m₁.status = i.status .running
  instruction : Move.instruction? ⟨m, i.outcome, journal, m₁⟩ = some i

/-- An assembled instruction has its effect. -/
theorem performs_of_assembled {m : Machine} {i : Instruction} {e : Effect}
    (hm : m.status = .running) (hcode : m.memory.Holds m.pc.toNat i.encode)
    (he : i.effect m.registers m.memory = .ok e) : ∃ journal m₁, Performs i e m journal m₁ := by
  obtain ⟨fetched, hfetch, hi, hwidth⟩ := Machine.fetch_of_holds hcode
  obtain ⟨journal, hout, hstep⟩ :=
    Machine.step_of_effect hm hfetch hi he (Sink.fits_unlimited e.text)
  refine ⟨journal, m.after fetched i e, hout, hstep, ?_, rfl, rfl, ?_, ?_⟩
  · rw [← hwidth]
    exact Machine.toNat_pc_add hfetch
  · rw [← hm]
    rfl
  · rw [Move.instruction?_of_fetch hm hfetch]
    exact hi

/-- `moves` lead from `m` to `m'` as the evaluation of the program goes, after an earlier output. -/
structure RunsAs (program : List Instruction) (m : Machine) (output : List Char)
    (moves : List Move) (m' : Machine) : Prop where
  leads : Moves m .unlimited moves m' .unlimited
  length : moves.length = (evaluate program ⟨m.registers, m.memory, output⟩).stores.length
  executes : ∀ k move, moves[k]? = some move →
    Executes program m.pc.toNat (evaluate program ⟨m.registers, m.memory, output⟩).stores k
      (output ++ (shownBy (moves.take (k + 1))).output) move
  pc : m'.pc.toNat = m.pc.toNat + address program moves.length
  ends : m'.EndsAs program moves.length (evaluate program ⟨m.registers, m.memory, output⟩).ending

variable {program : List Instruction} {i : Instruction} {e : Effect} {m m₁ m' : Machine}
  {journal : Journal} {output : List Char} {moves : List Move}

/-- The move of an assembled instruction, whatever comes after it. -/
theorem Performs.executes (h : Performs i e m journal m₁) (program : List Instruction)
    (output : List Char) (stores : List Store) :
    Executes (i :: program) m.pc.toNat (Store.after ⟨m.registers, m.memory, output⟩ e :: stores) 0
      (output ++ journal.output) ⟨m, i.outcome, journal, m₁⟩ := by
  refine ⟨rfl, ⟨i, rfl, h.instruction, rfl⟩, ?_⟩
  rw [h.output, h.registers, h.memory]
  rfl

theorem RunsAs.nil (hm : m.status = .running) (output : List Char) :
    RunsAs [] m output [] m := by
  refine ⟨.nil m .unlimited, rfl, ?_, rfl, rfl, hm⟩
  intro k move hk
  cases hk

/-- An instruction that faults, for the machine as for the evaluation. -/
theorem RunsAs.faulted {fault : Fault} (hm : m.status = .running)
    (hcode : m.memory.Holds m.pc.toNat i.encode)
    (he : i.effect m.registers m.memory = .error fault) (program : List Instruction)
    (output : List Char) : RunsAs (i :: program) m output [] m := by
  obtain ⟨fetched, hfetch, hi, -⟩ := Machine.fetch_of_holds hcode
  have heval := evaluate_of_error (s := ⟨m.registers, m.memory, output⟩) he program
  refine ⟨.nil m .unlimited, ?_, ?_, rfl, ?_⟩
  · rw [heval]
    rfl
  · intro k move hk
    cases hk
  · rw [heval]
    exact ⟨Nat.succ_pos _, hm, Machine.step_of_due hm (.effect hfetch hi he) .unlimited⟩

/-- The machine stops, and so does the evaluation. -/
theorem RunsAs.halted (he : Instruction.hlt.effect m.registers m.memory = .ok e)
    (h : Performs .hlt e m journal m₁) (program : List Instruction) (output : List Char) :
    RunsAs (.hlt :: program) m output [⟨m, Instruction.hlt.outcome, journal, m₁⟩] m₁ := by
  have heval := evaluate_of_hlt (s := ⟨m.registers, m.memory, output⟩) he program
  refine ⟨.cons h.step (.nil m₁ .unlimited), ?_, ?_, h.pc, ?_⟩
  · rw [heval]
    rfl
  · intro k move hk
    rw [heval]
    rcases k with - | k
    · obtain rfl := Option.some.inj hk
      simpa using h.executes program output []
    · cases hk
  · rw [heval]
    exact ⟨⟨0, rfl, rfl⟩, h.status⟩

/-- An instruction, and then the rest of the program. -/
theorem RunsAs.cons (hi : i ≠ .hlt) (he : i.effect m.registers m.memory = .ok e)
    (h : Performs i e m journal m₁) (hrest : RunsAs program m₁ (output ++ e.text) moves m') :
    RunsAs (i :: program) m output (⟨m, i.outcome, journal, m₁⟩ :: moves) m' := by
  have hstore : Store.after ⟨m.registers, m.memory, output⟩ e =
      ⟨m₁.registers, m₁.memory, output ++ e.text⟩ := by
    rw [h.registers, h.memory]
    rfl
  have heval := evaluate_of_ok (s := ⟨m.registers, m.memory, output⟩) hi he program
  refine ⟨.cons h.step hrest.leads, ?_, ?_, ?_, ?_⟩
  · rw [heval, hstore]
    exact congrArg Nat.succ hrest.length
  · intro k move hk
    rw [heval, hstore]
    rcases k with - | k
    · obtain rfl := Option.some.inj hk
      rw [← hstore]
      simpa using h.executes program output _
    · have hlater := hrest.executes k move hk
      rw [h.pc] at hlater
      rw [List.take_succ_cons, shownBy_cons, Journal.output_append, h.output, ← List.append_assoc]
      exact hlater.succ
  · rw [hrest.pc, h.pc, List.length_cons, address_cons_succ, Nat.add_assoc]
  · rw [heval, hstore]
    exact hrest.ends.succ

/-- The induction: any machine and any earlier output. -/
theorem runsAs_of_assembled (program : List Instruction) :
    ∀ (m : Machine) (output : List Char), m.status = .running →
      m.memory.Holds m.pc.toNat (assemble program) →
      Clear program m.pc.toNat (evaluate program ⟨m.registers, m.memory, output⟩).stores →
      ∃ moves m', RunsAs program m output moves m' := by
  induction program with
  | nil =>
    intro m output hm _ _
    exact ⟨[], m, .nil hm output⟩
  | cons i program ih =>
    intro m output hm hcode hclear
    rcases he : i.effect m.registers m.memory with fault | e
    · exact ⟨[], m, .faulted hm hcode.left he program output⟩
    · obtain ⟨journal, m₁, hperforms⟩ := performs_of_assembled hm hcode.left he
      by_cases hhlt : i = .hlt
      · subst hhlt
        exact ⟨_, m₁, .halted he hperforms program output⟩
      · -- the rest of the program is still there, and still clear
        have hm₁ : m₁.status = .running := by
          rw [hperforms.status]
          cases i <;> first | rfl | exact absurd rfl hhlt
        rw [evaluate_of_ok (s := ⟨m.registers, m.memory, output⟩) hhlt he] at hclear
        have hcode₁ : m₁.memory.Holds m₁.pc.toNat (assemble program) := by
          rw [hperforms.memory, hperforms.pc]
          refine holds_after hcode he ?_
          rintro register rfl
          exact hclear 0 register _ rfl rfl
        have hclear₁ := hclear.tail
        rw [← hperforms.pc, Store.after, ← hperforms.registers, ← hperforms.memory] at hclear₁
        obtain ⟨moves, m', hrest⟩ := ih m₁ (output ++ e.text) hm₁ hcode₁ hclear₁
        exact ⟨_, m', .cons hhlt he hperforms hrest⟩

/-! ### Running assembled programs -/

/-- **An assembled program runs as it is written.**  An instruction is an opcode with as many
operands as the table gives it, in memory the byte of the opcode and the operands behind it; and the
evaluation of a program goes by the rules of its instructions.  A running machine whose memory holds
a program at the program counter, and whatever elsewhere, executes the instructions that the
evaluation executes, in order and each at its address, with the same registers, memory and output
after each of them.  It comes to the same ending, right behind what it executed, and so does its
run. -/
theorem run_assembled {program : List Instruction} {m : Machine} (hm : m.status = .running)
    (hcode : m.memory.Holds m.pc.toNat (assemble program))
    (hclear : Clear program m.pc.toNat (evaluate program ⟨m.registers, m.memory, []⟩).stores) :
    (∀ (op : Opcode) (operands : List Byte),
      (∃ i : Instruction, i.opcode = op ∧ i.arguments = operands ∧
        i.encode = op.byte :: operands) ↔ operands.length = op.operands.toNat) ∧
    Evaluates program ⟨m.registers, m.memory, []⟩
      (evaluate program ⟨m.registers, m.memory, []⟩).stores
      (evaluate program ⟨m.registers, m.memory, []⟩).ending ∧
    ∃ moves m', Moves m .unlimited moves m' .unlimited ∧
      moves.length = (evaluate program ⟨m.registers, m.memory, []⟩).stores.length ∧
      (∀ k move, moves[k]? = some move →
        Executes program m.pc.toNat (evaluate program ⟨m.registers, m.memory, []⟩).stores k
          (shownBy (moves.take (k + 1))).output move) ∧
      m'.pc.toNat = m.pc.toNat + address program moves.length ∧
      m'.EndsAs program moves.length (evaluate program ⟨m.registers, m.memory, []⟩).ending ∧
      m.run .unlimited = (m'.run .unlimited).after (shownBy moves) ∧
      ((evaluate program ⟨m.registers, m.memory, []⟩).ending = .halted →
        m.run .unlimited =
          ⟨.ok (), m', .unlimited, shownBy moves ++ [.record (.finished m'.pc)]⟩) ∧
      (∀ fault, (evaluate program ⟨m.registers, m.memory, []⟩).ending = .faulted fault →
        ∃ journal, journal.output = [] ∧
          m.run .unlimited = ⟨.error fault, m', .unlimited, shownBy moves ++ journal⟩) := by
  obtain ⟨moves, m', hmoves, hlength, hexecutes, haddress, hends⟩ :=
    runsAs_of_assembled program m [] hm hcode hclear
  have hrun : m.run .unlimited = (m'.run .unlimited).after (shownBy moves) := by
    refine hmoves.run_eq ?_
    intro move hmove
    obtain ⟨k, hk⟩ := List.getElem?_of_mem hmove
    obtain ⟨i, -, hi, -⟩ := (hexecutes k move hk).instruction
    exact Move.running_of_instruction? hi
  refine ⟨fun _ _ => Opcode.exists_instruction_iff, evaluates_evaluate program _, moves, m', hmoves,
    hlength, hexecutes, haddress, hends, hrun, ?_, ?_⟩
  · intro hhalted
    rw [hhalted] at hends
    rw [hrun, Machine.run_of_halted hends.2]
    rfl
  · intro fault hfaulted
    rw [hfaulted] at hends
    obtain ⟨-, hm', journal, hout, hstep⟩ := hends
    refine ⟨journal, hout, ?_⟩
    rw [hrun, Machine.run_of_step_error hm' (congrArg Reply.result hstep), hstep]
    rfl

/-- Print five, by way of the stack. -/
def detour : List Instruction := [.ldi 0 5, .push 0, .pop 1, .prn 1, .hlt]

/-- A machine that stands before `detour`, with other bytes around it. -/
def detouring : Machine :=
  { Machine.boot ((Memory.zero.fill 0xFF).placeBlock 16 (assemble detour).toArray) with pc := 16 }

/-- Five instructions, with one push that is clear of the program. -/
theorem run_assembled_detour :
    detouring.status = .running ∧ detouring.memory.Holds 16 (assemble detour) ∧
      ∃ moves m', Moves detouring .unlimited moves m' .unlimited ∧ moves.length = 5 ∧
        m'.pc.toNat = 26 ∧
        detouring.run .unlimited =
          ⟨.ok (), m', .unlimited, shownBy moves ++ [.record (.finished m'.pc)]⟩ := by
  have hcode : detouring.memory.Holds 16 (assemble detour) := by
    have hcells : ∀ j < 10, detouring.memory.cell? (16 + j) = (assemble detour)[j]? := by
      decide +kernel
    intro j byte hj
    rw [hcells j (List.getElem?_eq_some_iff.mp hj).1, hj]
  have hclear : Clear detour detouring.pc.toNat
      (evaluate detour ⟨detouring.registers, detouring.memory, []⟩).stores := by
    have hsp : ((evaluate detour ⟨detouring.registers, detouring.memory, []⟩).stores.map
        (·.registers.sp)) = [0xF4, 0xF3, 0xF4, 0xF4, 0xF4] := by decide +kernel
    intro k register store hk hstore
    have hpointer := congrArg (·[k]?) hsp
    simp only [List.getElem?_map, hstore, Option.map_some] at hpointer
    rcases k with - | - | - | - | - | k <;> cases hk
    -- the stack lies far behind the program
    obtain hpointer := Option.some.inj hpointer
    rw [hpointer]
    decide
  obtain ⟨-, -, moves, m', hmoves, hlength, -, hpc, -, -, hhalted, -⟩ :=
    @run_assembled detour detouring rfl hcode hclear
  have hcount : moves.length = 5 := by
    rw [hlength]
    decide +kernel
  refine ⟨rfl, hcode, moves, m', hmoves, hcount, ?_, hhalted ?_⟩
  · rw [hpc, hcount]
    rfl
  · rfl

end LS8
