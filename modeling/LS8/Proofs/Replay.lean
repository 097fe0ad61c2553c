/-
LS8/Proofs/Replay.lean

The journal tells the run.

A successful cycle shows exactly one entry, and to follow the entry is to do to
a replica of the machine what the cycle does to the machine (`Move.Recorded`).
So the entries of a run, followed in order on the registers and the memory at
the start, lead to the machine at the end.

A cycle that faults shows nothing to follow, except where it was to calculate
into the stack pointer: then the calculation is told, and not kept.
-/
import LS8.Proofs.Entries
import LS8.Proofs.Frame
import LS8.Proofs.Journal
import LS8.Proofs.Moves
import Mathlib.Data.List.Forall2

namespace LS8

/-! ### The entry of an effect -/

theorem Operation.name_mem (op : Operation) : (op, op.name) ∈ operationWords := by
  cases op <;> simp [operationWords, name]

/-- What is told of a calculation, whether its result is kept or not. -/
theorem Registers.logs_of_calculate {r : Registers} {m : Ram} {op : Operation}
    {target source : Byte} {c : Calculation} (h : r.calculate op target source = .ok c) :
    (Instruction.arith op target source).Logs r m (Record.calculated c).entry := by
  simp only [calculate, bind_eq_ok_iff, pure_eq_ok_iff] at h
  obtain ⟨x, hx, y, hy, z, hz, rfl⟩ := h
  refine .arith op.name_mem (get_eq_ok_iff.mp hx) (get_eq_ok_iff.mp hy) ?_
    (Operation.exact_of_compute hz)
  rintro rfl
  exact Operation.divisor_of_compute hz

/-- **An instruction that has its effect logs its entry.** -/
theorem Instruction.logs_of_effect {i : Instruction} {r : Registers} {m : Ram} {e : Effect}
    (he : i.effect r m = .ok e) : i.Logs r m (i.record r m).entry := by
  cases i with
  | ldi register value => exact .ldi register value
  | prn register =>
    simp only [effect, bind_eq_ok_iff, pure_eq_ok_iff] at he
    obtain ⟨value, hget, -⟩ := he
    rw [record, (Registers.get_eq_ok hget).2]
    exact .prn (Registers.get_eq_ok_iff.mp hget)
  | hlt => exact .hlt
  | pop register =>
    obtain ⟨-, value, -, hread, -, -⟩ := effect_pop_eq_ok_iff.mp he
    rw [Memory.read_eq_ok_iff, UInt8.toNat_toUInt16] at hread
    rw [record, Memory.value, hread]
    exact .pop hread
  | push register =>
    have htop := toNat_sp_of_push he
    obtain ⟨-, value, m', hpushed, -, rfl⟩ := effect_push_eq_ok_iff.mp he
    rw [Registers.sp_setSp] at htop
    rw [record, Registers.pushed_eq_ok hpushed]
    exact .push htop (Registers.cell?_of_pushed hpushed)
  | arith op target source =>
    rw [effect_arith] at he
    obtain ⟨c, hcalculate, -⟩ := bind_eq_ok_iff.mp he
    rw [record, ← Registers.calculate_eq_ok hcalculate]
    exact Registers.logs_of_calculate hcalculate

theorem Instruction.level_record (i : Instruction) (r : Registers) (m : Ram) :
    (i.record r m).level = .debug := by
  cases i <;> rfl

/-! ### The entry of a cycle -/

/-- The entry of a successful cycle: that of its instruction, or a warning about the byte that is
passed over, with as many bytes as its two highest bits say. -/
inductive Move.Logs (move : Move) : Entry → Prop
  | executed {i : Instruction} {entry : Entry} (hi : move.instruction? = some i)
      (hlogs : i.Logs move.source.registers move.source.memory entry) : move.Logs entry
  | skipped {code : Byte} {pc : Address} {count : Nat} (hpc : move.source.pc = pc)
      (hcode : move.source.memory.cell? pc.toNat = some code)
      (hunknown : Opcode.ofByte? code = none) (hcount : count = code.toNat / 64 + 1) :
      move.Logs ⟨.warn, "ls8::processor",
        s!"Unsupported operation 0b{bits code} at 0x{hexits pc}, skipping {count} byte(s)"⟩

/-- The move shows one entry, and to follow this is to do what the move has done. -/
structure Move.Recorded (move : Move) (entry : Entry) : Prop where
  entries : move.journal.entries = [entry]
  logs : move.Logs entry
  follow : ∀ output, (move.source.replica output).follow entry =
    some (move.target.replica (output ++ move.journal.output))

variable {m m₁ m' : Machine} {sink sink₁ sink' : Sink} {outcome : Outcome} {journal : Journal}
  {moves : List Move}

theorem Sink.records_echo (sink : Sink) (text : List Char) : (sink.echo text).records = [] := by
  unfold echo
  split <;> rfl

/-- Without a trace a cycle shows what is told of it. -/
theorem Machine.journal_of_untraced (hm : m.status = .running) (htracing : m.tracing = false)
    (sink : Sink) : (m.step sink).journal = m.told sink := by
  rw [journal_of_step hm, announcement, htracing]
  rfl

/-- **Every successful cycle shows one entry, which tells what the cycle has done.** -/
theorem Machine.recorded_of_step (hm : m.status = .running) (htracing : m.tracing = false)
    (hstep : m.step sink = ⟨.ok outcome, m₁, sink₁, journal⟩) :
    ∃ entry, Move.Recorded ⟨m, outcome, journal, m₁⟩ entry := by
  have htold := journal_of_untraced hm htracing sink
  have hcycled := cycled hm sink
  rw [hstep] at htold hcycled
  change journal = _ at htold
  cases hcycled with
  | @skipped fetched _ hfetch hi hout =>
    rw [told_of_unknown hfetch hi] at htold
    have hpc := toNat_pc_add hfetch
    rw [Fetched.width, widthOf_toNat] at hpc
    refine ⟨(Record.skipped fetched.code m.pc).entry, ?_, ?_, ?_⟩
    · rw [htold]
      rfl
    · rw [Record.entry_skipped rfl]
      exact .skipped rfl (cell?_of_fetch hfetch) (Option.map_eq_none_iff.mp hi) rfl
    · intro output
      rw [Record.entry_skipped rfl, Replica.follow_skipped]
      show _ = some (Replica.mk (m.pc + (widthOf fetched.code).toUInt16).toNat _ _ _)
      rw [hout, List.append_nil, hpc]
      rfl
  | @executed fetched i e _ hfetch hi he hfits hout =>
    rw [told_of_instruction hfetch hi, Instruction.told_of_effect he, hfits] at htold
    have hlogs := Instruction.logs_of_effect he
    refine ⟨(i.record m.registers m.memory).entry, ?_, ?_, ?_⟩
    · rw [htold, Journal.entries, Journal.records_append, Sink.records_echo]
      rfl
    · exact .executed ((Move.instruction?_of_fetch hm hfetch).trans hi) hlogs
    · intro output
      have hfollow :=
        Replica.follow_of_logs hlogs (Instruction.does_of_effect he) m.pc.toNat output
      show _ = some (Replica.mk (m.pc + fetched.width.toUInt16).toNat _ _ _)
      rw [hout, toNat_pc_add hfetch, Fetched.width, Fetched.code_of_instruction? hi,
        ← i.length_encode]
      exact hfollow

/-! ### The entry of a fault -/

theorem Operation.compute_eq (op : Operation) (x y : Byte) :
    op.compute x y =
      if op = .div ∧ y = 0 then .error .divisionByZero
      else .ok ((op.compute x y).toOption.getD 0) := by
  cases op with
  | add | sub | mul => rfl
  | div =>
    by_cases hy : y = 0
    · rw [if_pos ⟨rfl, hy⟩, compute, if_pos hy]
    · rw [if_neg fun h => hy h.2, compute, if_neg hy]
      rfl

/-- A register that exists is read. -/
theorem Registers.get_of_exists {r : Registers} {register : Byte} (h : ¬7 < register) :
    r.get register = .ok (r.value register) := by
  rw [get_eq, if_neg h]

/-- A calculation is made with registers that exist, and not with a divisor of zero. -/
theorem Registers.calculate_eq_ok_iff {r : Registers} {op : Operation} {target source : Byte}
    {c : Calculation} :
    r.calculate op target source = .ok c ↔
      ¬7 < target ∧ ¬7 < source ∧ ¬(op = .div ∧ r.value source = 0) ∧
        c = r.calculation op target source := by
  constructor
  · intro h
    have hc := calculate_eq_ok h
    simp only [calculate, bind_eq_ok_iff] at h
    obtain ⟨x, hx, y, hy, z, hz, -⟩ := h
    obtain ⟨htarget, -⟩ := get_eq_ok hx
    obtain ⟨hsource, hvalue⟩ := get_eq_ok hy
    refine ⟨htarget, hsource, ?_, hc⟩
    rw [hvalue]
    intro hzero
    rw [op.compute_eq, if_pos hzero] at hz
    cases hz
  · rintro ⟨htarget, hsource, hdivisor, rfl⟩
    simp only [calculate, bind_eq_ok_iff, pure_eq_ok_iff]
    refine ⟨r.value target, get_of_exists htarget, r.value source, get_of_exists hsource, _, ?_,
      rfl⟩
    rw [op.compute_eq, if_neg hdivisor]
    rfl

/-- The machine is about to calculate into the stack pointer, with a register that exists, and not
to divide by zero. -/
structure Machine.Unkept (m : Machine) (op : Operation) (source : Byte) : Prop where
  holds : m.memory.Holds m.pc.toNat (Instruction.arith op 7 source).encode
  register : source ≤ 7
  divisor : ¬(op = .div ∧ m.registers.cell? source.toNat = some 0)

theorem Registers.cell?_eq_value {r : Registers} {register : Byte} (h : ¬7 < register) :
    r.cell? register.toNat = some (r.value register) :=
  get_eq_ok_iff.mp (get_of_exists h)

theorem Machine.unkept_iff {op : Operation} {source : Byte} :
    m.Unkept op source ↔
      m.memory.Holds m.pc.toNat (Instruction.arith op 7 source).encode ∧
        m.registers.calculate op 7 source = .ok (m.registers.calculation op 7 source) := by
  rw [Registers.calculate_eq_ok_iff]
  constructor
  · rintro ⟨hholds, hsource, hdivisor⟩
    have hexists : ¬7 < source := UInt8.not_lt.mpr hsource
    refine ⟨hholds, by decide, hexists, ?_, rfl⟩
    rintro ⟨hop, hzero⟩
    exact hdivisor ⟨hop, by rw [Registers.cell?_eq_value hexists, hzero]⟩
  · rintro ⟨hholds, -, hexists, hdivisor, -⟩
    refine ⟨hholds, UInt8.not_lt.mp hexists, ?_⟩
    rintro ⟨hop, hzero⟩
    rw [Registers.cell?_eq_value hexists] at hzero
    exact hdivisor ⟨hop, Option.some.inj hzero⟩

/-- A result for the stack pointer is refused. -/
theorem Registers.store_eq_error {r : Registers} {c : Calculation} {fault : Fault}
    (htarget : ¬7 < c.target) :
    r.store c = .error fault ↔ c.target = 7 ∧ fault = .reservedRegister 7 := by
  have hexists : c.target.toNat < 8 := by
    rw [seven_lt_iff] at htarget
    exact Classical.not_not.mp htarget
  rw [store, setGeneral, set, if_pos hexists]
  by_cases hseven : c.target = stackPointer
  · rw [if_pos hseven, hseven]
    simp [stackPointer, eq_comm]
  · rw [if_neg hseven]
    constructor
    · intro h
      cases h
    · rintro ⟨htarget, -⟩
      exact absurd htarget hseven

/-- What cannot be kept is told, and faults. -/
theorem Machine.Unkept.step {op : Operation} {source : Byte} (h : m.Unkept op source)
    (hm : m.status = .running) (htracing : m.tracing = false) (sink : Sink) :
    (m.step sink).result = .error (.reservedRegister 7) ∧
      ∃ entry, (m.step sink).journal.entries = [entry] ∧
        (Instruction.arith op 7 source).Logs m.registers m.memory entry := by
  obtain ⟨hholds, hcalculate⟩ := unkept_iff.mp h
  obtain ⟨fetched, hfetch, hi, -⟩ := fetch_of_holds hholds
  have hstore : m.registers.store (m.registers.calculation op 7 source) =
      .error (.reservedRegister 7) := rfl
  have he : (Instruction.arith op 7 source).effect m.registers m.memory =
      .error (.reservedRegister 7) := by
    rw [Instruction.effect_arith]
    exact bind_eq_error_iff.mpr (.inr ⟨_, hcalculate, bind_eq_error_iff.mpr (.inl hstore)⟩)
  obtain ⟨journal, -, hstep⟩ := step_of_due hm (.effect hfetch hi he) sink
  refine ⟨congrArg Reply.result hstep, _, ?_, Registers.logs_of_calculate hcalculate⟩
  rw [journal_of_untraced hm htracing, told_of_instruction hfetch hi,
    Instruction.told_of_error he, Instruction.unkept, hcalculate]
  rfl

/-- Arithmetic that faults has recorded nothing, or cannot keep its result. -/
theorem Instruction.unkept_of_error {i : Instruction} {r : Registers} {m : Ram} {fault : Fault}
    (he : i.effect r m = .error fault) :
    i.unkept r = [] ∨
      ∃ op source, i = .arith op 7 source ∧
        r.calculate op 7 source = .ok (r.calculation op 7 source) := by
  cases i with
  | ldi | prn | hlt | pop | push => exact .inl rfl
  | arith op target source =>
    rw [effect_arith] at he
    rcases bind_eq_error_iff.mp he with hcalculate | ⟨c, hcalculate, hrest⟩
    · left
      rw [unkept, hcalculate]
    · right
      rcases bind_eq_error_iff.mp hrest with hstore | ⟨r', -, hr'⟩
      · obtain ⟨hexists, -, -, rfl⟩ := Registers.calculate_eq_ok_iff.mp hcalculate
        obtain ⟨rfl, -⟩ : target = 7 ∧ _ := (Registers.store_eq_error hexists).mp hstore
        exact ⟨op, source, rfl, hcalculate⟩
      · cases hr'

/-- Any other fault shows no entry. -/
theorem Machine.entries_of_step_error {fault : Fault} (hm : m.status = .running)
    (htracing : m.tracing = false) (hfault : (m.step sink).result = .error fault)
    (hkept : ¬∃ op source, m.Unkept op source) : (m.step sink).journal.entries = [] := by
  rw [Journal.entries, List.map_eq_nil_iff, journal_of_untraced hm htracing]
  rcases hfetch : m.fetch with fault' | fetched
  · rw [told, hfetch]
    rfl
  · rcases hi : fetched.instruction? with - | i
    · -- a byte that is no opcode does not fault
      obtain ⟨journal, -, hstep⟩ := step_of_unknown hm hfetch hi sink
      rw [hstep] at hfault
      cases hfault
    · rw [told_of_instruction hfetch hi]
      rcases he : i.effect m.registers m.memory with fault' | e
      · rw [Instruction.told_of_error he]
        rcases Instruction.unkept_of_error he with hnil | ⟨op, source, rfl, hcalculate⟩
        · rw [hnil]
          rfl
        · exact absurd ⟨op, source, unkept_iff.mpr ⟨holds_of_fetch hfetch hi, hcalculate⟩⟩ hkept
      · -- the sink has refused the line
        obtain ⟨journal, -, hstep⟩ := step_of_text hm hfetch hi he sink
        rw [hstep] at hfault
        split at hfault
        · cases hfault
        · next hfits =>
          rw [Instruction.told_of_effect he, if_neg hfits, List.append_nil, Sink.records_echo]

/-! ### Runs -/

theorem Machine.tracing_of_step (hstep : m.step sink = ⟨.ok outcome, m₁, sink₁, journal⟩) :
    m₁.tracing = m.tracing := by
  rcases hm : m.status with - | -
  · have hcycled := cycled hm sink
    rw [hstep] at hcycled
    cases hcycled <;> rfl
  · rw [step_of_halted hm] at hstep
    cases hstep
    rfl

theorem Moves.tracing (h : Moves m sink moves m' sink') : m'.tracing = m.tracing := by
  induction h with
  | nil => rfl
  | cons hstep _ ih => exact ih.trans (Machine.tracing_of_step hstep)

/-- Every move shows an entry of its own. -/
theorem Moves.recorded (h : Moves m sink moves m' sink')
    (hrunning : ∀ move ∈ moves, move.source.status = .running) (htracing : m.tracing = false) :
    List.Forall₂ Move.Recorded moves (shownBy moves).entries := by
  induction h with
  | nil => exact .nil
  | cons hstep _ ih =>
    obtain ⟨hm, hrunning⟩ := List.forall_mem_cons.mp hrunning
    obtain ⟨entry, hentry⟩ := Machine.recorded_of_step hm htracing hstep
    rw [shownBy_cons, Journal.entries_append, hentry.entries]
    exact .cons hentry (ih hrunning ((Machine.tracing_of_step hstep).trans htracing))

/-- **The entries of moves lead where the moves lead.** -/
theorem Moves.replay (h : Moves m sink moves m' sink')
    (hrunning : ∀ move ∈ moves, move.source.status = .running) (htracing : m.tracing = false)
    (output : List Char) :
    (m.replica output).replay (shownBy moves).entries =
      some (m'.replica (output ++ (shownBy moves).output)) := by
  induction h generalizing output with
  | nil =>
    rw [shownBy_nil]
    exact congrArg (some <| Machine.replica _ ·) (List.append_nil output).symm
  | cons hstep _ ih =>
    obtain ⟨hm, hrunning⟩ := List.forall_mem_cons.mp hrunning
    obtain ⟨entry, hentry⟩ := Machine.recorded_of_step hm htracing hstep
    have hrest := ih hrunning ((Machine.tracing_of_step hstep).trans htracing)
    rw [shownBy_cons, Journal.entries_append, Journal.output_append, hentry.entries,
      ← List.append_assoc, ← hrest, List.singleton_append, Replica.replay_cons, hentry.follow]
    rfl

/-- The entries up to a move lead to its source. -/
theorem Moves.replay_take {k : Nat} {move : Move} (h : Moves m sink moves m' sink')
    (hrunning : ∀ move ∈ moves, move.source.status = .running) (htracing : m.tracing = false)
    (hk : moves[k]? = some move) :
    (m.replica []).replay ((shownBy moves).entries.take k) =
      some (move.source.replica (shownBy (moves.take k)).output) := by
  obtain ⟨sink₁, -, hbefore, -, -⟩ := h.focus hk
  have hrunning' : ∀ move ∈ moves.take k, move.source.status = .running :=
    fun move hmove => hrunning move (List.mem_of_mem_take hmove)
  have hlength : (shownBy (moves.take k)).entries.length = k := by
    rw [← (hbefore.recorded hrunning' htracing).length_eq]
    exact List.length_take_of_le (Nat.le_of_lt (List.getElem?_eq_some_iff.mp hk).1)
  have hentries : (shownBy moves).entries.take k = (shownBy (moves.take k)).entries := by
    conv => lhs; rw [← List.take_append_drop k moves, shownBy_append, Journal.entries_append]
    exact List.take_left' hlength
  rw [hentries, hbefore.replay hrunning' htracing, List.nil_append]

/-- **The journal tells the run.**  Without a trace, every successful cycle of a run shows exactly
one entry: at level debug if it executes an instruction, with the registers and the values that this
has worked with, and a warning if it skips a byte.  Before each of them the machine is where the
entries so far lead when they are followed.  A run that stops shows one entry more, at level info
and with the program counter at the end, and all entries together lead to the machine and the output
at the end.  A cycle that faults shows no entry, unless it was to calculate into the stack pointer,
with a register that exists and without a divisor of zero; then it shows the entry of the
calculation, and faults. -/
theorem run_replayed (m : Machine) (sink : Sink) (htracing : m.tracing = false) :
    ∃ moves m' sink', m.Course sink moves m' sink' ∧
      List.Forall₂ Move.Recorded moves (shownBy moves).entries ∧
      (∀ (k : Nat) (move : Move), moves[k]? = some move →
        (m.replica []).replay ((shownBy moves).entries.take k) =
          some (move.source.replica (shownBy (moves.take k)).output)) ∧
      ((m.run sink).result = .ok () →
        (m.run sink).journal.entries = (shownBy moves).entries ++
          [⟨.info, "ls8::processor", s!"Program halted. PC: 0x{hexits (m.run sink).machine.pc}"⟩] ∧
        (m.replica []).replay (m.run sink).journal.entries =
          some ((m.run sink).machine.replica (m.run sink).journal.output)) ∧
      ∀ fault, (m.run sink).result = .error fault →
        (m.run sink).journal = shownBy moves ++ (m'.step sink').journal ∧
        (∀ op source, m'.Unkept op source → fault = .reservedRegister 7 ∧
          ∃ entry, (m'.step sink').journal.entries = [entry] ∧
            (Instruction.arith op 7 source).Logs m'.registers m'.memory entry) ∧
        ((¬∃ op source, m'.Unkept op source) → (m'.step sink').journal.entries = []) := by
  obtain ⟨moves, m', sink', hcourse⟩ := m.exists_course sink
  refine ⟨moves, m', sink', hcourse, hcourse.leads.recorded hcourse.running htracing, ?_, ?_, ?_⟩
  · intro k move hk
    exact hcourse.leads.replay_take hcourse.running htracing hk
  · -- a run that stops
    intro hok
    obtain ⟨-, hrun⟩ := hcourse.of_ok hok
    have hreplay := hcourse.leads.replay hcourse.running htracing []
    have hentries : (m.run sink).journal.entries =
        (shownBy moves).entries ++ [(Record.finished m'.pc).entry] := by
      rw [hrun, Journal.entries_append]
      rfl
    rw [Record.entry_finished] at hentries
    rw [hentries, hrun]
    dsimp only
    refine ⟨rfl, ?_⟩
    have hlast : Journal.output [.record (.finished m'.pc)] = [] := rfl
    rw [Replica.replay_append, hreplay, Option.bind_some, Replica.replay_cons,
      Replica.follow_finished, Journal.output_append, hlast, List.append_nil, List.nil_append]
    rfl
  · -- a run that faults
    intro fault hfault
    obtain ⟨hm', hstep, hrun⟩ := hcourse.of_error hfault
    have htracing' : m'.tracing = false := hcourse.leads.tracing.trans htracing
    refine ⟨congrArg Reply.journal hrun, ?_, ?_⟩
    · intro op source hunkept
      obtain ⟨hresult, hentry⟩ := hunkept.step hm' htracing' sink'
      exact ⟨Except.error.inj (hstep.symm.trans hresult), hentry⟩
    · intro hkept
      exact Machine.entries_of_step_error hm' htracing' hstep hkept

/-- Put a five on the stack, add it to itself and print it, after a byte that is no opcode. -/
def tallying : Machine :=
  .boot (Memory.zero.placeBlock 0
    #[0x82, 0, 5, 0x45, 0, 0x46, 1, 0xA0, 0, 1, 0x00, 0x47, 0, 0x01])

/-- `ADD R7 R0`. -/
def overreaching : Machine := .boot (Memory.zero.placeBlock 0 #[0xA0, 7, 0])

/-- Eight entries lead to the end, and the sum for the stack pointer is told before it faults. -/
theorem run_replayed_tallying_overreaching :
    (tallying.run .unlimited).journal.entries =
      [⟨.debug, "ls8::processor::handlers", "LDI R0 5"⟩,
        ⟨.debug, "ls8::processor::handlers", "PUSH R0: 5"⟩,
        ⟨.debug, "ls8::processor::handlers", "POP R1: 5"⟩,
        ⟨.debug, "ls8::alu", "Add R0 R1: 5 5 -> 10"⟩,
        ⟨.warn, "ls8::processor", "Unsupported operation 0b00000000 at 0x0A, skipping 1 byte(s)"⟩,
        ⟨.debug, "ls8::processor::handlers", "PRN R0: 10"⟩,
        ⟨.debug, "ls8::processor::handlers", "HLT"⟩,
        ⟨.info, "ls8::processor", "Program halted. PC: 0x0E"⟩] ∧
    (tallying.replica []).replay (tallying.run .unlimited).journal.entries =
      some ((tallying.run .unlimited).machine.replica "10\n".toList) ∧
    (overreaching.run .unlimited).result = .error (.reservedRegister 7) ∧
    (overreaching.run .unlimited).journal.entries =
      [⟨.debug, "ls8::alu", "Add R7 R0: 244 0 -> 244"⟩] := by
  have hok : (tallying.run .unlimited).result = .ok () := by decide +kernel
  have hout : (tallying.run .unlimited).journal.output = "10\n".toList := by decide +kernel
  have hfault : (overreaching.step .unlimited).result = .error (.reservedRegister 7) := by
    decide +kernel
  have hresult : (overreaching.run .unlimited).result = .error (.reservedRegister 7) := by
    rw [Machine.run_of_step_error rfl hfault]
  obtain ⟨_, _, _, -, -, -, hreplay, -⟩ := run_replayed tallying .unlimited rfl
  refine ⟨by decide +kernel, ?_, hresult, by decide +kernel⟩
  rw [← hout]
  exact (hreplay hok).2

end LS8
