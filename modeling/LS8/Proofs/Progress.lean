/-
LS8/Proofs/Progress.lean

Every run ends, and soon.

There are no jumps.  Whatever a successful cycle does, it moves the program
counter forward by the width of the byte that was there, and it needs a cell
under the program counter.  So from the address `p` on there are at most
`256 - p` of them, also if the program writes over itself, and the run ends in
one of two ways: behind a halt, or at a fault of the next cycle.  A run that
meets neither a halt nor another fault leaves memory, and by no more than a
width (`run_ends_within`).
-/
import LS8.Proofs.Faults
import LS8.Proofs.Moves
import Mathlib.Control.Monad.Basic

namespace LS8

variable {m m₁ m' : Machine} {sink sink₁ sink' : Sink} {outcome : Outcome} {journal : Journal}
  {moves : List Move}

/-! ### A step forward -/

/-- A successful cycle of a running machine moves on by the width of the byte at the program
counter. -/
theorem Machine.moves_on (hm : m.status = .running)
    (h : (m.step sink).result = .ok outcome) :
    ∃ code, m.memory.cell? m.pc.toNat = some code ∧
      (m.step sink).machine.pc.toNat = m.pc.toNat + (widthOf code).toNat := by
  obtain ⟨fetched, hfetch, hpc⟩ := pc_of_step hm h
  exact ⟨fetched.code, cell?_of_fetch hfetch, hpc⟩

/-- The cycle starts in memory, and goes between one and four cells forward. -/
theorem Machine.pc_bounds_of_step (hm : m.status = .running)
    (hstep : m.step sink = ⟨.ok outcome, m₁, sink₁, journal⟩) :
    m.pc.toNat ≤ 255 ∧ m.pc.toNat < m₁.pc.toNat ∧ m₁.pc.toNat ≤ m.pc.toNat + 4 := by
  obtain ⟨code, hcode, hpc⟩ := moves_on hm (congrArg Reply.result hstep)
  rw [hstep] at hpc
  change m₁.pc.toNat = _ at hpc
  have hlt : m.pc.toNat < ramSize := Memory.lt_of_cell? hcode
  have hpos := one_le_widthOf code
  have hmax := widthOf_le_four code
  refine ⟨Nat.le_of_lt_succ hlt, ?_, ?_⟩ <;> omega

/-! ### Many steps forward -/

/-- From `p` on there are at most `256 - p` successful cycles. -/
theorem Moves.length_le (h : Moves m sink moves m' sink')
    (hrunning : ∀ move ∈ moves, move.source.status = .running) :
    moves.length ≤ 256 - m.pc.toNat := by
  induction h with
  | nil => exact Nat.zero_le _
  | @cons m _ _ m₁ _ _ moves _ _ hstep _ ih =>
    obtain ⟨hm, hrest⟩ := List.forall_mem_cons.mp hrunning
    have hlength : moves.length ≤ 256 - m₁.pc.toNat := ih hrest
    -- the first cycle starts in memory, and leaves less room for the others
    obtain ⟨hlast, hlt, -⟩ : m.pc.toNat ≤ 255 ∧ m.pc.toNat < m₁.pc.toNat ∧ _ :=
      Machine.pc_bounds_of_step hm hstep
    rw [List.length_cons]
    omega

/-- The program counter never goes back. -/
theorem Moves.pc_le (h : Moves m sink moves m' sink')
    (hrunning : ∀ move ∈ moves, move.source.status = .running) : m.pc.toNat ≤ m'.pc.toNat := by
  induction h with
  | nil => exact Nat.le_refl _
  | cons hstep _ ih =>
    obtain ⟨hm, hrest⟩ := List.forall_mem_cons.mp hrunning
    have hfirst := Machine.pc_bounds_of_step hm hstep
    exact Nat.le_trans (Nat.le_of_lt hfirst.2.1) (ih hrest)

/-- From a cell of memory on, no cycle leads further than four cells past the last. -/
theorem Moves.pc_le_of_le (h : Moves m sink moves m' sink')
    (hrunning : ∀ move ∈ moves, move.source.status = .running) (hpc : m.pc.toNat ≤ 259) :
    m'.pc.toNat ≤ 259 := by
  induction h with
  | nil => exact hpc
  | cons hstep _ ih =>
    obtain ⟨hm, hrest⟩ := List.forall_mem_cons.mp hrunning
    obtain ⟨hlast, -, hle⟩ := Machine.pc_bounds_of_step hm hstep
    exact ih hrest (Nat.le_trans hle (Nat.add_le_add_right hlast 4))

/-! ### Where a run stops -/

/-- The move executes the halt. -/
structure Move.Stops (move : Move) : Prop where
  instruction : move.instruction? = some .hlt
  code : move.source.memory.cell? move.source.pc.toNat = some Opcode.hlt.byte
  pc : move.target.pc.toNat = move.source.pc.toNat + 1
  memory : move.target.memory = move.source.memory

/-- Only a halt stops a running machine. -/
theorem Machine.stops_of_step (hm : m.status = .running)
    (hstep : m.step sink = ⟨.ok outcome, m₁, sink₁, journal⟩) (hm₁ : m₁.status = .halted) :
    Move.Stops ⟨m, outcome, journal, m₁⟩ := by
  have hcycled := cycled hm sink
  rw [hstep] at hcycled
  cases hcycled with
  | skipped => cases hm.symm.trans hm₁
  | @executed fetched i e _ hfetch hi he =>
    have hstatus : i.status m.status = .halted := hm₁
    obtain rfl : i = .hlt := by
      rw [hm] at hstatus
      cases i <;> first | rfl | cases hstatus
    have hcode : fetched.code = Opcode.hlt.byte := Fetched.code_of_instruction? hi
    refine ⟨?_, ?_, ?_, ?_⟩
    · rw [Move.instruction?_of_fetch hm hfetch]
      exact hi
    · rw [← hcode]
      exact cell?_of_fetch hfetch
    · show (m.pc + fetched.width.toUInt16).toNat = m.pc.toNat + 1
      rw [toNat_pc_add hfetch, Fetched.width, hcode]
      rfl
    · show e.memory = m.memory
      exact memory_of_effect he (by simp)

/-- Moves that stop a running machine end with a halt. -/
theorem Moves.exists_stop (h : Moves m sink moves m' sink')
    (hrunning : ∀ move ∈ moves, move.source.status = .running) (hm : m.status = .running)
    (hm' : m'.status = .halted) : ∃ move ∈ moves, move.Stops ∧ move.target = m' := by
  induction h with
  | nil => cases hm.symm.trans hm'
  | @cons m sink outcome m₁ sink₁ journal moves m' sink' hstep rest ih =>
    obtain ⟨-, hrest⟩ := List.forall_mem_cons.mp hrunning
    rcases hm₁ : m₁.status with - | -
    · obtain ⟨move, hmove, hstops⟩ := ih hrest hm₁ hm'
      exact ⟨move, List.mem_cons_of_mem _ hmove, hstops⟩
    · -- there are no moves of a machine that has stopped
      have hlast : m₁ = m' := by
        cases rest with
        | nil => rfl
        | cons hstep' rest' =>
          cases hm₁.symm.trans (hrest _ List.mem_cons_self)
      exact ⟨_, List.mem_cons_self, Machine.stops_of_step hm hstep hm₁, hlast⟩

/-! ### The end of a run -/

/-- A run that stops a running machine ends right behind a halt, which is still there. -/
theorem Machine.Course.behind_halt (h : m.Course sink moves m' sink') (hm : m.status = .running)
    (hm' : m'.status = .halted) :
    m.pc.toNat < m'.pc.toNat ∧ m'.pc.toNat ≤ 256 ∧
      m'.memory.cell? (m'.pc.toNat - 1) = some Opcode.hlt.byte := by
  obtain ⟨move, hmove, hstops, rfl⟩ := h.leads.exists_stop h.running hm hm'
  obtain ⟨k, hk⟩ := List.getElem?_of_mem hmove
  obtain ⟨_, _, hbefore, hrunning, -, -⟩ := h.focus hk
  have hfrom : m.pc.toNat ≤ move.source.pc.toNat := hbefore.pc_le hrunning
  have hlt : move.source.pc.toNat < ramSize := Memory.lt_of_cell? hstops.code
  refine ⟨?_, ?_, ?_⟩
  · rw [hstops.pc]
    exact Nat.lt_succ_of_le hfrom
  · rw [hstops.pc]
    exact hlt
  · rw [hstops.pc, hstops.memory, Nat.add_sub_cancel]
    exact hstops.code

/-- A run that meets neither a halt nor another fault leaves memory, and by no more than a width. -/
theorem Machine.Course.overruns (h : m.Course sink moves m' sink') (hpc : m.pc.toNat ≤ 255)
    (hm : m.status = .running) (hnever : ∀ move ∈ moves, move.instruction? ≠ some .hlt)
    (hother : ∀ fault, (m.run sink).result = .error fault → ∃ a, fault = .addressOutOfRange a) :
    ∃ a, (m.run sink).result = .error (.addressOutOfRange a) ∧ 256 ≤ a.toNat ∧ a.toNat ≤ 259 := by
  rcases hresult : (m.run sink).result with fault | _
  · obtain ⟨a, rfl⟩ := hother fault hresult
    obtain ⟨hm', hstep, -⟩ := h.of_error hresult
    obtain ⟨hge, hle⟩ := address_of_step hm' hstep
    have hpc' : m'.pc.toNat ≤ 259 := h.leads.pc_le_of_le h.running (Nat.le_trans hpc (by decide))
    refine ⟨a, rfl, hge, ?_⟩
    omega
  · -- nothing else stops a machine than a halt
    obtain ⟨hm', -⟩ := h.of_ok hresult
    obtain ⟨move, hmove, hstops, -⟩ := h.leads.exists_stop h.running hm hm'
    exact absurd hstops.instruction (hnever move hmove)

/-- **Every run ends, within a bound given by the program counter.**  A successful cycle moves on by
the width of the byte at the program counter.  A run goes through at most `256 - p` of them.  If it
ends without a fault, the machine had stopped before, or it stands behind a halt; otherwise the
last cycle faults, and if there is no other reason for it, the program has run over the end. -/
theorem run_ends_within (m : Machine) (sink : Sink) :
    (∀ outcome, m.status = .running → (m.step sink).result = .ok outcome →
      ∃ code, m.memory.cell? m.pc.toNat = some code ∧
        (m.step sink).machine.pc.toNat = m.pc.toNat + (widthOf code).toNat ∧
        1 ≤ (widthOf code).toNat ∧ (widthOf code).toNat ≤ 4) ∧
    ∃ moves m' sink', m.Course sink moves m' sink' ∧
      moves.length ≤ 256 - m.pc.toNat ∧
      ((m.run sink).result = .ok () →
        m.status = .halted ∧ moves = [] ∧
            m.run sink = ⟨.ok (), m, sink, [.record (.finished m.pc)]⟩ ∨
          m.status = .running ∧ (m.run sink).machine = m' ∧ m'.status = .halted ∧
            m.pc.toNat < m'.pc.toNat ∧ m'.pc.toNat ≤ 256 ∧
            m'.memory.cell? (m'.pc.toNat - 1) = some Opcode.hlt.byte) ∧
      (∀ fault, (m.run sink).result = .error fault →
        m'.status = .running ∧ (m'.step sink').result = .error fault) ∧
      (m.status = .running → m.pc.toNat ≤ 255 →
        (∀ move ∈ moves, move.instruction? ≠ some .hlt) →
        (∀ fault, (m.run sink).result = .error fault → ∃ a, fault = .addressOutOfRange a) →
        ∃ a, (m.run sink).result = .error (.addressOutOfRange a) ∧
          256 ≤ a.toNat ∧ a.toNat ≤ 259) := by
  refine ⟨?_, ?_⟩
  · -- one cycle
    intro outcome hm hok
    obtain ⟨code, hcode, hpc⟩ := Machine.moves_on hm hok
    exact ⟨code, hcode, hpc, one_le_widthOf code, widthOf_le_four code⟩
  · obtain ⟨moves, m', sink', hcourse⟩ := m.exists_course sink
    refine ⟨moves, m', sink', hcourse, hcourse.leads.length_le hcourse.running, ?_, ?_, ?_⟩
    · -- without a fault
      intro hok
      rcases hm : m.status with - | -
      · obtain ⟨hm', hrun⟩ := hcourse.of_ok hok
        refine .inr ⟨rfl, congrArg Reply.machine hrun, hm', ?_⟩
        exact hcourse.behind_halt hm hm'
      · refine .inl ⟨rfl, ?_, Machine.run_of_halted hm sink⟩
        cases hcourse.leads with
        | nil => rfl
        | cons => cases hm.symm.trans (hcourse.running _ List.mem_cons_self)
    · -- with the fault of the last cycle
      intro fault hfault
      obtain ⟨hm', hstep, -⟩ := hcourse.of_error hfault
      exact ⟨hm', hstep⟩
    · -- over the end of memory
      intro hm hpc hnever hother
      exact hcourse.overruns hpc hm hnever hother

/-- In the last cell, a byte that is no opcode and as wide as can be. -/
def overrunning : Machine := { Machine.boot (Memory.zero.fill 0xC0) with pc := 255 }

/-- One cycle, and then a fault as far behind memory as there is one. -/
theorem run_ends_within_overrunning :
    ∃ moves m' sink', overrunning.Course .unlimited moves m' sink' ∧ moves.length ≤ 1 ∧
      ∃ a, (overrunning.run .unlimited).result = .error (.addressOutOfRange a) ∧
        256 ≤ a.toNat ∧ a.toNat ≤ 259 := by
  obtain ⟨-, moves, m', sink', hcourse, hlength, -, -, hover⟩ :=
    run_ends_within overrunning .unlimited
  refine ⟨moves, m', sink', hcourse, hlength, hover rfl (by decide) ?_ ?_⟩
  · -- the one move, if there is one, skips a byte
    intro move hmove hhlt
    cases hcourse.leads with
    | nil => cases hmove
    | cons hstep rest =>
      obtain rfl := List.eq_nil_of_length_eq_zero (Nat.le_zero.mp (Nat.le_of_succ_le_succ hlength))
      obtain rfl := List.mem_singleton.mp hmove
      have hnone : Fetched.instruction? ⟨0xC0, 0, 0⟩ = none := rfl
      have hfetch : overrunning.fetch = .ok ⟨0xC0, 0, 0⟩ := by decide +kernel
      rw [Move.instruction?_of_fetch rfl hfetch, hnone] at hhlt
      cases hhlt
  · -- the second cycle faults
    intro fault hfault
    have hfirst : (overrunning.step .unlimited).result = .ok (.skipped 0xC0) := by decide +kernel
    have hsecond : ((overrunning.step .unlimited).machine.step
        (overrunning.step .unlimited).sink).result = .error (.addressOutOfRange 259) := by
      decide +kernel
    rw [Machine.run_of_step_ok rfl hfirst, Machine.run_of_step_error rfl hsecond] at hfault
    exact ⟨259, (Except.error.inj hfault).symm⟩

end LS8
