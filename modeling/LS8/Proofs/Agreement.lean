/-
LS8/Proofs/Agreement.lean

Nothing behind the halt matters, and nothing below the stack.

A machine on its way to the address `e` reads the code up to there and the
stack from its top on; these cells are live.  Pushes and pops move the top, and
a push may write into the code.  But two machines that agree on registers and
live cells do the same in a cycle, and agree on what is live after it
(`Alike.step`): what a push makes live it has written, in both of them.  So
they do the same all the way (`run_of_live_cells`).
-/
import LS8.Proofs.Fetch
import LS8.Proofs.Progress
import LS8.Proofs.Stack
import Mathlib.Data.List.Forall2

namespace LS8

/-! ### Agreement -/

/-- `m` and `n` hold the same in all of `cells`. -/
def Memory.AgreeOn (cells : Nat → Prop) (m n : Ram) : Prop :=
  ∀ a, cells a → n.cell? a = m.cell? a

theorem Memory.AgreeOn.mono {cells cells' : Nat → Prop} {m n : Ram} (h : m.AgreeOn cells n)
    (hcells : ∀ a, cells' a → cells a) : m.AgreeOn cells' n :=
  fun a ha => h a (hcells a ha)

/-- The cells that may be read on the way to the address `e`: code, and the stack. -/
def Machine.Live (m : Machine) (e a : Nat) : Prop := m.pc.toNat ≤ a ∧ a < e ∨ m.top ≤ a

/-- Two machines that nothing on the way to the address `e` can tell apart. -/
structure Machine.Alike (e : Nat) (m n : Machine) : Prop where
  pc : n.pc = m.pc
  registers : n.registers = m.registers
  status : n.status = m.status
  memory : m.memory.AgreeOn (m.Live e) n.memory

/-- Two moves that look the same: by what they come to and print, and by program counter and
registers after them. -/
structure Move.Matches (move move' : Move) : Prop where
  outcome : move'.outcome = move.outcome
  output : move'.journal.output = move.journal.output
  pc : move'.target.pc = move.target.pc
  registers : move'.target.registers = move.target.registers

/-- Moves that look the same one by one print the same. -/
theorem output_of_matches {moves moves' : List Move}
    (h : List.Forall₂ Move.Matches moves moves') :
    (shownBy moves').output = (shownBy moves).output := by
  induction h with
  | nil => rfl
  | cons hmove _ ih =>
    rw [shownBy_cons, shownBy_cons, Journal.output_append, Journal.output_append, hmove.output, ih]

/-! ### Effects -/

/-- An instruction without use of the stack leaves the memory alone, whatever it holds. -/
theorem Instruction.effect_with_memory {i : Instruction} {r : Registers} {m : Ram} {e : Effect}
    (hpush : ∀ register, i ≠ .push register) (hpop : ∀ register, i ≠ .pop register)
    (he : i.effect r m = .ok e) (n : Ram) :
    i.effect r n = .ok ⟨e.registers, n, e.text⟩ := by
  cases i with
  | push register => exact absurd rfl (hpush register)
  | pop register => exact absurd rfl (hpop register)
  | ldi | prn | hlt | arith =>
    simp only [effect, bind_eq_ok_iff, pure_eq_ok_iff] at he ⊢
    grind

/-- **An instruction reads nothing of memory but the stack.**  Two memories that agree on the stack,
and elsewhere on some cells, do so after the instruction. -/
theorem Instruction.effect_of_agree {i : Instruction} {r : Registers} {m n : Ram} {e : Effect}
    {cells : Nat → Prop} (hagree : m.AgreeOn cells n) (hstack : ∀ a, r.sp.toNat ≤ a → cells a)
    (he : i.effect r m = .ok e) :
    ∃ n', i.effect r n = .ok ⟨e.registers, n', e.text⟩ ∧
      e.memory.AgreeOn (fun a => cells a ∨ e.registers.sp.toNat ≤ a) n' := by
  cases i with
  | push register =>
    have hmoved := toNat_sp_of_push he
    obtain ⟨hsp, value, m', hvalue, hwrite, rfl⟩ := effect_push_eq_ok_iff.mp he
    obtain ⟨n', hwrite'⟩ := n.write_of_byte (r.sp - 1) value
    refine ⟨n', effect_push_eq_ok_iff.mpr ⟨hsp, value, n', hvalue, hwrite', rfl⟩, ?_⟩
    intro a ha
    rw [Memory.cell?_of_write hwrite, Memory.cell?_of_write hwrite', UInt8.toNat_toUInt16]
    by_cases htop : a = (r.sp - 1).toNat
    · -- the new top of the stack
      rw [if_pos htop, if_pos htop]
    · rw [if_neg htop, if_neg htop]
      apply hagree
      rcases ha with ha | ha
      · exact ha
      · apply hstack
        rw [Registers.sp_setSp] at ha hmoved
        omega
  | pop register =>
    have hmoved := toNat_sp_of_pop he
    obtain ⟨hsp, value, r', hread, hset, rfl⟩ := effect_pop_eq_ok_iff.mp he
    have hread' : n.read r.sp.toUInt16 = .ok value := by
      rw [Memory.read_eq_ok_iff, UInt8.toNat_toUInt16] at hread ⊢
      rw [hagree _ (hstack _ (Nat.le_refl _))]
      exact hread
    refine ⟨n, effect_pop_eq_ok_iff.mpr ⟨hsp, value, r', hread', hset, rfl⟩, ?_⟩
    apply hagree.mono
    rintro a (ha | ha)
    · exact ha
    · apply hstack
      omega
  | ldi | prn | hlt | arith =>
    refine ⟨n, effect_with_memory (by simp) (by simp) he n, ?_⟩
    rw [memory_of_effect he (by simp), sp_of_effect he (by simp) (by simp)]
    apply hagree.mono
    rintro a (ha | ha)
    · exact ha
    · exact hstack a ha

/-! ### Cycles -/

variable {e : Nat} {m m₁ m' n : Machine} {sink sink₁ sink' : Sink} {outcome : Outcome}
  {journal : Journal} {moves : List Move}

/-- What a cycle makes live is new on the stack, or was live before. -/
theorem Machine.live_of_le {a : Nat} (hpc : m.pc.toNat ≤ m₁.pc.toNat) (h : m₁.Live e a) :
    m.Live e a ∨ m₁.top ≤ a := by
  rcases h with ⟨hfrom, hto⟩ | htop
  · exact .inl (.inl ⟨Nat.le_trans hpc hfrom, hto⟩)
  · exact .inr htop

/-- Machines that are alike fetch the same. -/
theorem Machine.Alike.fetch {fetched : Fetched} (h : Alike e m n) (hfetch : m.fetch = .ok fetched)
    (he : m.pc.toNat + fetched.width.toNat ≤ e) :
    ∃ fetched', n.fetch = .ok fetched' ∧ fetched'.code = fetched.code ∧
      fetched'.instruction? = fetched.instruction? := by
  apply fetch_congr h.pc hfetch
  intro a hfrom hto
  exact h.memory a (.inl ⟨hfrom, Nat.lt_of_lt_of_le hto he⟩)

/-- **Machines that are alike do the same in a cycle, and are alike after it.** -/
theorem Machine.Alike.step (h : Alike e m n) (hm : m.status = .running)
    (hstep : m.step sink = ⟨.ok outcome, m₁, sink₁, journal⟩) (he : m₁.pc.toNat ≤ e) :
    ∃ n₁ journal', n.step sink = ⟨.ok outcome, n₁, sink₁, journal'⟩ ∧
      journal'.output = journal.output ∧ Alike e m₁ n₁ := by
  have hn : n.status = .running := h.status.trans hm
  obtain ⟨-, hlt, -⟩ := pc_bounds_of_step hm hstep
  have hcycled := cycled hm sink
  rw [hstep] at hcycled
  cases hcycled with
  | skipped hfetch hi hout =>
    -- its operands may differ, but they are not used
    rw [toNat_pc_add hfetch] at he
    obtain ⟨fetched', hfetch', hcode, hi'⟩ := h.fetch hfetch he
    obtain ⟨journal', hout', hstep'⟩ := step_of_unknown hn hfetch' (hi'.trans hi) sink
    rw [hcode, Fetched.width, hcode, h.pc] at hstep'
    refine ⟨_, journal', hstep', hout'.trans hout.symm, rfl, h.registers, h.status, ?_⟩
    apply h.memory.mono
    intro a ha
    rcases live_of_le hlt.le ha with hlive | htop
    · exact hlive
    · exact .inr htop
  | executed hfetch hi heffect hfits hout =>
    -- the stack is live, and so is what a push adds to it
    have he' := he
    rw [after, toNat_pc_add hfetch] at he'
    obtain ⟨fetched', hfetch', hcode, hi'⟩ := h.fetch hfetch he'
    obtain ⟨memory, heffect', hagree⟩ :=
      Instruction.effect_of_agree h.memory (fun a ha => .inr ha) heffect
    rw [← h.registers] at heffect'
    obtain ⟨journal', hout', hstep'⟩ :=
      step_of_effect hn hfetch' (hi'.trans hi) heffect' hfits
    refine ⟨_, journal', hstep', hout'.trans hout.symm, ?_, rfl, ?_, ?_⟩
    · rw [after, after, Fetched.width, hcode, h.pc]
      rfl
    · rw [after, after, h.status]
    · exact hagree.mono fun a ha => live_of_le hlt.le ha

/-! ### Runs -/

/-- Machines that are alike do the same on the way to the address `e`. -/
theorem Machine.Alike.exists_moves (h : Alike e m n) (hmoves : Moves m sink moves m' sink')
    (hrunning : ∀ move ∈ moves, move.source.status = .running) (he : m'.pc.toNat ≤ e) :
    ∃ moves' n', Moves n sink moves' n' sink' ∧
      (∀ move ∈ moves', move.source.status = .running) ∧
      List.Forall₂ Move.Matches moves moves' ∧ Alike e m' n' := by
  induction hmoves generalizing n with
  | nil m sink =>
    refine ⟨[], n, .nil n sink, ?_, .nil, h⟩
    intro move hmove
    cases hmove
  | cons hstep rest ih =>
    obtain ⟨hm, hrest⟩ := List.forall_mem_cons.mp hrunning
    -- the first cycle stays before `e`, since the others only go on from there
    have hle := Nat.le_trans (rest.pc_le hrest) he
    obtain ⟨n₁, journal', hstep', hout, hafter⟩ := h.step hm hstep hle
    obtain ⟨moves', n', hmoves', hrunning', hmatches, hend⟩ := ih hafter hrest he
    refine ⟨_, n', .cons hstep' hmoves', ?_, .cons ⟨rfl, hout, ?_, ?_⟩ hmatches, hend⟩
    · exact List.forall_mem_cons.mpr ⟨h.status.trans hm, hrunning'⟩
    · exact hafter.pc
    · exact hafter.registers

/-- **A run depends on live cells only.**  Take two running machines with the same program counter
and registers, and let the run of the first stop it at the address `e`.  If the second has the same
in all cells from the program counter up to `e` and in all cells from the top of the stack on, then
it stops as well, and cycle by cycle it comes to the same and prints the same, with the same program
counter and registers, whatever there is in all other cells. -/
theorem run_of_live_cells (hm : m.status = .running) (hn : n.status = .running)
    (hpc : n.pc = m.pc) (hregisters : n.registers = m.registers)
    (hhalts : (m.run sink).result = .ok ())
    (hcode : m.memory.AgreeOn
      (fun a => m.pc.toNat ≤ a ∧ a < (m.run sink).machine.pc.toNat) n.memory)
    (hstack : m.memory.AgreeOn (fun a => m.registers.sp.toNat ≤ a) n.memory) :
    (∃ moves m' moves' n' sink', m.Course sink moves m' sink' ∧ n.Course sink moves' n' sink' ∧
      List.Forall₂ Move.Matches moves moves') ∧
    (n.run sink).result = .ok () ∧ (n.run sink).machine.status = .halted ∧
    (n.run sink).machine.pc = (m.run sink).machine.pc ∧
    (n.run sink).machine.registers = (m.run sink).machine.registers ∧
    (n.run sink).sink = (m.run sink).sink ∧
    (n.run sink).journal.output = (m.run sink).journal.output := by
  obtain ⟨moves, m', sink', hcourse⟩ := m.exists_course sink
  obtain ⟨hm', hrun⟩ := hcourse.of_ok hhalts
  rw [hrun] at hcode ⊢
  have halike : Machine.Alike m'.pc.toNat m n := by
    refine ⟨hpc, hregisters, hn.trans hm.symm, ?_⟩
    rintro a (ha | ha)
    · exact hcode a ha
    · exact hstack a ha
  obtain ⟨moves', n', hmoves', hrunning', hmatches, hend⟩ :=
    halike.exists_moves hcourse.leads hcourse.running (Nat.le_refl _)
  have hn' : n'.status = .halted := hend.status.trans hm'
  have hcourse' := hmoves'.course_of_halted hrunning' hn'
  rw [hcourse'.run_of_halted hn']
  refine ⟨⟨moves, m', moves', n', sink', hcourse, hcourse', hmatches⟩, rfl, hn', hend.pc,
    hend.registers, rfl, ?_⟩
  rw [Journal.output_append, Journal.output_append, output_of_matches hmatches]
  rfl

/-- Print seven by way of the stack, from the address 2 on. -/
def tidy : Machine :=
  { Machine.boot (Memory.zero.placeBlock 2 #[0x82, 0, 7, 0x45, 0, 0x46, 1, 0x47, 1, 1]) with
    pc := 2 }

/-- The same, with other bytes before the code, behind it, and below the stack. -/
def cluttered : Machine :=
  { tidy with memory := ((tidy.memory.place 1 0xFF).place 12 0xA3).place 0xF3 5 }

/-- The clutter below the stack is where the push goes. -/
theorem run_of_live_cells_cluttered :
    (tidy.run .unlimited).result = .ok () ∧ (tidy.run .unlimited).machine.pc = 12 ∧
      (tidy.run .unlimited).journal.output = "7\n".toList ∧
      tidy.memory.AgreeOn (fun a => 2 ≤ a ∧ a < 12) cluttered.memory ∧
      tidy.memory.AgreeOn (fun a => 0xF4 ≤ a) cluttered.memory ∧
      (cluttered.run .unlimited).result = .ok () ∧
      (cluttered.run .unlimited).machine.pc = 12 ∧
      (cluttered.run .unlimited).journal.output = "7\n".toList := by
  have hgoal : (tidy.follow .unlimited 5).map (fun goal =>
      (goal.1.all (·.source.status = .running), goal.2.1.status, goal.2.1.pc,
        (shownBy goal.1).output)) = some (true, .halted, 12, "7\n".toList) := by
    decide +kernel
  obtain ⟨⟨moves, m', sink'⟩, hfollow, hgoal⟩ := Option.map_eq_some_iff.mp hgoal
  obtain ⟨hrunning, hm', hpc, hshown⟩ : moves.all _ = true ∧ m'.status = _ ∧ m'.pc = _ ∧
      (shownBy moves).output = _ := by
    simpa only [Prod.mk.injEq] using hgoal
  have hrun := (Machine.course_of_follow hfollow hrunning hm').run_of_halted hm'
  have hresult : (tidy.run .unlimited).result = .ok () := by
    rw [hrun]
  have hpc : (tidy.run .unlimited).machine.pc = 12 := by
    rw [hrun]
    exact hpc
  have hout : (tidy.run .unlimited).journal.output = "7\n".toList := by
    rw [hrun, Journal.output_append, hshown]
    rfl
  have hcells : tidy.memory.AgreeOn (fun a => a ≠ 1 ∧ a ≠ 12 ∧ a ≠ 0xF3) cluttered.memory := by
    rintro a ⟨hbefore, hbehind, hbelow⟩
    show (((tidy.memory.place 1 0xFF).place 12 0xA3).place 0xF3 5).cell? a = _
    simp [Memory.cell?_place, hbefore, hbehind, hbelow]
  have hcode : tidy.memory.AgreeOn (fun a => 2 ≤ a ∧ a < 12) cluttered.memory :=
    hcells.mono fun a ha => by omega
  have hstack : tidy.memory.AgreeOn (fun a => 0xF4 ≤ a) cluttered.memory :=
    hcells.mono fun a ha => by omega
  have hlive : tidy.memory.AgreeOn
      (fun a => tidy.pc.toNat ≤ a ∧ a < (tidy.run .unlimited).machine.pc.toNat)
      cluttered.memory := by
    rw [hpc]
    exact hcode
  obtain ⟨-, hhalts, -, hpc', -, -, hout'⟩ :=
    @run_of_live_cells tidy cluttered .unlimited rfl rfl rfl rfl hresult hlive hstack
  exact ⟨hresult, hpc, hout, hcode, hstack, hhalts, hpc'.trans hpc, hout'.trans hout⟩

end LS8
