/-
LS8/Proofs/Sweep.lean

Where the program counter goes.

Nothing that the machine computes has a part in it.  From an address on, the
width of the byte there gives the next address, up to a halt or out of memory:
this linear sweep can be told from the memory alone, and the operands of a byte
that is no opcode are swept over like any others.

Only a push writes to memory.  If none writes into what lies between it and the
end of the sweep, the code is still the one at the start wherever the program
counter comes, and a run goes along the sweep of the memory it started with
(`run_along_sweep`).  What it writes behind the program counter is free.
-/
import LS8.Proofs.Agreement

namespace LS8

/-! ### The sweep -/

namespace Memory

variable {m : Ram} {a : Nat} {code : Byte}

/-- Behind a byte and its operands there is less memory left. -/
theorem room_of_cell? (h : m.cell? a = some code) :
    ramSize - (a + (widthOf code).toNat) < ramSize - a := by
  have hlt := lt_of_cell? h
  have hpos := one_le_widthOf code
  omega

/-- The addresses of the sweep from `a` on.  The last is the first that holds a halt or no cell. -/
def sweep (m : Ram) (a : Nat) : List Nat :=
  match h : m.cell? a with
  | none => [a]
  | some code =>
    if code = Opcode.hlt.byte then [a]
    else
      have := room_of_cell? h
      a :: m.sweep (a + (widthOf code).toNat)
termination_by ramSize - a

/-- Where the sweep from `a` on ends: one past the halt, or at the first address without a cell. -/
def sweepEnd (m : Ram) (a : Nat) : Nat :=
  match h : m.cell? a with
  | none => a
  | some code =>
    if code = Opcode.hlt.byte then a + 1
    else
      have := room_of_cell? h
      m.sweepEnd (a + (widthOf code).toNat)
termination_by ramSize - a

theorem sweep_eq (m : Ram) (a : Nat) :
    m.sweep a = match m.cell? a with
      | none => [a]
      | some code =>
        if code = Opcode.hlt.byte then [a] else a :: m.sweep (a + (widthOf code).toNat) := by
  rw [sweep]
  split <;> simp_all

theorem sweepEnd_eq (m : Ram) (a : Nat) :
    m.sweepEnd a = match m.cell? a with
      | none => a
      | some code =>
        if code = Opcode.hlt.byte then a + 1 else m.sweepEnd (a + (widthOf code).toNat) := by
  rw [sweepEnd]
  split <;> simp_all

theorem le_sweepEnd (m : Ram) (a : Nat) : a ≤ m.sweepEnd a := by
  induction a using sweep.induct m with
  | case1 a h => rw [sweepEnd_eq, h]
  | case2 a h =>
    rw [sweepEnd_eq, h]
    exact Nat.le_succ a
  | case3 a code h hne _ ih =>
    rw [sweepEnd_eq, h]
    dsimp only
    rw [if_neg hne]
    exact Nat.le_trans (Nat.le_add_right _ _) ih

/-- A sweep that starts in memory goes past its start. -/
theorem lt_sweepEnd (h : m.cell? a = some code) : a < m.sweepEnd a := by
  rw [sweepEnd_eq, h]
  dsimp only
  split
  · exact Nat.lt_succ_self a
  · have hle := m.le_sweepEnd (a + (widthOf code).toNat)
    have hpos := one_le_widthOf code
    omega

/-- The sweep starts where it is started. -/
theorem head?_sweep (m : Ram) (a : Nat) : (m.sweep a).head? = some a := by
  rw [sweep_eq]
  split
  · rfl
  · split <;> rfl

end Memory

/-! ### Machines on the sweep -/

/-- What a machine has before it of the sweep of `m₀`: nothing any more if it has stopped. -/
def Machine.ahead (m₀ : Ram) (m : Machine) : List Nat :=
  match m.status with
  | .running => m₀.sweep m.pc.toNat
  | .halted => []

/-- Where a machine on the sweep of `m₀` gets to. -/
def Machine.destination (m₀ : Ram) (m : Machine) : Nat :=
  match m.status with
  | .running => m₀.sweepEnd m.pc.toNat
  | .halted => m.pc.toNat

/-- The move is no push into the code that is still to come up to `e`. -/
def Move.Spares (e : Nat) (move : Move) : Prop :=
  ∀ a value, move.Stores a value → ¬(move.source.pc.toNat + 2 ≤ a ∧ a < e)

/-- The machine is on the sweep of `m₀`, which leads to `e`, and the code from the program counter
on is as in `m₀`. -/
structure Machine.Along (m₀ : Ram) (e : Nat) (m : Machine) : Prop where
  leads : m.destination m₀ = e
  code : m₀.AgreeOn (fun a => m.pc.toNat ≤ a ∧ a < e) m.memory

variable {m₀ : Ram} {e : Nat} {m m₁ m' : Machine} {sink sink₁ sink' : Sink} {outcome : Outcome}
  {journal : Journal} {moves : List Move} {code : Byte}

/-- A running machine is stopped by the byte of the halt and by nothing else. -/
theorem Machine.halted_iff_of_step (hm : m.status = .running)
    (hstep : m.step sink = ⟨.ok outcome, m₁, sink₁, journal⟩)
    (hcode : m.memory.cell? m.pc.toNat = some code) :
    m₁.status = .halted ↔ code = Opcode.hlt.byte := by
  constructor
  · intro hm₁
    have hstops := (stops_of_step hm hstep hm₁).code
    exact Option.some.inj (hcode.symm.trans hstops)
  · rintro rfl
    have hcycled := cycled hm sink
    rw [hstep] at hcycled
    cases hcycled with
    | @skipped fetched _ hfetch hi =>
      -- the byte of the halt is an opcode
      have hbyte := Option.some.inj ((cell?_of_fetch hfetch).symm.trans hcode)
      rw [Fetched.instruction?, Fetched.opcode?, hbyte, Opcode.ofByte?_byte] at hi
      cases hi
    | @executed fetched i _ _ hfetch hi =>
      have hbyte := Option.some.inj ((cell?_of_fetch hfetch).symm.trans hcode)
      have hopcode := Opcode.ofByte?_byte i.opcode
      rw [← Fetched.code_of_instruction? hi, hbyte, Opcode.ofByte?_byte] at hopcode
      obtain rfl : i = .hlt := by
        cases i <;> first | rfl | cases hopcode
      rfl

/-- Behind a push the program counter is two cells further. -/
theorem Machine.pc_of_push (hm : m.status = .running)
    (hstep : m.step sink = ⟨.ok outcome, m₁, sink₁, journal⟩) {register : Byte}
    (hpush : Move.instruction? ⟨m, outcome, journal, m₁⟩ = some (.push register)) :
    m₁.pc.toNat = m.pc.toNat + 2 := by
  obtain ⟨fetched, hfetch, hpc⟩ := pc_of_step hm (congrArg Reply.result hstep)
  rw [hstep] at hpc
  rw [Move.instruction?_of_fetch hm hfetch] at hpush
  show m₁.pc.toNat = m.pc.toNat + (widthOf Opcode.push.byte).toNat
  rw [hpc, Fetched.width, Fetched.code_of_instruction? hpush]
  rfl

/-- A machine on the sweep stands at a byte of `m₀`. -/
theorem Machine.Along.cell?_eq (h : m.Along m₀ e) (hm : m.status = .running)
    (hcode : m.memory.cell? m.pc.toNat = some code) : m₀.cell? m.pc.toNat = some code := by
  have hlt : m.pc.toNat < ramSize := Memory.lt_of_cell? hcode
  obtain ⟨code₀, hcode₀⟩ := m₀.exists_cell hlt
  have hend : m.pc.toNat < e := by
    rw [← h.leads, destination, hm]
    exact Memory.lt_sweepEnd hcode₀
  rw [← h.code _ ⟨Nat.le_refl _, hend⟩]
  exact hcode

/-- **A cycle goes one address along the sweep.** -/
theorem Machine.Along.step (h : m.Along m₀ e) (hm : m.status = .running)
    (hstep : m.step sink = ⟨.ok outcome, m₁, sink₁, journal⟩)
    (hspares : Move.Spares e ⟨m, outcome, journal, m₁⟩) :
    m.ahead m₀ = m.pc.toNat :: m₁.ahead m₀ ∧ m₁.Along m₀ e := by
  have hok : (m.step sink).result = .ok outcome := congrArg Reply.result hstep
  obtain ⟨code, hcode, hpc⟩ := moves_on hm hok
  have hhalted := halted_iff_of_step hm hstep hcode
  have hcode₀ := h.cell?_eq hm hcode
  have hleads := h.leads
  rw [hstep] at hpc
  change m₁.pc.toNat = _ at hpc
  -- where the sweep goes, the machine goes: `m₀` has the byte that was fetched
  have hahead : m.ahead m₀ = m.pc.toNat :: m₁.ahead m₀ ∧
      m.destination m₀ = m₁.destination m₀ := by
    rw [ahead, ahead, destination, destination, hm]
    dsimp only
    rw [Memory.sweep_eq, Memory.sweepEnd_eq, hcode₀]
    dsimp only
    by_cases hhlt : code = Opcode.hlt.byte
    · rw [hhalted.mpr hhlt, if_pos hhlt, if_pos hhlt, hpc, hhlt]
      exact ⟨rfl, rfl⟩
    · have hm₁ : m₁.status = .running := by
        cases hs : m₁.status with
        | running => rfl
        | halted => exact absurd (hhalted.mp hs) hhlt
      rw [hm₁, if_neg hhlt, if_neg hhlt, hpc]
      exact ⟨rfl, rfl⟩
  refine ⟨hahead.1, hahead.2.symm.trans hleads, ?_⟩
  -- and what a push has written is not ahead
  rintro a ⟨hfrom, hto⟩
  have hunstored : ∀ move ∈ [(⟨m, outcome, journal, m₁⟩ : Move)], ∀ value,
      ¬move.Stores a value := by
    intro move hmove value hstores
    obtain rfl := List.mem_singleton.mp hmove
    obtain ⟨register, hpush, -⟩ := id hstores
    rw [pc_of_push hm hstep hpush] at hfrom
    exact hspares a value hstores ⟨hfrom, hto⟩
  rw [cell?_of_unstored (.cons hstep (.nil _ _)) hunstored]
  have hle : m.pc.toNat ≤ m₁.pc.toNat := by
    rw [hpc]
    exact Nat.le_add_right _ _
  exact h.code a ⟨Nat.le_trans hle hfrom, hto⟩

/-! ### Runs along the sweep -/

/-- The machines at which a run makes a cycle, the last of which may fault. -/
def calls (moves : List Move) (m' : Machine) : List Machine :=
  moves.map Move.source ++ if m'.status = .running then [m'] else []

/-- **Moves go along the sweep.** -/
theorem Machine.Along.ahead_eq (h : m.Along m₀ e) (hmoves : Moves m sink moves m' sink')
    (hrunning : ∀ move ∈ moves, move.source.status = .running)
    (hspares : ∀ move ∈ moves, move.Spares e) :
    m.ahead m₀ = moves.map (·.source.pc.toNat) ++ m'.ahead m₀ ∧ m'.Along m₀ e := by
  induction hmoves with
  | nil => exact ⟨rfl, h⟩
  | cons hstep _ ih =>
    obtain ⟨hm, hrunning⟩ := List.forall_mem_cons.mp hrunning
    obtain ⟨hfirst, hspares⟩ := List.forall_mem_cons.mp hspares
    obtain ⟨hahead, hafter⟩ := h.step hm hstep hfirst
    obtain ⟨hrest, hend⟩ := ih hafter hrunning hspares
    refine ⟨?_, hend⟩
    rw [hahead, hrest, List.map_cons, List.cons_append]

/-- Where a cycle of a run is made, the moves before it lead. -/
theorem Machine.Course.exists_moves_to {i : Nat} {call : Machine}
    (h : m.Course sink moves m' sink') (hcall : (calls moves m')[i]? = some call) :
    ∃ sink₁, Moves m sink (moves.take i) call sink₁ ∧ (moves.take i).length = i ∧
      call.status = .running := by
  rw [calls] at hcall
  by_cases hi : i < moves.length
  · -- a cycle that succeeds
    rw [List.getElem?_append_left (by rwa [List.length_map]), List.getElem?_map] at hcall
    obtain ⟨move, hmove, rfl⟩ := Option.map_eq_some_iff.mp hcall
    obtain ⟨sink₁, -, hbefore, -, hrunning, -⟩ := h.focus hmove
    exact ⟨sink₁, hbefore, List.length_take_of_le hi.le, hrunning⟩
  · -- the last one, at the end of the moves
    have hle := Nat.le_of_not_lt hi
    rw [List.getElem?_append_right (by rwa [List.length_map]), List.length_map] at hcall
    split at hcall
    · next hm' =>
      obtain ⟨hlt, hget⟩ := List.getElem?_eq_some_iff.mp hcall
      rw [List.length_singleton] at hlt
      obtain rfl : i = moves.length := by omega
      obtain rfl : m' = call := by simpa using hget
      rw [List.take_length]
      exact ⟨sink', h.leads, rfl, hm'⟩
    · cases hcall

/-- The machine stands at address `a`, and there it reads and fetches what `m₀` has, or faults. -/
structure Machine.Visits (m₀ : Ram) (a : Nat) (m : Machine) : Prop where
  pc : m.pc.toNat = a
  reads : a < 256 → ∃ code, m₀.cell? a = some code ∧ m.memory.read m.pc = .ok code ∧
    ∀ fetched, m.fetch = .ok fetched → fetched.code = code
  faults : 256 ≤ a → ∀ sink, (m.step sink).result = .error (.addressOutOfRange m.pc)

/-- A machine on the sweep reads its next byte. -/
theorem Machine.Along.visits (h : m.Along m₀ e) (hm : m.status = .running) :
    m.Visits m₀ m.pc.toNat := by
  refine ⟨rfl, ?_, ?_⟩
  · intro hlt
    obtain ⟨code, hcode⟩ := m.memory.exists_cell hlt
    refine ⟨code, h.cell?_eq hm hcode, Memory.read_eq_ok_iff.mpr hcode, ?_⟩
    intro fetched hfetch
    exact Option.some.inj ((cell?_of_fetch hfetch).symm.trans hcode)
  · intro hge sink
    have hpast : 255 < m.pc := UInt16.lt_iff_toNat_lt.mpr hge
    have hfetch : m.fetch = .error (.addressOutOfRange m.pc) := by
      rw [fetch_eq, if_pos hpast]
    obtain ⟨journal, -, hstep⟩ := step_of_due hm (.fetch hfetch) sink
    exact congrArg Reply.result hstep

/-- Cycle number `i` of a run is made at number `i` of the addresses. -/
theorem Machine.Along.visits_of_call {i : Nat} {call : Machine} (h : m.Along m₀ e)
    (hcourse : m.Course sink moves m' sink') (hspares : ∀ move ∈ moves, move.Spares e)
    (hcall : (calls moves m')[i]? = some call) :
    ∃ a, (m.ahead m₀)[i]? = some a ∧ call.Visits m₀ a := by
  obtain ⟨sink₁, hbefore, hlength, hrunning⟩ := hcourse.exists_moves_to hcall
  obtain ⟨hahead, halong⟩ := h.ahead_eq hbefore
    (fun move hmove => hcourse.running move (List.mem_of_mem_take hmove))
    (fun move hmove => hspares move (List.mem_of_mem_take hmove))
  refine ⟨call.pc.toNat, ?_, halong.visits hrunning⟩
  rw [hahead, List.getElem?_append_right (by rw [List.length_map, hlength]), List.length_map,
    hlength, Nat.sub_self, ← List.head?_eq_getElem?, ahead, hrunning]
  exact m₀.head?_sweep _

/-- A run that stops has gone along the whole sweep. -/
theorem Machine.Along.of_ok (h : m.Along m₀ e) (hcourse : m.Course sink moves m' sink')
    (hspares : ∀ move ∈ moves, move.Spares e) (hok : (m.run sink).result = .ok ()) :
    (m.run sink).machine.pc.toNat = e ∧ (calls moves m').length = (m.ahead m₀).length := by
  obtain ⟨hm', hrun⟩ := hcourse.of_ok hok
  obtain ⟨hahead, halong⟩ := h.ahead_eq hcourse.leads hcourse.running hspares
  have hleads := halong.leads
  rw [destination, hm'] at hleads
  rw [hrun, hahead, calls, ahead, hm']
  exact ⟨hleads, by simp⟩

/-- The sweep of its own memory is before every running machine. -/
theorem Machine.along_of_memory (hm : m.status = .running) (hmemory : m.memory = m₀)
    (he : m₀.sweepEnd m.pc.toNat = e) : m.Along m₀ e := by
  refine ⟨?_, ?_⟩
  · rw [destination, hm]
    exact he
  · intro a _
    rw [hmemory]

/-! ### Two runs over one memory -/

/-- At one address of the sweep, machines have the same program counter and read the same. -/
theorem Machine.Visits.same {a : Nat} {n : Machine} (h : m.Visits m₀ a) (h' : n.Visits m₀ a) :
    n.pc = m.pc ∧ n.memory.read n.pc = m.memory.read m.pc := by
  have hpc : n.pc = m.pc := UInt16.toNat_inj.mp (h'.pc.trans h.pc.symm)
  refine ⟨hpc, ?_⟩
  by_cases ha : a < 256
  · obtain ⟨code, hcode, hread, -⟩ := h.reads ha
    obtain ⟨code', hcode', hread', -⟩ := h'.reads ha
    rw [hread, hread', Option.some.inj (hcode.symm.trans hcode')]
  · have hpast : ramSize ≤ m.pc.toNat := by
      rw [h.pc]
      exact Nat.le_of_not_lt ha
    rw [hpc, Memory.read_of_le hpast, Memory.read_of_le hpast]

/-- A run makes no more cycles than there are addresses. -/
theorem Machine.Along.length_calls_le (h : m.Along m₀ e) (hcourse : m.Course sink moves m' sink')
    (hspares : ∀ move ∈ moves, move.Spares e) :
    (calls moves m').length ≤ (m.ahead m₀).length := by
  by_contra hlt
  have hcall := List.getElem?_eq_getElem (Nat.lt_of_not_le hlt)
  obtain ⟨a, ha, -⟩ := h.visits_of_call hcourse hspares hcall
  rw [List.getElem?_eq_none (Nat.le_refl _)] at ha
  cases ha

/-- A run that makes fewer of them has faulted. -/
theorem Machine.Along.exists_fault (h : m.Along m₀ e) (hcourse : m.Course sink moves m' sink')
    (hspares : ∀ move ∈ moves, move.Spares e)
    (hlt : (calls moves m').length < (m.ahead m₀).length) :
    ∃ fault, (m.run sink).result = .error fault := by
  rcases hresult : (m.run sink).result with fault | _
  · exact ⟨fault, rfl⟩
  · rw [(h.of_ok hcourse hspares hresult).2] at hlt
    exact absurd hlt (Nat.lt_irrefl _)

/-! ### The sweep of a run -/

/-- **The program counter goes along the sweep of the initial memory.**  Take a run in which no push
writes a cell behind itself and before the end of the sweep.  Then cycle number `i` is made at
address number `i` of the sweep; if that is in memory, the byte read there is the one at the start,
whether it is an opcode or not, and otherwise the cycle faults for want of the cell.  A run that
stops has gone all the way, and stands where the sweep ends.  So two such runs over one memory and
from one address have the same program counters and read the same bytes until one of them faults,
whatever is in their registers. -/
theorem run_along_sweep (hm : m.status = .running) (h : m.Course sink moves m' sink')
    (hspares : ∀ move ∈ moves, move.Spares (m.memory.sweepEnd m.pc.toNat)) :
    (∀ (i : Nat) (call : Machine), (calls moves m')[i]? = some call →
      ∃ a, (m.memory.sweep m.pc.toNat)[i]? = some a ∧ call.Visits m.memory a) ∧
    ((m.run sink).result = .ok () →
      (m.run sink).machine.pc.toNat = m.memory.sweepEnd m.pc.toNat ∧
        (calls moves m').length = (m.memory.sweep m.pc.toNat).length) ∧
    ∀ (n : Machine) (sink₁ : Sink) (moves₁ : List Move) (n' : Machine) (sink₁' : Sink),
      n.status = .running → n.pc = m.pc → n.memory = m.memory →
      n.Course sink₁ moves₁ n' sink₁' →
      (∀ move ∈ moves₁, move.Spares (m.memory.sweepEnd m.pc.toNat)) →
      (∀ (i : Nat) (call call' : Machine), (calls moves m')[i]? = some call →
        (calls moves₁ n')[i]? = some call' →
        call'.pc = call.pc ∧ call'.memory.read call'.pc = call.memory.read call.pc) ∧
      ((calls moves m').length < (calls moves₁ n').length →
        ∃ fault, (m.run sink).result = .error fault) ∧
      ((calls moves₁ n').length < (calls moves m').length →
        ∃ fault, (n.run sink₁).result = .error fault) := by
  have halong := Machine.along_of_memory hm rfl rfl
  have hahead : m.ahead m.memory = m.memory.sweep m.pc.toNat := by
    rw [Machine.ahead, hm]
  rw [← hahead]
  refine ⟨fun i call => halong.visits_of_call h hspares, halong.of_ok h hspares, ?_⟩
  intro n sink₁ moves₁ n' sink₁' hn hpc hmemory h₁ hspares₁
  have halong₁ : n.Along m.memory (m.memory.sweepEnd m.pc.toNat) :=
    Machine.along_of_memory hn hmemory (by rw [hpc])
  have hahead₁ : n.ahead m.memory = m.ahead m.memory := by
    rw [Machine.ahead, Machine.ahead, hn, hm, hpc]
  refine ⟨?_, ?_, ?_⟩
  · intro i call call' hcall hcall'
    obtain ⟨a, ha, hvisits⟩ := halong.visits_of_call h hspares hcall
    obtain ⟨a', ha', hvisits'⟩ := halong₁.visits_of_call h₁ hspares₁ hcall'
    rw [hahead₁] at ha'
    obtain rfl := Option.some.inj (ha.symm.trans ha')
    exact hvisits.same hvisits'
  · intro hlt
    apply halong.exists_fault h hspares
    rw [← hahead₁]
    exact Nat.lt_of_lt_of_le hlt (halong₁.length_calls_le h₁ hspares₁)
  · intro hlt
    apply halong₁.exists_fault h₁ hspares₁
    rw [hahead₁]
    exact Nat.lt_of_lt_of_le hlt (halong.length_calls_le h hspares)

/-- A push, a byte that is no opcode with three halts for operands, and a halt. -/
def swallowing : Machine := .boot (Memory.zero.placeBlock 0 #[0x45, 0, 0xC0, 1, 1, 1, 1])

/-- The same with so deep a stack that the push overwrites itself. -/
def undermining : Machine := { swallowing with registers := swallowing.registers.setSp 1 }

/-- A push behind itself or past the sweep spares the code. -/
theorem Move.spares_of_top {move : Move}
    (h : move.target.top < move.source.pc.toNat + 2 ∨ e ≤ move.target.top) : move.Spares e := by
  rintro a value ⟨register, -, -, rfl, -⟩ ⟨hfrom, hto⟩
  omega

/-- Both runs go over the three halts to the fourth. -/
theorem run_along_sweep_swallowing :
    swallowing.memory.sweep 0 = [0, 2, 6] ∧
    ∃ moves m' sink' moves₁ n' sink₁', swallowing.Course .unlimited moves m' sink' ∧
      undermining.Course .unlimited moves₁ n' sink₁' ∧
      (swallowing.run .unlimited).machine.pc.toNat = 7 ∧ (calls moves m').length = 3 ∧
      ∀ (i : Nat) (call call' : Machine), (calls moves m')[i]? = some call →
        (calls moves₁ n')[i]? = some call' → call'.pc = call.pc := by
  have hsweep : swallowing.memory.sweep 0 = [0, 2, 6] := by decide +kernel
  have hend : swallowing.memory.sweepEnd swallowing.pc.toNat = 7 := by decide +kernel
  have hcourse (m : Machine) (hm : (m.follow .unlimited 3).map (fun goal =>
      (goal.1.all (·.source.status = .running), goal.2.1.status, goal.1.all fun move =>
        move.target.top < move.source.pc.toNat + 2 ∨ 7 ≤ move.target.top)) =
      some (true, .halted, true)) :
      ∃ moves m' sink', m.Course .unlimited moves m' sink' ∧ m'.status = .halted ∧
        ∀ move ∈ moves, move.Spares 7 := by
    obtain ⟨⟨moves, m', sink'⟩, hfollow, hgoal⟩ := Option.map_eq_some_iff.mp hm
    obtain ⟨hrunning, hm', hspares⟩ : moves.all _ = true ∧ m'.status = _ ∧ moves.all _ = true := by
      simpa only [Prod.mk.injEq] using hgoal
    refine ⟨moves, m', sink', Machine.course_of_follow hfollow hrunning hm', hm', ?_⟩
    intro move hmove
    exact Move.spares_of_top (of_decide_eq_true (List.all_eq_true.mp hspares move hmove))
  obtain ⟨moves, m', sink', h, hm', hspares⟩ := hcourse swallowing (by decide +kernel)
  obtain ⟨moves₁, n', sink₁', h₁, -, hspares₁⟩ := hcourse undermining (by decide +kernel)
  rw [← hend] at hspares hspares₁
  obtain ⟨-, hstops, hboth⟩ := run_along_sweep rfl h hspares
  obtain ⟨hpc, hlength⟩ := hstops (congrArg Reply.result (h.run_of_halted hm'))
  obtain ⟨hsame, -, -⟩ := hboth undermining _ moves₁ n' sink₁' rfl rfl rfl h₁ hspares₁
  refine ⟨hsweep, moves, m', sink', moves₁, n', sink₁', h, h₁, hpc.trans hend, ?_, ?_⟩
  · exact hlength.trans (congrArg List.length hsweep)
  · intro i call call' hcall hcall'
    exact (hsame i call call' hcall hcall').1

end LS8
