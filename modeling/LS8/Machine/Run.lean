/-
LS8/Machine/Run.lean

Many cycles.  A run goes on until the machine stops or a cycle faults.  There
are no jumps and the program counter moves forward in every cycle, so the room
above it bounds the run: no run is endless.
-/
import LS8.Machine.Step

namespace LS8.Machine

/-- The replies of up to `count` cycles; a fault is the last of them. -/
def steps (m : Machine) (sink : Sink) : Nat → List (Reply Outcome)
  | 0 => []
  | count + 1 =>
    let reply := m.step sink
    reply :: match reply.result with
      | .ok _ => reply.machine.steps reply.sink count
      | .error _ => []

/-- A successful cycle of a running machine brings the program counter nearer to its limit. -/
theorem room_of_step {m : Machine} {sink : Sink} {outcome : Outcome}
    (hrun : m.status = .running) (h : (m.step sink).result = .ok outcome) :
    UInt16.size - (m.step sink).machine.pc.toNat < UInt16.size - m.pc.toNat := by
  obtain ⟨fetched, -, hpc⟩ := pc_of_step hrun h
  have hw : 0 < fetched.width.toNat := one_le_widthOf fetched.code
  have := m.pc.toNat_lt
  simp only [UInt16.size]
  omega

/-- Run until the machine stops.  The end of a run without a fault is recorded. -/
def run (m : Machine) (sink : Sink) : Reply Unit :=
  match hrun : m.status with
  | .halted => ⟨.ok (), m, sink, [.record (.finished m.pc)]⟩
  | .running =>
    let reply := m.step sink
    match h : reply.result with
    | .error fault => ⟨.error fault, reply.machine, reply.sink, reply.journal⟩
    | .ok _ =>
      have := room_of_step hrun h
      (reply.machine.run reply.sink).after reply.journal
termination_by UInt16.size - m.pc.toNat

/-! ### How a run unfolds -/

theorem run_of_halted {m : Machine} (hm : m.status = .halted) (sink : Sink) :
    m.run sink = ⟨.ok (), m, sink, [.record (.finished m.pc)]⟩ := by
  rw [run]
  split
  · rfl
  · simp_all

/-- A run ends with a fault of its first cycle. -/
theorem run_of_step_error {m : Machine} {sink : Sink} {fault : Fault}
    (hm : m.status = .running) (h : (m.step sink).result = .error fault) :
    m.run sink = ⟨.error fault, (m.step sink).machine, (m.step sink).sink,
      (m.step sink).journal⟩ := by
  rw [run]
  split
  · simp_all
  · dsimp only
    split <;> simp_all

/-- A run whose first cycle succeeds goes on from there. -/
theorem run_of_step_ok {m : Machine} {sink : Sink} {outcome : Outcome}
    (hm : m.status = .running) (h : (m.step sink).result = .ok outcome) :
    m.run sink =
      ((m.step sink).machine.run (m.step sink).sink).after (m.step sink).journal := by
  rw [run]
  split
  · simp_all
  · dsimp only
    split <;> simp_all

end LS8.Machine
