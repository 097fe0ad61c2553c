/-
LS8/Machine/Step.lean

One cycle of the machine: fetch, execute, and move the program counter by the
width of the opcode byte, whether the byte is an opcode or not and whether the
machine stops or not.  A machine that has stopped does nothing.

`pc_of_step` says that a successful cycle of a running machine moves the
program counter forward by that width, without wrapping around.
-/
import LS8.Machine.Execute

namespace LS8

/-- What came of a cycle or a run: its result, and machine, sink and journal at its end. -/
structure Reply (α : Type) where
  result : Except Fault α
  machine : Machine
  sink : Sink
  /-- What the cycle or run showed. -/
  journal : Journal

namespace Reply

variable {α : Type}

/-- The reply of a computation on the bench. -/
def ofResult : EStateM.Result Fault Bench α → Reply α
  | .ok a bench => ⟨.ok a, bench.machine, bench.sink, bench.journal⟩
  | .error fault bench => ⟨.error fault, bench.machine, bench.sink, bench.journal⟩

/-- A reply whose journal follows an earlier one. -/
def after (journal : Journal) (reply : Reply α) : Reply α :=
  { reply with journal := journal ++ reply.journal }

end Reply

namespace Cycle

/-- Record a snapshot, if the machine is to be traced. -/
def announce : Cycle Unit := do
  let m ← machine
  if m.tracing then
    note (.trace m.snapshot)

/-- Fetch, execute and move on. -/
def advance : Cycle Outcome := do
  let m ← machine
  let fetched ← m.fetch
  let outcome ← perform fetched
  setMachine { (← machine) with pc := m.pc + fetched.width.toUInt16 }
  return outcome

end Cycle

/-- A whole cycle. -/
def Cycle.whole : Cycle Outcome := do
  Cycle.announce
  Cycle.advance

/-- One cycle. -/
def Machine.step (m : Machine) (sink : Sink) : Reply Outcome :=
  match m.status with
  | .halted => ⟨.ok .halted, m, sink, []⟩
  | .running => .ofResult (Cycle.whole ⟨m, sink, []⟩)

/-! ### How a cycle unfolds -/

/-- What a traced machine shows before it fetches. -/
def Machine.announcement (m : Machine) : Journal :=
  if m.tracing then [.record (.trace m.snapshot)] else []

theorem Cycle.announce_run (s : Bench) :
    Cycle.announce s = .ok () ⟨s.machine, s.sink, s.journal ++ s.machine.announcement⟩ := by
  simp only [announce, bind_run, machine_run, Machine.announcement]
  cases s.machine.tracing
  · simp [pure_run]
  · rfl

theorem Cycle.advance_run (s : Bench) :
    Cycle.advance s =
      match s.machine.fetch with
      | .error fault => .error fault s
      | .ok fetched =>
        match Cycle.perform fetched s with
        | .error fault t => .error fault t
        | .ok outcome t =>
          .ok outcome ⟨{ t.machine with pc := s.machine.pc + fetched.width.toUInt16 }, t.sink,
            t.journal⟩ := by
  simp only [advance, bind_run, machine_run, lift_run]
  rcases s.machine.fetch with fault | fetched
  · rfl
  · dsimp only
    cases Cycle.perform fetched s <;> rfl

/-- A cycle of a running machine. -/
theorem Machine.step_of_running {m : Machine} (hm : m.status = .running) (sink : Sink) :
    m.step sink = .ofResult (Cycle.advance ⟨m, sink, m.announcement⟩) := by
  simp only [step, hm, Cycle.whole, Cycle.bind_run, Cycle.announce_run, List.nil_append]

theorem Machine.step_of_halted {m : Machine} (hm : m.status = .halted) (sink : Sink) :
    m.step sink = ⟨.ok .halted, m, sink, []⟩ := by
  simp only [step, hm]

/-! ### The program counter -/

/-- Where a fetch succeeds there is a cell. -/
theorem Machine.pc_lt_of_fetch {m : Machine} {fetched : Fetched} (h : m.fetch = .ok fetched) :
    m.pc.toNat < ramSize := by
  rw [← Memory.cell?_isSome_iff m.memory]
  unfold fetch Memory.read Memory.get? at h
  cases hc : m.memory.cell? m.pc.toNat with
  | none => simp [hc, bind, Except.bind] at h
  | some code => rfl

theorem Cycle.pc_of_advance {s s' : Bench} {outcome : Outcome}
    (h : Cycle.advance s = .ok outcome s') :
    ∃ fetched, s.machine.fetch = .ok fetched ∧
      s'.machine.pc = s.machine.pc + fetched.width.toUInt16 := by
  rw [advance_run] at h
  split at h
  · cases h
  · next fetched hf =>
    split at h
    · cases h
    · cases h
      exact ⟨fetched, hf, rfl⟩

theorem Fetched.toNat_width_le (fetched : Fetched) : fetched.width.toUInt16.toNat ≤ 4 := by
  rw [UInt8.toNat_toUInt16]
  exact widthOf_le_four fetched.code

/-- Past the fetched bytes the program counter has not wrapped around: the fetch succeeded below
256, and a width is at most 4. -/
theorem Machine.toNat_pc_add {m : Machine} {fetched : Fetched} (h : m.fetch = .ok fetched) :
    (m.pc + fetched.width.toUInt16).toNat = m.pc.toNat + fetched.width.toNat := by
  rw [Address.toNat_add_of_lt (pc_lt_of_fetch h) fetched.toNat_width_le, UInt8.toNat_toUInt16]

/-- A successful cycle of a running machine moves the program counter by the width of the opcode
byte. -/
theorem Machine.pc_of_step {m : Machine} {sink : Sink} {outcome : Outcome}
    (hrun : m.status = .running) (h : (m.step sink).result = .ok outcome) :
    ∃ fetched, m.fetch = .ok fetched ∧
      (m.step sink).machine.pc.toNat = m.pc.toNat + fetched.width.toNat := by
  rw [step_of_running hrun] at h ⊢
  cases hr : Cycle.advance ⟨m, sink, m.announcement⟩ with
  | error fault s => simp [hr, Reply.ofResult] at h
  | ok o s =>
    obtain ⟨fetched, hf, hpc⟩ := Cycle.pc_of_advance hr
    exact ⟨fetched, hf, (congrArg UInt16.toNat hpc).trans (toNat_pc_add hf)⟩

end LS8
