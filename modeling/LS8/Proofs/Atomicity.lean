/-
LS8/Proofs/Atomicity.lean

A fault is atomic.  A cycle that faults leaves the machine as it was, and the
sink too, unless the fault comes from the sink: then it has taken a first part
of a line, and not all of it.

So a run that faults leaves the machine where its last successful cycle did,
and a machine with a fault of its own is stuck: whatever is asked of it, in
whatever order and with whatever sinks, gives the same fault again
(`fault_atomic`).
-/
import LS8.Proofs.Moves
import Mathlib.Data.List.Forall2

namespace LS8

/-! ### Calls -/

/-- What can be asked of a machine. -/
inductive Call where
  /-- One cycle. -/
  | cycle
  /-- Cycles until the machine stops. -/
  | run
  deriving DecidableEq, Repr

/-- A reply without what a cycle came to. -/
def Reply.plain {α : Type} (reply : Reply α) : Reply Unit where
  result := reply.result.map fun _ => ()
  machine := reply.machine
  sink := reply.sink
  journal := reply.journal

/-- The reply to a call. -/
def Machine.answer (m : Machine) (sink : Sink) : Call → Reply Unit
  | .cycle => (m.step sink).plain
  | .run => m.run sink

/-- The replies to calls one after the other, each with a sink of its own. -/
def Machine.answers (m : Machine) : List (Call × Sink) → List (Reply Unit)
  | [] => []
  | (call, sink) :: calls =>
    let reply := m.answer sink call
    reply :: reply.machine.answers calls

/-- A fault came back, and nothing else: machine and sink are as they were. -/
structure Bounced (m : Machine) (sink : Sink) (fault : Fault) (reply : Reply Unit) : Prop where
  result : reply.result = .error fault
  machine : reply.machine = m
  sink : reply.sink = sink
  output : reply.journal.output = []

/-- A machine that gives the same fault for ever. -/
def Machine.Stuck (m : Machine) (fault : Fault) : Prop :=
  ∀ calls : List (Call × Sink),
    List.Forall₂ (fun call reply => Bounced m call.2 fault reply) calls (m.answers calls)

/-- The sink took a first part of the line that the machine was to print, and not all of it. -/
def CutShort (m : Machine) (sink : Sink) (reply : Reply Outcome) : Prop :=
  ∃ fetched register value, m.fetch = .ok fetched ∧
    fetched.instruction? = some (.prn register) ∧ m.registers.get register = .ok value ∧
    reply.journal.output <+: Numeral.decimal value.toNat ++ ['\n'] ∧
    reply.journal.output ≠ Numeral.decimal value.toNat ++ ['\n'] ∧
    sink.room = some reply.journal.output.length ∧ reply.sink.room = some 0

/-! ### A line cut short -/

variable {m : Machine} {sink : Sink} {fault : Fault}

/-- A fault of the sink cuts a line short. -/
theorem cutShort_of_step_error {refusal : Refusal}
    (h : (m.step sink).result = .error (.output refusal)) : CutShort m sink (m.step sink) := by
  have hc := Machine.cycled (Machine.running_of_step h) sink
  generalize m.step sink = reply at hc h ⊢
  cases hc with
  | faulted due =>
    cases h
    exact absurd rfl (due.inner refusal)
  | skipped | executed => cases h
  | @refused fetched i e journal hfetch hi he hfits hout =>
    rcases text_of_effect he with hnil | ⟨register, value, rfl, hget, htext⟩
    · -- a text without characters is never refused
      rw [hnil, Sink.fits_nil] at hfits
      cases hfits
    · rw [htext] at hfits hout
      obtain ⟨hroom, hlt⟩ := Sink.room_of_not_fits hfits
      refine ⟨fetched, register, value, hfetch, hi, hget, ?_, ?_, ?_, ?_⟩
      · rw [hout]
        exact sink.taken_isPrefix _
      · intro heq
        rw [← hout, heq] at hlt
        exact Nat.lt_irrefl _ hlt
      · rw [hout]
        exact hroom
      · rw [htext]
        exact Sink.room_offer hfits

/-! ### What comes after a fault -/

/-- A fault that is due is the answer to every call. -/
theorem bounced_of_due (hm : m.status = .running) (due : m.Due fault) (sink : Sink) (call : Call) :
    Bounced m sink fault (m.answer sink call) := by
  obtain ⟨journal, hout, hstep⟩ := Machine.step_of_due hm due sink
  cases call with
  | cycle =>
    show Bounced m sink fault (m.step sink).plain
    rw [hstep]
    exact ⟨rfl, rfl, rfl, hout⟩
  | run =>
    show Bounced m sink fault (m.run sink)
    rw [Machine.run_of_step_error hm (congrArg Reply.result hstep), hstep]
    exact ⟨rfl, rfl, rfl, hout⟩

/-- Every call leaves the fault due, so it is the answer to all of them. -/
theorem stuck_of_due (hm : m.status = .running) (due : m.Due fault) : m.Stuck fault := by
  intro calls
  induction calls with
  | nil => exact .nil
  | cons call calls ih =>
    obtain ⟨call, sink⟩ := call
    have hcall := bounced_of_due hm due sink call
    refine .cons hcall ?_
    rw [hcall.machine]
    exact ih

theorem stuck_of_step_error (h : (m.step sink).result = .error fault) (hf : fault.Inner) :
    m.Stuck fault :=
  have hm := Machine.running_of_step h
  stuck_of_due hm (Machine.due_of_step hm h hf)

/-! ### Atomicity -/

/-- A run that faults ends at a machine, reached by successful cycles, whose next cycle faults. -/
theorem moves_of_run_error (h : (m.run sink).result = .error fault) :
    ∃ moves sink', Moves m sink moves (m.run sink).machine sink' ∧
      ((m.run sink).machine.step sink').result = .error fault := by
  obtain ⟨moves, m', sink', hmoves, -, hend⟩ := m.run_ends sink
  generalize m.run sink = reply at h hend ⊢
  cases hend with
  | halted => cases h
  | faulted hm hstep hfault =>
    subst hstep
    obtain rfl := Except.error.inj h
    refine ⟨moves, sink', ?_, ?_⟩
    · show Moves m sink moves (m'.step sink').machine sink'
      rw [Machine.machine_of_step_error hfault]
      exact hmoves
    · show ((m'.step sink').machine.step sink').result = _
      rw [Machine.machine_of_step_error hfault]
      exact hfault

/-- **A fault is atomic.**  A cycle that faults changes nothing in the machine, and a fault that is
not the sink's leaves the sink alone too; a fault of the sink comes from a printed line of which the
sink took a proper first part.  A run that faults ends in the state in which its last successful
cycle left the machine, and a machine with a fault of its own is stuck there. -/
theorem fault_atomic (m : Machine) (sink : Sink) (fault : Fault) :
    ((m.step sink).result = .error fault →
      (m.step sink).machine = m ∧ m.status = .running ∧
      (fault.Inner → (m.step sink).sink = sink ∧ (m.step sink).journal.output = [] ∧
        m.Stuck fault) ∧
      (∀ refusal, fault = .output refusal → CutShort m sink (m.step sink))) ∧
    ((m.run sink).result = .error fault →
      (∃ moves sink', Moves m sink moves (m.run sink).machine sink' ∧
        ((m.run sink).machine.step sink').result = .error fault) ∧
      (fault.Inner → (m.run sink).machine.Stuck fault)) := by
  refine ⟨?_, ?_⟩
  · -- one cycle
    intro h
    refine ⟨Machine.machine_of_step_error h, Machine.running_of_step h, ?_, ?_⟩
    · intro hf
      obtain ⟨hsink, hout⟩ := Machine.sink_of_step_error h hf
      exact ⟨hsink, hout, stuck_of_step_error h hf⟩
    · rintro refusal rfl
      exact cutShort_of_step_error h
  · -- a run
    intro h
    obtain ⟨moves, sink', hmoves, hstep⟩ := moves_of_run_error h
    refine ⟨⟨moves, sink', hmoves, hstep⟩, ?_⟩
    intro hf
    exact stuck_of_step_error hstep hf

/-- `DIV R0 R1`, with zero in R1. -/
def dividing : Machine := .boot (Memory.zero.placeBlock 0 #[0xA3, 0, 1])

/-- `PRN R7`, which prints three digits. -/
def printing : Machine := .boot (Memory.zero.placeBlock 0 #[0x47, 7])

/-- A sink with room for two characters. -/
def narrow : Sink := ⟨some 2, .silent⟩

/-- A division by zero at once, and a line that does not fit. -/
theorem fault_atomic_dividing_printing :
    ((dividing.step .unlimited).result = .error .divisionByZero ∧
      (dividing.step .unlimited).machine = dividing ∧ dividing.Stuck .divisionByZero) ∧
    ((dividing.run .unlimited).result = .error .divisionByZero ∧
      (dividing.run .unlimited).machine.Stuck .divisionByZero) ∧
    ((printing.step narrow).result = .error (.output .silent) ∧
      (printing.step narrow).machine = printing ∧
      CutShort printing narrow (printing.step narrow)) := by
  have hdiv : (dividing.step .unlimited).result = .error .divisionByZero := by decide +kernel
  have hrun : (dividing.run .unlimited).result = .error .divisionByZero := by
    rw [Machine.run_of_step_error rfl hdiv]
  have hprn : (printing.step narrow).result = .error (.output .silent) := by decide +kernel
  have hinner : Fault.Inner .divisionByZero := by
    intro refusal h
    cases h
  obtain ⟨hcycle, hend⟩ := fault_atomic dividing .unlimited .divisionByZero
  obtain ⟨hline, -⟩ := fault_atomic printing narrow (.output .silent)
  refine ⟨⟨hdiv, (hcycle hdiv).1, ((hcycle hdiv).2.2.1 hinner).2.2⟩, ⟨hrun, (hend hrun).2 hinner⟩,
    hprn, (hline hprn).1, (hline hprn).2.2.2 .silent rfl⟩

end LS8
