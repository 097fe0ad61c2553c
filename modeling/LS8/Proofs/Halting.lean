/-
LS8/Proofs/Halting.lean

A halt is final, and has one cause.

Between the calls that a machine answers, its owner may set the program counter
anew, exchange the registers or the memory, and turn tracing on and off.  A
history of a machine is any sequence of such happenings:

    Machine.undergoAll : Machine → List Happening → Machine

The status is not the owner's to set.  A running machine is stopped only by a
cycle, asked for alone or made by a run, that fetches a halt from memory
(`stopsIn_of_undergo`).  A halted machine gives every call its one reply, and so
stays halted whatever happens to it (`halted_undergo`).  Induction on the history
puts the two together: at most once does the status turn, and never back
(`turns_once`).
-/
import LS8.Proofs.Atomicity
import LS8.Proofs.Sweep

namespace LS8

/-! ### Histories -/

/-- What can happen to a machine from outside. -/
inductive Happening where
  /-- Something is asked of it, with a sink to print to. -/
  | call (call : Call) (sink : Sink)
  /-- The owner moves the program counter. -/
  | pc (pc : Address)
  | registers (registers : Registers)
  | memory (memory : Ram)
  | tracing (tracing : Bool)

/-- The machine afterwards, whether or not a call has come to a fault. -/
def Machine.undergo (m : Machine) : Happening → Machine
  | .call call sink => (m.answer sink call).machine
  | .pc pc => { m with pc }
  | .registers registers => { m with registers }
  | .memory memory => { m with memory }
  | .tracing tracing => { m with tracing }

/-- The machine after a history. -/
def Machine.undergoAll (m : Machine) (history : List Happening) : Machine :=
  history.foldl Machine.undergo m

/-- The next cycle fetches a halt, from a cell of memory. -/
structure Machine.AtHalt (m : Machine) : Prop where
  running : m.status = .running
  pc_le : m.pc.toNat ≤ 255
  fetches : ∃ fetched, m.fetch = .ok fetched ∧ fetched.code = 0x01

/-- A call makes a cycle of `source`: it is that cycle, or a run that comes to it through cycles of
running machines. -/
inductive Machine.Makes (m : Machine) (sink : Sink) : Call → Machine → Sink → Prop
  | cycle : m.Makes sink .cycle m sink
  | run {moves : List Move} {source : Machine} {sink₁ : Sink}
      (hmoves : Moves m sink moves source sink₁)
      (hrunning : ∀ move ∈ moves, move.source.status = .running)
      (hsource : source.status = .running) : m.Makes sink .run source sink₁

/-- The machine is stopped by a cycle of a call, and that cycle fetches a halt. -/
def Machine.StopsIn (m : Machine) (x : Happening) : Prop :=
  ∃ call sink source sink₁, x = .call call sink ∧ m.Makes sink call source sink₁ ∧
    source.AtHalt ∧ m.undergo x = (source.step sink₁).machine

/-- Nothing can be got from the machine: a cycle shows nothing and a run no more than its end, both
come back without a fault, and machine and sink are as they were. -/
structure Machine.Idle (m : Machine) (sink : Sink) : Prop where
  status : m.status = .halted
  cycle : m.step sink = ⟨.ok .halted, m, sink, []⟩
  run : m.run sink = ⟨.ok (), m, sink, [.record (.finished m.pc)]⟩
  level : (Record.finished m.pc).level = .info

variable {m : Machine} {sink : Sink} {x : Happening}

/-! ### The cause -/

/-- A halt takes nothing but itself, so it never faults. -/
theorem Machine.AtHalt.halts (h : m.AtHalt) (sink : Sink) :
    (m.step sink).machine.status = .halted := by
  obtain ⟨fetched, hfetch, hcode⟩ := h.fetches
  have hi : fetched.instruction? = some .hlt := by
    have hop : fetched.opcode? = some .hlt := Opcode.ofByte?_eq_some_iff.mpr hcode
    rw [Fetched.instruction?, hop]
    rfl
  obtain ⟨journal, -, hstep⟩ := step_of_effect h.running hfetch hi rfl (sink.fits_nil)
  rw [hstep]
  rfl

/-- Nothing else stops a machine: a fault leaves it as it was, and a cycle without one tells by the
byte that it has fetched. -/
theorem Machine.atHalt_of_step (hm : m.status = .running)
    (hhalted : (m.step sink).machine.status = .halted) : m.AtHalt := by
  rcases hstep : m.step sink with ⟨fault | outcome, m₁, sink₁, journal⟩
  · have hsame := machine_of_step_error (congrArg Reply.result hstep)
    rw [hsame, hm] at hhalted
    cases hhalted
  · rw [hstep] at hhalted
    obtain ⟨fetched, hfetch, -⟩ := pc_of_step hm (congrArg Reply.result hstep)
    have hcode := (halted_iff_of_step hm hstep (cell?_of_fetch hfetch)).mp hhalted
    exact ⟨hm, Nat.le_of_lt_succ (pc_lt_of_fetch hfetch), fetched, hfetch, hcode⟩

/-- **A cycle stops the machine just if it fetches a halt.** -/
theorem Machine.halted_step_iff (hm : m.status = .running) (sink : Sink) :
    (m.step sink).machine.status = .halted ↔ m.AtHalt :=
  ⟨atHalt_of_step hm, fun h => h.halts sink⟩

/-- A run that leaves a halted machine has made the cycle that stopped it. -/
theorem Machine.exists_stop_of_run (hm : m.status = .running)
    (hhalted : (m.run sink).machine.status = .halted) :
    ∃ source sink₁, m.Makes sink .run source sink₁ ∧ source.AtHalt ∧
      (m.run sink).machine = (source.step sink₁).machine := by
  obtain ⟨moves, m', sink', hcourse⟩ := m.exists_course sink
  rcases hresult : (m.run sink).result with fault | _
  · -- the machine of a fault is still running
    obtain ⟨hm', hstep, hrun⟩ := hcourse.of_error hresult
    rw [hrun] at hhalted
    change (m'.step sink').machine.status = .halted at hhalted
    rw [machine_of_step_error hstep, hm'] at hhalted
    cases hhalted
  · obtain ⟨hm', hrun⟩ := hcourse.of_ok hresult
    obtain ⟨move, hmove, -, rfl⟩ := hcourse.leads.exists_stop hcourse.running hm hm'
    obtain ⟨k, hk⟩ := List.getElem?_of_mem hmove
    obtain ⟨sink₁, sink₂, hbefore, hrunning, hsource, hstep⟩ := hcourse.focus hk
    have htarget : (move.source.step sink₁).machine = move.target := congrArg Reply.machine hstep
    refine ⟨move.source, sink₁, .run hbefore hrunning hsource, ?_, ?_⟩
    · apply atHalt_of_step hsource
      rw [htarget]
      exact hm'
    · rw [hrun, htarget]

/-- Only a call stops a machine, and only at a halt. -/
theorem Machine.stopsIn_of_undergo (hm : m.status = .running)
    (hhalted : (m.undergo x).status = .halted) : m.StopsIn x := by
  cases x with
  | call call sink =>
    cases call with
    | cycle => exact ⟨.cycle, sink, m, sink, rfl, .cycle, atHalt_of_step hm hhalted, rfl⟩
    | run =>
      obtain ⟨source, sink₁, hmakes, hhalt, hrun⟩ := exists_stop_of_run hm hhalted
      exact ⟨.run, sink, source, sink₁, rfl, hmakes, hhalt, hrun⟩
  | pc | registers | memory | tracing => cases hm.symm.trans hhalted

/-! ### Finality -/

theorem Machine.idle_of_halted (hm : m.status = .halted) (sink : Sink) : m.Idle sink :=
  ⟨hm, step_of_halted hm sink, run_of_halted hm sink, rfl⟩

/-- Nothing gets a halted machine going again. -/
theorem Machine.halted_undergo (hm : m.status = .halted) (x : Happening) :
    (m.undergo x).status = .halted := by
  cases x with
  | call call sink =>
    have hidle := idle_of_halted hm sink
    cases call with
    | cycle =>
      show (m.step sink).machine.status = .halted
      rw [hidle.cycle]
      exact hm
    | run =>
      show (m.run sink).machine.status = .halted
      rw [hidle.run]
      exact hm
  | pc | registers | memory | tracing => exact hm

theorem Machine.halted_undergoAll (hm : m.status = .halted) (history : List Happening) :
    (m.undergoAll history).status = .halted := by
  induction history generalizing m with
  | nil => exact hm
  | cons x history ih => exact ih (halted_undergo hm x)

/-- A machine runs throughout its history, or up to one happening and not beyond it. -/
theorem Machine.turns_once (hm : m.status = .running) (history : List Happening) :
    (∀ k, (m.undergoAll (history.take k)).status = .running) ∨
      ∃ before x after, history = before ++ x :: after ∧ (m.undergoAll before).StopsIn x ∧
        ∀ k, (m.undergoAll (history.take k)).status = .running ↔ k ≤ before.length := by
  induction history generalizing m with
  | nil =>
    left
    intro k
    rw [List.take_nil]
    exact hm
  | cons x history ih =>
    rcases hx : (m.undergo x).status with - | -
    · rcases ih hx with hthroughout | ⟨before, y, after, rfl, hstops, hturn⟩
      · left
        intro k
        cases k with
        | zero => exact hm
        | succ k => exact hthroughout k
      · refine .inr ⟨x :: before, y, after, rfl, hstops, ?_⟩
        intro k
        cases k with
        | zero => exact iff_of_true hm (Nat.zero_le _)
        | succ k => exact (hturn k).trans Nat.succ_le_succ_iff.symm
    · refine .inr ⟨[], x, history, rfl, stopsIn_of_undergo hm hx, ?_⟩
      intro k
      cases k with
      | zero => exact iff_of_true hm (Nat.le_refl _)
      | succ k =>
        have hhalted : ((m.undergo x).undergoAll (history.take k)).status = .halted :=
          halted_undergoAll hx _
        refine iff_of_false ?_ (Nat.not_succ_le_zero k)
        intro hrunning
        cases hrunning.symm.trans hhalted

/-- **A halt is final, and has one cause.**  The status turns at most once in the history of a
machine, in a call that makes a cycle at a program counter in memory, where there is a halt; up to
this call the machine is running, and never after it.  At every moment after it the machine is idle,
wherever its program counter has been set and whatever its memory holds by then.  And where there is
a halt, a cycle does stop the machine. -/
theorem halting_final (memory : Ram) (history : List Happening) :
    ((∀ k, ((Machine.boot memory).undergoAll (history.take k)).status = .running) ∨
      ∃ before x after, history = before ++ x :: after ∧
        ((Machine.boot memory).undergoAll before).StopsIn x ∧
        ∀ k, ((Machine.boot memory).undergoAll (history.take k)).status = .running ↔
          k ≤ before.length) ∧
    (∀ k, ((Machine.boot memory).undergoAll (history.take k)).status = .halted →
      ∀ sink, ((Machine.boot memory).undergoAll (history.take k)).Idle sink) ∧
    ∀ (m : Machine) (sink : Sink), m.status = .running →
      ((m.step sink).machine.status = .halted ↔ m.AtHalt) := by
  refine ⟨Machine.turns_once rfl history, ?_, ?_⟩
  · intro k hhalted sink
    exact Machine.idle_of_halted hhalted sink
  · intro m sink hm
    exact Machine.halted_step_iff hm sink

/-- `LDI R0 5`, `HLT`. -/
def restful : Ram := Memory.zero.placeBlock 0 #[0x82, 0, 5, 0x01]

/-- Two cycles, and then all that could get a machine going again: it is sent back to the start,
given another program and asked to run. -/
def awakening : List Happening :=
  [.call .cycle .unlimited, .call .cycle .unlimited, .pc 0,
    .memory (Memory.zero.placeBlock 0 #[0x47, 0, 0x01]), .tracing true, .call .run .unlimited]

/-- The second cycle stops the machine, and nothing after it does anything. -/
theorem halting_final_awakening :
    ∃ before x after, awakening = before ++ x :: after ∧ before.length = 1 ∧
      ((Machine.boot restful).undergoAll before).StopsIn x ∧
      ∀ k, 2 ≤ k → ∀ sink, ((Machine.boot restful).undergoAll (awakening.take k)).Idle sink := by
  obtain ⟨hturns, hidle, -⟩ := halting_final restful awakening
  have hfirst : ((Machine.boot restful).undergoAll (awakening.take 1)).status = .running := by
    decide +kernel
  have hsecond : ((Machine.boot restful).undergoAll (awakening.take 2)).status = .halted := by
    decide +kernel
  rcases hturns with hthroughout | ⟨before, x, after, heq, hstops, hturn⟩
  · cases hsecond.symm.trans (hthroughout 2)
  · have hle : 1 ≤ before.length := (hturn 1).mp hfirst
    have hnot : ¬ 2 ≤ before.length := by
      intro h
      cases hsecond.symm.trans ((hturn 2).mpr h)
    refine ⟨before, x, after, heq, by omega, hstops, ?_⟩
    intro k hk sink
    apply hidle k
    rcases hstatus : ((Machine.boot restful).undergoAll (awakening.take k)).status with - | -
    · exact absurd (Nat.le_trans hk ((hturn k).mp hstatus)) hnot
    · rfl

end LS8
