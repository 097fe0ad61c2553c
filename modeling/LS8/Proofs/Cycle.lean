/-
LS8/Proofs/Cycle.lean

What a cycle of a running machine can come to.  `Machine.Cycled` lists the four
cases, and `cycled` says that the list is complete; everything that is proved
about cycles and runs starts from it.

A fault of the machine itself does not depend on the sink: it is `Due` at the
state of the machine.  So such a fault comes back whenever the machine is asked
to go on (`step_of_due`).
-/
import LS8.Machine.Step
import LS8.Proofs.Effect

namespace LS8

/-- The machine after an instruction that was fetched with `fetched`. -/
def Machine.after (m : Machine) (fetched : Fetched) (i : Instruction) (e : Effect) : Machine where
  pc := m.pc + fetched.width.toUInt16
  registers := e.registers
  memory := e.memory
  tracing := m.tracing
  status := i.status m.status

/-! ### The four cases -/

/-- The fault that is due at a machine whatever the sink is: of the fetch, or of the instruction
fetched. -/
inductive Machine.Due (m : Machine) : Fault → Prop
  | fetch {fault : Fault} (hfetch : m.fetch = .error fault) : m.Due fault
  | effect {fetched : Fetched} {i : Instruction} {fault : Fault} (hfetch : m.fetch = .ok fetched)
      (hi : fetched.instruction? = some i) (he : i.effect m.registers m.memory = .error fault) :
      m.Due fault

/-- What a cycle of a running machine can come to. -/
inductive Machine.Cycled (m : Machine) (sink : Sink) : Reply Outcome → Prop
  /-- A fault was due. -/
  | faulted {fault : Fault} {journal : Journal} (due : m.Due fault) (hout : journal.output = []) :
      m.Cycled sink ⟨.error fault, m, sink, journal⟩
  /-- The byte at the program counter is no opcode. -/
  | skipped {fetched : Fetched} {journal : Journal} (hfetch : m.fetch = .ok fetched)
      (hi : fetched.instruction? = none) (hout : journal.output = []) :
      m.Cycled sink ⟨.ok (.skipped fetched.code),
        { m with pc := m.pc + fetched.width.toUInt16 }, sink, journal⟩
  /-- An instruction had its effect. -/
  | executed {fetched : Fetched} {i : Instruction} {e : Effect} {journal : Journal}
      (hfetch : m.fetch = .ok fetched) (hi : fetched.instruction? = some i)
      (he : i.effect m.registers m.memory = .ok e) (hfits : sink.fits e.text = true)
      (hout : journal.output = e.text) :
      m.Cycled sink ⟨.ok i.outcome, m.after fetched i e, sink.offer e.text, journal⟩
  /-- An instruction had an effect, but the sink did not take all of its text. -/
  | refused {fetched : Fetched} {i : Instruction} {e : Effect} {journal : Journal}
      (hfetch : m.fetch = .ok fetched) (hi : fetched.instruction? = some i)
      (he : i.effect m.registers m.memory = .ok e) (hfits : sink.fits e.text = false)
      (hout : journal.output = sink.taken e.text) :
      m.Cycled sink ⟨.error (.output sink.refusal), m, sink.offer e.text, journal⟩

/-- The line of a trace is no output. -/
theorem Machine.output_announcement (m : Machine) : m.announcement.output = [] := by
  unfold announcement
  split <;> rfl

/-- **Every cycle of a running machine is on the list.** -/
theorem Machine.cycled {m : Machine} (hm : m.status = .running) (sink : Sink) :
    m.Cycled sink (m.step sink) := by
  have hann := m.output_announcement
  rw [step_of_running hm, Cycle.advance_run]
  rcases hfetch : m.fetch with fault | fetched
  · exact .faulted (.fetch hfetch) hann
  · dsimp only
    rcases hi : fetched.instruction? with - | i
    · rw [Cycle.perform_of_unknown hi]
      refine .skipped hfetch hi ?_
      rw [Journal.output_append, hann]
      rfl
    · rw [Cycle.perform_of_instruction hi]
      obtain ⟨journal, hreal⟩ := i.execute_run ⟨m, sink, m.announcement⟩
      rcases he : i.effect m.registers m.memory with fault | e
      · rw [he] at hreal
        obtain ⟨hout, hres⟩ := hreal
        rw [hres]
        refine .faulted (.effect hfetch hi he) ?_
        rw [Journal.output_append, hann, hout]
        rfl
      · rw [he] at hreal
        obtain ⟨hout, hres⟩ := hreal
        rw [hres]
        have hout' : (m.announcement ++ journal).output = sink.taken e.text := by
          rw [Journal.output_append, hann, hout]
          rfl
        rcases hfits : sink.fits e.text with - | -
        · exact .refused hfetch hi he hfits hout'
        · exact .executed hfetch hi he hfits (hout'.trans (Sink.taken_of_fits hfits))

/-! ### Faults that are due -/

/-- A fetch never faults for the sink. -/
theorem Machine.faultsWithin_fetch (m : Machine) : FaultsWithin m.fetch := by
  have hoperand (width : Byte) (offset : Address) : FaultsWithin (m.operand width offset) := by
    unfold operand
    dsimp only
    split
    · exact m.memory.faultsWithin_read _
    · exact .pure _
  refine (m.memory.faultsWithin_read m.pc).bind fun code => ?_
  refine (hoperand _ 1).bind fun a => ?_
  exact (hoperand _ 2).bind fun b => .pure _

theorem Machine.Due.inner {m : Machine} {fault : Fault} (h : m.Due fault) : fault.Inner := by
  cases h with
  | fetch hfetch => exact m.faultsWithin_fetch fault hfetch
  | effect hfetch hi he => exact Instruction.faultsWithin_effect _ _ _ fault he

/-- Only one fault is due. -/
theorem Machine.Due.unique {m : Machine} {f g : Fault} (hf : m.Due f) (hg : m.Due g) : f = g := by
  cases hf with
  | fetch hfetch =>
    cases hg with
    | fetch hfetch' => exact Except.error.inj (hfetch.symm.trans hfetch')
    | effect hfetch' => cases hfetch.symm.trans hfetch'
  | effect hfetch hi he =>
    cases hg with
    | fetch hfetch' => cases hfetch.symm.trans hfetch'
    | effect hfetch' hi' he' =>
      obtain rfl := Except.ok.inj (hfetch.symm.trans hfetch')
      obtain rfl := Option.some.inj (hi.symm.trans hi')
      exact Except.error.inj (he.symm.trans he')

/-- Where a fault is due, no instruction has an effect. -/
theorem Machine.Due.not_effect {m : Machine} {fault : Fault} {fetched : Fetched} {i : Instruction}
    {e : Effect} (h : m.Due fault) (hfetch : m.fetch = .ok fetched)
    (hi : fetched.instruction? = some i) (he : i.effect m.registers m.memory = .ok e) : False := by
  cases h with
  | fetch hfetch' => cases hfetch.symm.trans hfetch'
  | effect hfetch' hi' he' =>
    obtain rfl := Except.ok.inj (hfetch.symm.trans hfetch')
    obtain rfl := Option.some.inj (hi.symm.trans hi')
    cases he.symm.trans he'

/-- A fault that is due happens with any sink, and leaves no trace. -/
theorem Machine.step_of_due {m : Machine} {fault : Fault} (hm : m.status = .running)
    (due : m.Due fault) (sink : Sink) :
    ∃ journal : Journal, journal.output = [] ∧ m.step sink = ⟨.error fault, m, sink, journal⟩ := by
  have h := cycled hm sink
  generalize m.step sink = reply at h ⊢
  cases h with
  | faulted due' hout =>
    obtain rfl := due.unique due'
    exact ⟨_, hout, rfl⟩
  | skipped hfetch hi hout =>
    cases due with
    | fetch hfetch' => cases hfetch.symm.trans hfetch'
    | effect hfetch' hi' he' =>
      obtain rfl := Except.ok.inj (hfetch.symm.trans hfetch')
      cases hi.symm.trans hi'
  | executed hfetch hi he => exact (due.not_effect hfetch hi he).elim
  | refused hfetch hi he => exact (due.not_effect hfetch hi he).elim

/-- A byte that is no opcode is passed over, whatever the sink is. -/
theorem Machine.step_of_unknown {m : Machine} {fetched : Fetched} (hm : m.status = .running)
    (hfetch : m.fetch = .ok fetched) (hi : fetched.instruction? = none) (sink : Sink) :
    ∃ journal : Journal, journal.output = [] ∧
      m.step sink = ⟨.ok (.skipped fetched.code),
        { m with pc := m.pc + fetched.width.toUInt16 }, sink, journal⟩ := by
  have h := cycled hm sink
  generalize m.step sink = reply at h ⊢
  cases h with
  | faulted due =>
    cases due with
    | fetch hfetch' => cases hfetch.symm.trans hfetch'
    | effect hfetch' hi' =>
      obtain rfl := Except.ok.inj (hfetch.symm.trans hfetch')
      cases hi.symm.trans hi'
  | skipped hfetch' hi' hout =>
    obtain rfl := Except.ok.inj (hfetch.symm.trans hfetch')
    exact ⟨_, hout, rfl⟩
  | executed hfetch' hi' | refused hfetch' hi' =>
    obtain rfl := Except.ok.inj (hfetch.symm.trans hfetch')
    cases hi.symm.trans hi'

/-- An instruction that has an effect has it, unless the sink refuses the text. -/
theorem Machine.step_of_text {m : Machine} {fetched : Fetched} {i : Instruction} {e : Effect}
    (hm : m.status = .running) (hfetch : m.fetch = .ok fetched)
    (hi : fetched.instruction? = some i) (he : i.effect m.registers m.memory = .ok e)
    (sink : Sink) :
    ∃ journal : Journal, journal.output = sink.taken e.text ∧
      m.step sink =
        if sink.fits e.text then
          ⟨.ok i.outcome, m.after fetched i e, sink.offer e.text, journal⟩
        else ⟨.error (.output sink.refusal), m, sink.offer e.text, journal⟩ := by
  have h := cycled hm sink
  generalize m.step sink = reply at h ⊢
  cases h with
  | faulted due => exact (due.not_effect hfetch hi he).elim
  | skipped hfetch' hi' =>
    obtain rfl := Except.ok.inj (hfetch.symm.trans hfetch')
    cases hi.symm.trans hi'
  | executed hfetch' hi' he' hfits hout =>
    obtain rfl := Except.ok.inj (hfetch.symm.trans hfetch')
    obtain rfl := Option.some.inj (hi.symm.trans hi')
    obtain rfl := Except.ok.inj (he.symm.trans he')
    refine ⟨_, hout.trans (Sink.taken_of_fits hfits).symm, ?_⟩
    rw [if_pos hfits]
  | refused hfetch' hi' he' hfits hout =>
    obtain rfl := Except.ok.inj (hfetch.symm.trans hfetch')
    obtain rfl := Option.some.inj (hi.symm.trans hi')
    obtain rfl := Except.ok.inj (he.symm.trans he')
    refine ⟨_, hout, ?_⟩
    rw [hfits]
    rfl

/-- An instruction that has an effect has it, if the sink takes the text. -/
theorem Machine.step_of_effect {m : Machine} {sink : Sink} {fetched : Fetched} {i : Instruction}
    {e : Effect} (hm : m.status = .running) (hfetch : m.fetch = .ok fetched)
    (hi : fetched.instruction? = some i) (he : i.effect m.registers m.memory = .ok e)
    (hfits : sink.fits e.text = true) :
    ∃ journal : Journal, journal.output = e.text ∧
      m.step sink = ⟨.ok i.outcome, m.after fetched i e, sink.offer e.text, journal⟩ := by
  obtain ⟨journal, hout, hstep⟩ := step_of_text hm hfetch hi he sink
  rw [if_pos hfits] at hstep
  exact ⟨journal, hout.trans (Sink.taken_of_fits hfits), hstep⟩

/-- A fault of the machine itself was due. -/
theorem Machine.due_of_step {m : Machine} {sink : Sink} {fault : Fault}
    (hm : m.status = .running) (h : (m.step sink).result = .error fault) (hf : fault.Inner) :
    m.Due fault := by
  have hc := cycled hm sink
  generalize m.step sink = reply at hc h
  cases hc with
  | faulted due hout =>
    cases h
    exact due
  | skipped => cases h
  | executed => cases h
  | refused =>
    cases h
    exact absurd rfl (hf sink.refusal)

/-- A machine that faults was running. -/
theorem Machine.running_of_step {m : Machine} {sink : Sink} {fault : Fault}
    (h : (m.step sink).result = .error fault) : m.status = .running := by
  rcases hm : m.status with - | -
  · rfl
  · rw [step_of_halted hm] at h
    cases h

/-- A cycle that faults leaves the machine as it was. -/
theorem Machine.machine_of_step_error {m : Machine} {sink : Sink} {fault : Fault}
    (h : (m.step sink).result = .error fault) :
    (m.step sink).machine = m := by
  have hc := Machine.cycled (Machine.running_of_step h) sink
  generalize m.step sink = reply at hc h ⊢
  cases hc with
  | faulted | refused => rfl
  | skipped | executed => cases h

/-- A fault of the machine itself leaves the sink as it was. -/
theorem Machine.sink_of_step_error {m : Machine} {sink : Sink} {fault : Fault}
    (h : (m.step sink).result = .error fault) (hf : fault.Inner) :
    (m.step sink).sink = sink ∧ (m.step sink).journal.output = [] := by
  have hm := Machine.running_of_step h
  obtain ⟨journal, hout, hstep⟩ := Machine.step_of_due hm (Machine.due_of_step hm h hf) sink
  rw [hstep]
  exact ⟨rfl, hout⟩

end LS8
