/-
LS8/Proofs/Tracing.lean

Tracing only watches.

A traced machine shows a snapshot before each of its cycles, and that is all the
flag does: what a cycle comes to, what it leaves behind, and everything else
that it shows, are the same with the flag and without it (`step_traced`).  So
they are for whole runs (`run_traced`).

What the flag adds is a record in front: every cycle of a traced machine that
has not stopped, also one that faults, shows the line of the machine before all
else, and then no second trace (`Machine.Announces`).  `tracing_watches` puts the
two together for sessions, in which cycles and runs are asked for in any order.
-/
import LS8.Proofs.Atomicity
import LS8.Proofs.Replay

namespace LS8

/-! ### Journals without traces -/

/-- Is this anything else than a trace? -/
def Event.plain : Event → Bool
  | .record (.trace _) => false
  | _ => true

/-- A journal without its traces. -/
def Journal.untraced (journal : Journal) : Journal := journal.filter Event.plain

@[simp] theorem Journal.untraced_append (j k : Journal) :
    untraced (j ++ k) = untraced j ++ untraced k := List.filter_append j k

theorem Machine.untraced_announcement (m : Machine) : m.announcement.untraced = [] := by
  unfold announcement
  split <;> rfl

/-- A trace is no output. -/
theorem Journal.output_untraced (journal : Journal) : journal.untraced.output = journal.output := by
  induction journal with
  | nil => rfl
  | cons event journal ih =>
    rcases event with text | record
    · exact congrArg (text ++ ·) ih
    · -- no record is output, and the trace records are no exception
      cases record <;> exact ih

/-- The machine with the flag set to `b`. -/
def Machine.traced (b : Bool) (m : Machine) : Machine := { m with tracing := b }

/-- The replies are the same, but for the flag and the traces. -/
structure Reply.Watches {α : Type} (b : Bool) (reply reply' : Reply α) : Prop where
  result : reply'.result = reply.result
  machine : reply'.machine = reply.machine.traced b
  sink : reply'.sink = reply.sink
  journal : reply'.journal.untraced = reply.journal.untraced

variable {m : Machine} {fault : Fault}

/-! ### Cycles -/

/-- The flag decides nothing about a fault. -/
theorem Machine.Due.traced (h : m.Due fault) (b : Bool) : (m.traced b).Due fault := by
  cases h with
  | fetch hfetch => exact .fetch hfetch
  | effect hfetch hi he => exact .effect hfetch hi he

/-- **A cycle does the same with the flag and without it.** -/
theorem Machine.step_traced (m : Machine) (b : Bool) (sink : Sink) :
    Reply.Watches b (m.step sink) ((m.traced b).step sink) := by
  rcases hm : m.status with - | -
  · have hm' : (m.traced b).status = .running := hm
    have hjournal : ((m.traced b).step sink).journal.untraced =
        (m.step sink).journal.untraced := by
      rw [journal_of_step hm, journal_of_step hm', Journal.untraced_append,
        Journal.untraced_append, untraced_announcement, untraced_announcement]
      rfl
    have hcycled := cycled hm sink
    generalize m.step sink = reply at hcycled hjournal ⊢
    -- fetch and effect do not look at the flag, so the traced cycle has the same case
    cases hcycled with
    | faulted due =>
      obtain ⟨journal, -, hstep⟩ := step_of_due hm' (due.traced b) sink
      rw [hstep] at hjournal ⊢
      exact ⟨rfl, rfl, rfl, hjournal⟩
    | skipped hfetch hi =>
      obtain ⟨journal, -, hstep⟩ := step_of_unknown (m := m.traced b) hm' hfetch hi sink
      rw [hstep] at hjournal ⊢
      exact ⟨rfl, rfl, rfl, hjournal⟩
    | executed hfetch hi he hfits =>
      obtain ⟨journal, -, hstep⟩ := step_of_effect (m := m.traced b) hm' hfetch hi he hfits
      rw [hstep] at hjournal ⊢
      exact ⟨rfl, rfl, rfl, hjournal⟩
    | refused hfetch hi he hfits =>
      obtain ⟨journal, -, hstep⟩ := step_of_text (m := m.traced b) hm' hfetch hi he sink
      rw [hfits] at hstep
      rw [hstep] at hjournal ⊢
      exact ⟨rfl, rfl, rfl, hjournal⟩
  · have hm' : (m.traced b).status = .halted := hm
    rw [step_of_halted hm, step_of_halted hm']
    exact ⟨rfl, rfl, rfl, rfl⟩

/-! ### Runs -/

theorem Reply.Watches.after {α : Type} {b : Bool} {reply reply' : Reply α}
    {journal journal' : Journal}
    (h : Watches b reply reply') (hjournal : journal'.untraced = journal.untraced) :
    Watches b (reply.after journal) (reply'.after journal') := by
  refine ⟨h.result, h.machine, h.sink, ?_⟩
  show (journal' ++ reply'.journal).untraced = (journal ++ reply.journal).untraced
  rw [Journal.untraced_append, Journal.untraced_append, hjournal, h.journal]

/-- **A run does the same with the flag and without it.** -/
theorem Machine.run_traced (m : Machine) (b : Bool) (sink : Sink) :
    Reply.Watches b (m.run sink) ((m.traced b).run sink) := by
  rcases hm : m.status with - | -
  · have hm' : (m.traced b).status = .running := hm
    have hwatches := m.step_traced b sink
    rcases hresult : (m.step sink).result with fault | outcome
    · have hresult' := hwatches.result.trans hresult
      rw [run_of_step_error hm hresult, run_of_step_error hm' hresult']
      exact ⟨rfl, hwatches.machine, hwatches.sink, hwatches.journal⟩
    · have hresult' := hwatches.result.trans hresult
      have hroom := room_of_step hm hresult
      rw [run_of_step_ok hm hresult, run_of_step_ok hm' hresult', hwatches.machine, hwatches.sink]
      exact ((m.step sink).machine.run_traced b _).after hwatches.journal
  · have hm' : (m.traced b).status = .halted := hm
    rw [run_of_halted hm, run_of_halted hm']
    exact ⟨rfl, rfl, rfl, rfl⟩
termination_by UInt16.size - m.pc.toNat

/-- The flag stays as it is. -/
theorem Machine.tracing_step (m : Machine) (sink : Sink) :
    (m.step sink).machine.tracing = m.tracing := by
  -- setting the flag to what it is leaves the machine as it is
  have hmachine := (m.step_traced m.tracing sink).machine
  change (m.step sink).machine = _ at hmachine
  rw [hmachine]
  rfl

theorem Machine.tracing_run (m : Machine) (sink : Sink) :
    (m.run sink).machine.tracing = m.tracing := by
  have hmachine := (m.run_traced m.tracing sink).machine
  change (m.run sink).machine = _ at hmachine
  rw [hmachine]
  rfl

/-! ### Journals that have no traces -/

/-- No record is a trace. -/
def Journal.Quiet (journal : Journal) : Prop := ∀ record ∈ journal.records, record.level ≠ .trace

/-- The traces of a journal are the records on their level. -/
theorem Journal.records_untraced (journal : Journal) :
    journal.untraced.records = journal.records.filter (·.level ≠ .trace) := by
  induction journal with
  | nil => rfl
  | cons event journal ih =>
    rcases event with text | record
    · exact ih
    · cases record with
      | trace => exact ih
      | _ => exact congrArg (_ :: ·) ih

theorem Journal.Quiet.untraced {journal : Journal} (h : journal.Quiet) :
    journal.untraced = journal := by
  refine List.filter_eq_self.mpr ?_
  intro event hevent
  rcases event with text | record
  · rfl
  · have hrecord : record ∈ journal.records := List.mem_filterMap.mpr ⟨_, hevent, rfl⟩
    cases record with
    | trace => exact absurd rfl (h _ hrecord)
    | _ => rfl

theorem Journal.Quiet.append {j k : Journal} (hj : j.Quiet) (hk : k.Quiet) : Quiet (j ++ k) := by
  intro record hrecord
  rw [records_append, List.mem_append] at hrecord
  exact hrecord.elim (hj record) (hk record)

theorem Journal.quiet_of_records_nil {journal : Journal} (h : journal.records = []) :
    journal.Quiet := by
  intro record hrecord
  rw [h] at hrecord
  cases hrecord

theorem Journal.quiet_record {record : Record} (h : record.level ≠ .trace) :
    Quiet [.record record] := by
  intro record' hrecord'
  obtain rfl := List.mem_singleton.mp hrecord'
  exact h

theorem Instruction.quiet_told (i : Instruction) (r : Registers) (memory : Ram) (sink : Sink) :
    (i.told r memory sink).Quiet := by
  unfold told
  split
  · -- only arithmetic shows anything when it faults
    unfold unkept
    split
    · split
      · exact Journal.quiet_record nofun
      · exact Journal.quiet_of_records_nil rfl
    · exact Journal.quiet_of_records_nil rfl
  · refine (Journal.quiet_of_records_nil (sink.records_echo _)).append ?_
    split
    · apply Journal.quiet_record
      rw [level_record]
      nofun
    · exact Journal.quiet_of_records_nil rfl

/-- What is told of a cycle has no trace. -/
theorem Machine.quiet_told (m : Machine) (sink : Sink) : (m.told sink).Quiet := by
  unfold told
  split
  · exact Journal.quiet_of_records_nil rfl
  · split
    · exact Journal.quiet_record nofun
    · exact Instruction.quiet_told _ _ _ _

theorem Machine.quiet_of_step (htracing : m.tracing = false) (sink : Sink) :
    (m.step sink).journal.Quiet := by
  rcases hm : m.status with - | -
  · rw [journal_of_untraced hm htracing]
    exact m.quiet_told sink
  · rw [step_of_halted hm]
    exact Journal.quiet_of_records_nil rfl

theorem Machine.quiet_of_run (m : Machine) (htracing : m.tracing = false) (sink : Sink) :
    (m.run sink).journal.Quiet := by
  rcases hm : m.status with - | -
  · rcases hresult : (m.step sink).result with fault | outcome
    · rw [run_of_step_error hm hresult]
      exact quiet_of_step htracing sink
    · have hroom := room_of_step hm hresult
      rw [run_of_step_ok hm hresult]
      exact (quiet_of_step htracing sink).append
        ((m.step sink).machine.quiet_of_run ((m.tracing_step sink).trans htracing) _)
  · rw [run_of_halted hm]
    exact Journal.quiet_record nofun
termination_by UInt16.size - m.pc.toNat

/-! ### Watching cycles and runs -/

/-- The traced reply is the plain one, but for the flag and the traces in the journal. -/
structure Reply.Observed {α : Type} (plain traced : Reply α) : Prop where
  result : traced.result = plain.result
  machine : traced.machine = plain.machine.traced true
  sink : traced.sink = plain.sink
  output : traced.journal.output = plain.journal.output
  records : traced.journal.records.filter (·.level ≠ .trace) = plain.journal.records
  journal : traced.journal.untraced = plain.journal

theorem Reply.Watches.observed {α : Type} {plain traced : Reply α} (h : Watches true plain traced)
    (hquiet : plain.journal.Quiet) : Observed plain traced := by
  have hjournal : traced.journal.untraced = plain.journal := h.journal.trans hquiet.untraced
  refine ⟨h.result, h.machine, h.sink, ?_, ?_, hjournal⟩
  · rw [← Journal.output_untraced, hjournal]
  · rw [← Journal.records_untraced, hjournal]

theorem Machine.step_observed (htracing : m.tracing = false) (sink : Sink) :
    Reply.Observed (m.step sink) ((m.traced true).step sink) :=
  (m.step_traced true sink).observed (quiet_of_step htracing sink)

theorem Machine.run_observed (htracing : m.tracing = false) (sink : Sink) :
    Reply.Observed (m.run sink) ((m.traced true).run sink) :=
  (m.run_traced true sink).observed (m.quiet_of_run htracing sink)

/-- The journal of a cycle begins with the line of the machine, if it has not stopped, and has no
other trace. -/
inductive Machine.Announces (m : Machine) : Journal → Prop
  | running {record : Record} {rest : Journal} (hm : m.status = .running)
      (hlevel : record.level = .trace) (htext : record.text = String.ofList m.snapshot.line)
      (hquiet : rest.Quiet) : m.Announces (.record record :: rest)
  | halted (hm : m.status = .halted) : m.Announces []

/-- **Every cycle of a traced machine shows its line first.** -/
theorem Machine.announces_of_step (htracing : m.tracing = true) (sink : Sink) :
    m.Announces (m.step sink).journal := by
  rcases hm : m.status with - | -
  · rw [journal_of_step hm, announcement, if_pos htracing]
    exact .running hm rfl rfl (m.quiet_told sink)
  · rw [step_of_halted hm]
    exact .halted hm

/-- The traced move is the plain one, with the trace of its source in front. -/
structure Move.Observed (plain traced : Move) : Prop where
  source : traced.source = plain.source.traced true
  outcome : traced.outcome = plain.outcome
  target : traced.target = plain.target.traced true
  journal : traced.journal.untraced = plain.journal
  announced : traced.source.Announces traced.journal

variable {m' : Machine} {sink sink' : Sink} {moves : List Move}

/-- Where moves lead without the flag, they lead with it. -/
theorem Moves.traced (h : Moves m sink moves m' sink')
    (hrunning : ∀ move ∈ moves, move.source.status = .running) (htracing : m.tracing = false) :
    ∃ moves', Moves (m.traced true) sink moves' (m'.traced true) sink' ∧
      (∀ move ∈ moves', move.source.status = .running) ∧
      List.Forall₂ Move.Observed moves moves' := by
  induction h with
  | nil => exact ⟨[], .nil _ _, nofun, .nil⟩
  | @cons m sink outcome m₁ sink₁ journal moves m' sink' hstep rest ih =>
    obtain ⟨hm, hrunning⟩ := List.forall_mem_cons.mp hrunning
    obtain ⟨moves', hmoves', hrunning', hobserved⟩ :=
      ih hrunning ((Machine.tracing_of_step hstep).trans htracing)
    have hcycle := Machine.step_observed htracing sink
    have hannounced := Machine.announces_of_step (m := m.traced true) rfl sink
    rw [hstep] at hcycle
    rcases htraced : (m.traced true).step sink with ⟨result, machine, sink₂, journal'⟩
    rw [htraced] at hcycle hannounced
    obtain rfl : result = .ok outcome := hcycle.result
    obtain rfl : machine = m₁.traced true := hcycle.machine
    obtain rfl : sink₂ = sink₁ := hcycle.sink
    refine ⟨⟨m.traced true, outcome, journal', m₁.traced true⟩ :: moves', .cons htraced hmoves', ?_,
      .cons ⟨rfl, rfl, rfl, hcycle.journal, hannounced⟩ hobserved⟩
    exact List.forall_mem_cons.mpr ⟨hm, hrunning'⟩

/-- **A run with the flag goes the way of the run without it.** -/
theorem Machine.Course.traced (h : m.Course sink moves m' sink') (htracing : m.tracing = false) :
    ∃ moves', (m.traced true).Course sink moves' (m'.traced true) sink' ∧
      List.Forall₂ Move.Observed moves moves' := by
  obtain ⟨moves', hmoves', hrunning', hobserved⟩ := h.leads.traced h.running htracing
  refine ⟨moves', ⟨hmoves', hrunning', ?_⟩, hobserved⟩
  have hend := h.ends
  rw [hmoves'.run_eq hrunning']
  generalize m.run sink = reply at hend
  cases hend with
  | halted hm =>
    have hm' : (m'.traced true).status = .halted := hm
    rw [Machine.run_of_halted hm']
    exact .halted hm'
  | @faulted fault reply hm hstep hfault =>
    have hm' : (m'.traced true).status = .running := hm
    have hfault' : ((m'.traced true).step sink').result = .error fault := by
      rw [(m'.step_traced true sink').result, hstep, hfault]
    rw [run_of_step_error hm' hfault']
    exact .faulted hm' rfl hfault'

/-! ### Watching sessions -/

/-- A call of a machine with a sink, and the reply to it. -/
structure Exchange where
  machine : Machine
  sink : Sink
  call : Call
  reply : Reply Outcome

/-- The reply to a call; a run without a fault comes to a halt. -/
def Machine.reply (m : Machine) (sink : Sink) : Call → Reply Outcome
  | .cycle => m.step sink
  | .run =>
    let reply := m.run sink
    ⟨reply.result.map fun _ => .halted, reply.machine, reply.sink, reply.journal⟩

/-- Calls one after the other, each of the machine and with the sink that the one before has left,
whether that one has faulted or not. -/
def Machine.session (m : Machine) (sink : Sink) : List Call → List Exchange
  | [] => []
  | call :: calls =>
    let reply := m.reply sink call
    ⟨m, sink, call, reply⟩ :: reply.machine.session reply.sink calls

/-- Everything that a session shows. -/
def shownIn (session : List Exchange) : Journal := session.flatMap (·.reply.journal)

/-- The traced machine goes the way of the plain one, every cycle with its line in front. -/
def Exchange.Announced (plain traced : Exchange) : Prop :=
  match plain.call with
  | .cycle => traced.machine.Announces traced.reply.journal
  | .run =>
    ∃ moves moves' m' sink', plain.machine.Course plain.sink moves m' sink' ∧
      traced.machine.Course traced.sink moves' (m'.traced true) sink' ∧
      List.Forall₂ Move.Observed moves moves' ∧
      (m'.traced true).Announces ((m'.traced true).step sink').journal

/-- The traced exchange is the plain one, but for the flag and the traces. -/
structure Exchange.Observed (plain traced : Exchange) : Prop where
  call : traced.call = plain.call
  untraced : plain.machine.tracing = false
  machine : traced.machine = plain.machine.traced true
  sink : traced.sink = plain.sink
  reply : Reply.Observed plain.reply traced.reply
  announced : Announced plain traced

theorem Machine.reply_observed (htracing : m.tracing = false) (sink : Sink) (call : Call) :
    Reply.Observed (m.reply sink call) ((m.traced true).reply sink call) := by
  cases call with
  | cycle => exact step_observed htracing sink
  | run =>
    have h := run_observed htracing sink
    exact ⟨congrArg (Except.map _) h.result, h.machine, h.sink, h.output, h.records, h.journal⟩

theorem Machine.tracing_reply (m : Machine) (sink : Sink) (call : Call) :
    (m.reply sink call).machine.tracing = m.tracing := by
  cases call with
  | cycle => exact m.tracing_step sink
  | run => exact m.tracing_run sink

theorem Machine.announced_reply (htracing : m.tracing = false) (sink : Sink) (call : Call) :
    Exchange.Announced ⟨m, sink, call, m.reply sink call⟩
      ⟨m.traced true, sink, call, (m.traced true).reply sink call⟩ := by
  cases call with
  | cycle => exact announces_of_step (m := m.traced true) rfl sink
  | run =>
    obtain ⟨moves, m', sink', hcourse⟩ := m.exists_course sink
    obtain ⟨moves', hcourse', hobserved⟩ := hcourse.traced htracing
    exact ⟨moves, moves', m', sink', hcourse, hcourse', hobserved, announces_of_step rfl sink'⟩

/-- Every exchange of a session is observed: a call leaves equal machines, but for the flag, and the
same sink to the next one. -/
theorem Machine.session_observed (htracing : m.tracing = false) (sink : Sink) (calls : List Call) :
    List.Forall₂ Exchange.Observed (m.session sink calls) ((m.traced true).session sink calls) := by
  induction calls generalizing m sink with
  | nil => exact .nil
  | cons call calls ih =>
    have hreply := reply_observed htracing sink call
    refine .cons ⟨rfl, htracing, rfl, rfl, hreply, announced_reply htracing sink call⟩ ?_
    rw [hreply.machine, hreply.sink]
    exact ih ((m.tracing_reply sink call).trans htracing) _

theorem untraced_shownIn {plain traced : List Exchange}
    (h : List.Forall₂ Exchange.Observed plain traced) :
    (shownIn traced).untraced = shownIn plain := by
  induction h with
  | nil => rfl
  | cons hexchange _ ih =>
    simp only [shownIn, List.flatMap_cons, Journal.untraced_append] at ih ⊢
    rw [hexchange.reply.journal, ih]

/-- **Tracing only watches.**  Whatever cycles and runs are asked for, and in whatever order, each
call comes to the same with the flag as without it, starts from the same machine and sink and leaves
the same machine and sink, but for the flag, and shows the same output and, without the traces, the
same records; and so for everything that is shown.  With the flag every cycle of a machine that has
not stopped, on its own or in a run, successful or not, shows its line before all else and no other
trace, and a cycle of one that has stopped shows nothing. -/
theorem tracing_watches (m : Machine) (sink : Sink) (calls : List Call) :
    List.Forall₂ Exchange.Observed ((m.traced false).session sink calls)
      ((m.traced true).session sink calls) ∧
    (shownIn ((m.traced true).session sink calls)).output =
      (shownIn ((m.traced false).session sink calls)).output ∧
    (shownIn ((m.traced true).session sink calls)).records.filter (·.level ≠ .trace) =
      (shownIn ((m.traced false).session sink calls)).records := by
  have hsession := Machine.session_observed (m := m.traced false) rfl sink calls
  have hshown := untraced_shownIn hsession
  refine ⟨hsession, ?_, ?_⟩
  · rw [← hshown, Journal.output_untraced]
    rfl
  · rw [← hshown, Journal.records_untraced]
    rfl

/-- A byte is loaded, and then a division by zero faults, on its own and in a run. -/
example : (((Machine.boot (Memory.zero.placeBlock 0 #[0x82, 0, 5, 0xA3, 0, 1])).traced true).session
    .unlimited [.cycle, .cycle, .run]).map (·.reply.journal.records.map Record.level) =
      [[.trace, .debug], [.trace], [.trace]] := by decide +kernel

end LS8
