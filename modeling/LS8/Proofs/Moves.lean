/-
LS8/Proofs/Moves.lean

Successful cycles in a row, with what each of them came from and led to.

    Moves m sink moves m' sink'

says that `moves` leads from the machine `m` with the sink `sink` to `m'` with
`sink'`, every move a cycle without a fault.  A run of the machine is such a
sequence and an end (`run_ends`): the machine has stopped, or the next cycle
faults.
-/
import LS8.Machine.Run
import LS8.Proofs.Cycle

namespace LS8

/-! ### Moves -/

/-- A successful cycle. -/
structure Move where
  source : Machine
  outcome : Outcome
  journal : Journal
  target : Machine

/-- The instruction of a move: a machine that has stopped executes none, and neither does a machine
that skips a byte. -/
def Move.instruction? (move : Move) : Option Instruction :=
  match move.source.status, move.source.fetch with
  | .running, .ok fetched => fetched.instruction?
  | _, _ => none

/-- `moves` leads from one machine and sink to another. -/
inductive Moves : Machine → Sink → List Move → Machine → Sink → Prop
  | nil (m : Machine) (sink : Sink) : Moves m sink [] m sink
  | cons {m : Machine} {sink : Sink} {outcome : Outcome} {m₁ : Machine} {sink₁ : Sink}
      {journal : Journal} {moves : List Move} {m' : Machine} {sink' : Sink}
      (hstep : m.step sink = ⟨.ok outcome, m₁, sink₁, journal⟩)
      (rest : Moves m₁ sink₁ moves m' sink') :
      Moves m sink (⟨m, outcome, journal, m₁⟩ :: moves) m' sink'

/-- Only a running machine executes an instruction. -/
theorem Move.running_of_instruction? {move : Move} {i : Instruction}
    (h : move.instruction? = some i) : move.source.status = .running := by
  rcases hm : move.source.status with - | -
  · rfl
  · simp [instruction?, hm] at h

theorem Move.instruction?_of_fetch {move : Move} {fetched : Fetched}
    (hm : move.source.status = .running) (hfetch : move.source.fetch = .ok fetched) :
    move.instruction? = fetched.instruction? := by
  rw [instruction?, hm, hfetch]

/-- Everything that moves show. -/
def shownBy (moves : List Move) : Journal := moves.flatMap (·.journal)

@[simp] theorem shownBy_nil : shownBy [] = [] := rfl

@[simp] theorem shownBy_cons (move : Move) (moves : List Move) :
    shownBy (move :: moves) = move.journal ++ shownBy moves := rfl

@[simp] theorem shownBy_append (moves moves' : List Move) :
    shownBy (moves ++ moves') = shownBy moves ++ shownBy moves' := List.flatMap_append

variable {m m' m'' : Machine} {sink sink' sink'' : Sink} {moves moves' : List Move}

theorem Moves.append (h : Moves m sink moves m' sink') (h' : Moves m' sink' moves' m'' sink'') :
    Moves m sink (moves ++ moves') m'' sink'' := by
  induction h with
  | nil => exact h'
  | cons hstep _ ih => exact .cons hstep (ih h')

/-- Moves can be cut anywhere. -/
theorem Moves.split (h : Moves m sink (moves ++ moves') m'' sink'') :
    ∃ m' sink', Moves m sink moves m' sink' ∧ Moves m' sink' moves' m'' sink'' := by
  induction moves generalizing m sink with
  | nil => exact ⟨m, sink, .nil m sink, h⟩
  | cons move moves ih =>
    rw [List.cons_append] at h
    cases h with
    | cons hstep rest =>
      obtain ⟨m', sink', hfirst, hsecond⟩ := ih rest
      exact ⟨m', sink', .cons hstep hfirst, hsecond⟩

/-- The move at a place, with the moves before and behind it. -/
theorem Moves.focus {k : Nat} {move : Move} (h : Moves m sink moves m' sink')
    (hk : moves[k]? = some move) :
    ∃ sink₁ sink₂, Moves m sink (moves.take k) move.source sink₁ ∧
      move.source.step sink₁ = ⟨.ok move.outcome, move.target, sink₂, move.journal⟩ ∧
      Moves move.target sink₂ (moves.drop (k + 1)) m' sink' := by
  obtain ⟨hlt, hget⟩ := List.getElem?_eq_some_iff.mp hk
  have hcut : moves = moves.take k ++ move :: moves.drop (k + 1) := by
    rw [← hget, List.getElem_cons_drop, List.take_append_drop]
  rw [hcut] at h
  obtain ⟨m₁, sink₁, hbefore, hrest⟩ := h.split
  cases hrest with
  | cons hstep hbehind => exact ⟨sink₁, _, hbefore, hstep, hbehind⟩

/-- Every move is a successful cycle. -/
theorem Moves.step_of_mem {move : Move} (h : Moves m sink moves m' sink') (hmove : move ∈ moves) :
    ∃ sink₁ sink₂,
      move.source.step sink₁ = ⟨.ok move.outcome, move.target, sink₂, move.journal⟩ := by
  obtain ⟨k, hk⟩ := List.getElem?_of_mem hmove
  obtain ⟨sink₁, sink₂, -, hstep, -⟩ := h.focus hk
  exact ⟨sink₁, sink₂, hstep⟩

/-- The moves up to a place lead to the target of the move there. -/
theorem Moves.upto {k : Nat} {move : Move} (h : Moves m sink moves m' sink')
    (hk : moves[k]? = some move) :
    ∃ sink₁, Moves m sink (moves.take (k + 1)) move.target sink₁ := by
  obtain ⟨sink₁, sink₂, hbefore, hstep, -⟩ := h.focus hk
  refine ⟨sink₂, ?_⟩
  rw [List.take_add_one, hk]
  exact hbefore.append (.cons hstep (.nil _ _))

/-- The moves between two places lead from the target of the first to the source of the second. -/
theorem Moves.between {i j : Nat} {move move' : Move} (h : Moves m sink moves m' sink')
    (hi : moves[i]? = some move) (hj : moves[j]? = some move') (hij : i < j) :
    ∃ sink₁ sink₂, Moves move.target sink₁ ((moves.take j).drop (i + 1)) move'.source sink₂ := by
  obtain ⟨sink₂, -, hbefore, -, -⟩ := h.focus hj
  have hi' : (moves.take j)[i]? = some move := by
    rw [List.getElem?_take_of_lt hij]
    exact hi
  obtain ⟨-, sink₁, -, -, hbehind⟩ := hbefore.focus hi'
  exact ⟨sink₁, sink₂, hbehind⟩

/-- The next `n` moves of a machine and where they lead, if no cycle faults. -/
def Machine.follow (m : Machine) (sink : Sink) : Nat → Option (List Move × Machine × Sink)
  | 0 => some ([], m, sink)
  | n + 1 =>
    match m.step sink with
    | ⟨.error _, _, _, _⟩ => none
    | ⟨.ok outcome, m₁, sink₁, journal⟩ =>
      (m₁.follow sink₁ n).map fun (moves, goal) => (⟨m, outcome, journal, m₁⟩ :: moves, goal)

theorem Moves.of_follow {n : Nat} (h : m.follow sink n = some (moves, m', sink')) :
    Moves m sink moves m' sink' := by
  induction n generalizing m sink moves with
  | zero =>
    cases h
    exact .nil _ _
  | succ n ih =>
    rcases hstep : m.step sink with ⟨fault | outcome, m₁, sink₁, journal⟩
    · rw [Machine.follow, hstep] at h
      cases h
    · rw [Machine.follow, hstep] at h
      obtain ⟨⟨moves₁, goal⟩, hfollow, hmoves⟩ := Option.map_eq_some_iff.mp h
      cases hmoves
      exact .cons hstep (ih hfollow)

/-! ### Single cycles -/

/-- The replies to single cycles are the moves, as long as no cycle faults. -/
theorem Moves.map_steps (h : Moves m sink moves m' sink') :
    (m.steps sink moves.length).map (fun reply => (reply.result, reply.machine, reply.journal)) =
      moves.map fun move => (.ok move.outcome, move.target, move.journal) := by
  induction h with
  | nil => rfl
  | cons hstep _ ih =>
    rw [List.length_cons, Machine.steps, hstep]
    exact congrArg (List.cons _) ih

theorem Moves.journal_steps (h : Moves m sink moves m' sink') :
    (m.steps sink moves.length).flatMap (·.journal) = shownBy moves := by
  have hjournals := congrArg (List.flatMap fun reply => reply.2.2) h.map_steps
  rwa [List.flatMap_map, List.flatMap_map] at hjournals

/-- More cycles than the moves go on from where these lead. -/
theorem Moves.steps_add (h : Moves m sink moves m' sink') (count : Nat) :
    m.steps sink (moves.length + count) = m.steps sink moves.length ++ m'.steps sink' count := by
  induction h with
  | nil => rw [List.length_nil, Nat.zero_add, Machine.steps, List.nil_append]
  | cons hstep _ ih =>
    rw [List.length_cons, Nat.succ_add, Machine.steps, Machine.steps, hstep]
    exact congrArg (List.cons _) ih

/-! ### Runs -/

/-- A run goes through moves of a running machine, and on from there. -/
theorem Moves.run_eq (h : Moves m sink moves m' sink')
    (hrunning : ∀ move ∈ moves, move.source.status = .running) :
    m.run sink = (m'.run sink').after (shownBy moves) := by
  induction h with
  | nil => rfl
  | @cons m sink outcome m₁ sink₁ journal moves m' sink' hstep rest ih =>
    have hm : m.status = .running := hrunning _ List.mem_cons_self
    have hrest := ih fun move hmove => hrunning move (List.mem_cons_of_mem _ hmove)
    rw [Machine.run_of_step_ok hm (congrArg Reply.result hstep), hstep, shownBy_cons]
    show (m₁.run sink₁).after journal = _
    rw [hrest, Reply.after, Reply.after, Reply.after, List.append_assoc]

/-- How a run ends that has come to the machine `m`. -/
inductive Machine.Ended (m : Machine) (sink : Sink) (journal : Journal) : Reply Unit → Prop
  /-- The machine has stopped. -/
  | halted (hm : m.status = .halted) :
      m.Ended sink journal ⟨.ok (), m, sink, journal ++ [.record (.finished m.pc)]⟩
  /-- The next cycle faults. -/
  | faulted {fault : Fault} {reply : Reply Outcome} (hm : m.status = .running)
      (hstep : m.step sink = reply) (hfault : reply.result = .error fault) :
      m.Ended sink journal
        ⟨.error fault, reply.machine, reply.sink, journal ++ reply.journal⟩

theorem Machine.Ended.after {journal journal' : Journal} {reply : Reply Unit}
    (h : m.Ended sink journal reply) :
    m.Ended sink (journal' ++ journal) (reply.after journal') := by
  cases h with
  | halted hm =>
    rw [Reply.after, ← List.append_assoc]
    exact .halted hm
  | faulted hm hstep hfault =>
    rw [Reply.after, ← List.append_assoc]
    exact .faulted hm hstep hfault

/-- **A run is a sequence of moves of a running machine, and an end.** -/
theorem Machine.run_ends (m : Machine) (sink : Sink) :
    ∃ moves m' sink', Moves m sink moves m' sink' ∧
      (∀ move ∈ moves, move.source.status = .running) ∧
      m'.Ended sink' (shownBy moves) (m.run sink) := by
  rcases hm : m.status with - | -
  · rcases hstep : m.step sink with ⟨result, m₁, sink₁, journal⟩
    rcases result with fault | outcome
    · refine ⟨[], m, sink, .nil m sink, ?_, ?_⟩
      · intro move hmove
        cases hmove
      · rw [run_of_step_error hm (congrArg Reply.result hstep)]
        exact .faulted hm rfl (congrArg Reply.result hstep)
    · have hok : (m.step sink).result = .ok outcome := congrArg Reply.result hstep
      have hroom : UInt16.size - m₁.pc.toNat < UInt16.size - m.pc.toNat := by
        have hstep_room := room_of_step hm hok
        rwa [hstep] at hstep_room
      obtain ⟨moves, m', sink', hmoves, hrunning, hend⟩ := m₁.run_ends sink₁
      refine ⟨⟨m, outcome, journal, m₁⟩ :: moves, m', sink', .cons hstep hmoves, ?_, ?_⟩
      · intro move hmove
        rcases List.mem_cons.mp hmove with rfl | hmove
        · exact hm
        · exact hrunning move hmove
      · rw [run_of_step_ok hm hok, hstep]
        exact hend.after
  · refine ⟨[], m, sink, .nil m sink, ?_, ?_⟩
    · intro move hmove
      cases hmove
    · rw [run_of_halted hm]
      exact .halted hm
termination_by UInt16.size - m.pc.toNat

/-- The course of a run: the successful cycles that it goes through, and where they lead. -/
structure Machine.Course (m : Machine) (sink : Sink) (moves : List Move) (m' : Machine)
    (sink' : Sink) : Prop where
  leads : Moves m sink moves m' sink'
  running : ∀ move ∈ moves, move.source.status = .running
  ends : m'.Ended sink' (shownBy moves) (m.run sink)

theorem Machine.exists_course (m : Machine) (sink : Sink) :
    ∃ moves m' sink', m.Course sink moves m' sink' := by
  obtain ⟨moves, m', sink', hmoves, hrunning, hend⟩ := m.run_ends sink
  exact ⟨moves, m', sink', hmoves, hrunning, hend⟩

/-- A cycle of a run, with the course up to it. -/
theorem Machine.Course.focus {k : Nat} {move : Move} (h : m.Course sink moves m' sink')
    (hk : moves[k]? = some move) :
    ∃ sink₁ sink₂, Moves m sink (moves.take k) move.source sink₁ ∧
      (∀ move ∈ moves.take k, move.source.status = .running) ∧
      move.source.status = .running ∧
      move.source.step sink₁ = ⟨.ok move.outcome, move.target, sink₂, move.journal⟩ := by
  obtain ⟨sink₁, sink₂, hbefore, hstep, -⟩ := h.leads.focus hk
  refine ⟨sink₁, sink₂, hbefore, ?_, ?_, hstep⟩
  · intro move hmove
    exact h.running move (List.mem_of_mem_take hmove)
  · exact h.running move (List.mem_of_getElem? hk)

/-- Moves that stop a machine are the course of its run. -/
theorem Moves.course_of_halted (h : Moves m sink moves m' sink')
    (hrunning : ∀ move ∈ moves, move.source.status = .running) (hm' : m'.status = .halted) :
    m.Course sink moves m' sink' := by
  refine ⟨h, hrunning, ?_⟩
  rw [h.run_eq hrunning, Machine.run_of_halted hm']
  exact .halted hm'

theorem Machine.Course.run_of_halted (h : m.Course sink moves m' sink')
    (hm' : m'.status = .halted) :
    m.run sink = ⟨.ok (), m', sink', shownBy moves ++ [.record (.finished m'.pc)]⟩ := by
  have hend := h.ends
  generalize m.run sink = reply at hend
  cases hend with
  | halted => rfl
  | faulted hm => cases hm.symm.trans hm'

/-- The course of a run that is followed up to where the machine stops. -/
theorem Machine.course_of_follow {n : Nat} (h : m.follow sink n = some (moves, m', sink'))
    (hrunning : moves.all (·.source.status = .running) = true) (hm' : m'.status = .halted) :
    m.Course sink moves m' sink' := by
  apply (Moves.of_follow h).course_of_halted _ hm'
  intro move hmove
  exact of_decide_eq_true (List.all_eq_true.mp hrunning move hmove)

/-- A run without a fault ends where its course leads, with the machine stopped. -/
theorem Machine.Course.of_ok (h : m.Course sink moves m' sink')
    (hok : (m.run sink).result = .ok ()) :
    m'.status = .halted ∧
      m.run sink = ⟨.ok (), m', sink', shownBy moves ++ [.record (.finished m'.pc)]⟩ := by
  have hend := h.ends
  generalize m.run sink = reply at hok hend ⊢
  cases hend with
  | halted hm => exact ⟨hm, rfl⟩
  | faulted => cases hok

/-- A run that faults ends with the cycle that its course leads to. -/
theorem Machine.Course.of_error {fault : Fault} (h : m.Course sink moves m' sink')
    (hfault : (m.run sink).result = .error fault) :
    m'.status = .running ∧ (m'.step sink').result = .error fault ∧
      m.run sink = ⟨.error fault, (m'.step sink').machine, (m'.step sink').sink,
        shownBy moves ++ (m'.step sink').journal⟩ := by
  have hend := h.ends
  generalize m.run sink = reply at hfault hend ⊢
  cases hend with
  | halted => cases hfault
  | faulted hm hstep hresult =>
    subst hstep
    obtain rfl := Except.error.inj hfault
    exact ⟨hm, hresult, rfl⟩

/-- **Single cycles show what a run shows.**  A run that faults is the cycles of its course and the
one that faults; asked for more of them, the machine makes none. -/
theorem Machine.Course.journal_steps_of_error {fault : Fault} (h : m.Course sink moves m' sink')
    (hfault : (m.run sink).result = .error fault) (count : Nat) :
    (m.steps sink (moves.length + (count + 1))).flatMap (·.journal) = (m.run sink).journal := by
  obtain ⟨-, hstep, hrun⟩ := h.of_error hfault
  have hlast : m'.steps sink' (count + 1) = [m'.step sink'] := by
    rw [Machine.steps, hstep]
  rw [h.leads.steps_add, hlast, List.flatMap_append, h.leads.journal_steps, hrun,
    List.flatMap_singleton]

end LS8
