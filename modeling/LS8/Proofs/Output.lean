/-
LS8/Proofs/Output.lean

What a run prints, and what a sink with little room makes of it.

A run prints the lines of its prints, one after the other (`output_of_moves`).
The sink has no other part in it: a cycle does the same with any sink that
takes its line, and with one that does not it faults and does nothing
(`step_onto`).  So a run into a sink with room for `n` characters is the run
into an unlimited sink, up to the line that holds character number `n`.  There
it stops, between two characters or between two lines, and an unlimited sink
gets the rest (`run_cut_by_sink`).
-/
import LS8.Proofs.Faults
import LS8.Proofs.Moves

namespace LS8

variable {m m₁ m' : Machine} {sink sink₁ sink' : Sink} {outcome : Outcome} {journal : Journal}
  {moves : List Move}

/-! ### Lines -/

/-- The line that an instruction prints: a register in decimal, and a newline. -/
def Instruction.line (r : Registers) : Instruction → List Char
  | .prn register => Numeral.decimal (r.value register).toNat ++ ['\n']
  | _ => []

/-- The line that a move prints. -/
def Move.line (move : Move) : List Char :=
  match move.instruction? with
  | some i => i.line move.source.registers
  | none => []

/-- The lines that moves print. -/
def lines (moves : List Move) : List Char := moves.flatMap Move.line

@[simp] theorem lines_nil : lines [] = [] := rfl

@[simp] theorem lines_cons (move : Move) (moves : List Move) :
    lines (move :: moves) = move.line ++ lines moves := rfl

@[simp] theorem lines_append (moves moves' : List Move) :
    lines (moves ++ moves') = lines moves ++ lines moves' := List.flatMap_append

/-- The text of an effect is the line of its instruction. -/
theorem Instruction.text_eq {i : Instruction} {r : Registers} {m : Ram} {e : Effect}
    (he : i.effect r m = .ok e) : e.text = i.line r := by
  cases i with
  | prn register =>
    simp only [effect, bind_eq_ok_iff, pure_eq_ok_iff] at he
    obtain ⟨value, hget, rfl⟩ := he
    rw [line, (r.get_eq_ok hget).2]
    rfl
  | ldi | hlt | pop | push | arith =>
    rcases text_of_effect he with hnil | ⟨register, value, hprn, -⟩
    · exact hnil
    · cases hprn

/-- A line that is not empty is printed. -/
theorem Move.exists_prn {move : Move} (h : move.line ≠ []) :
    ∃ register, move.instruction? = some (.prn register) := by
  rw [line] at h
  rcases hi : move.instruction? with - | i
  · rw [hi] at h
    exact absurd rfl h
  · rw [hi] at h
    cases i with
    | prn register => exact ⟨register, rfl⟩
    | ldi | hlt | pop | push | arith => exact absurd rfl h

/-! ### A cycle and its sink -/

/-- A successful cycle prints its line, and the sink has taken it. -/
theorem Machine.output_of_step (hstep : m.step sink = ⟨.ok outcome, m₁, sink₁, journal⟩) :
    journal.output = Move.line ⟨m, outcome, journal, m₁⟩ ∧
      sink₁ = sink.offer journal.output := by
  rcases hm : m.status with - | -
  · have hcycled := cycled hm sink
    rw [hstep] at hcycled
    cases hcycled with
    | skipped hfetch hi hout =>
      rw [Move.line, Move.instruction?_of_fetch hm hfetch, hi, hout]
      exact ⟨rfl, (Sink.offer_nil sink).symm⟩
    | executed hfetch hi he hfits hout =>
      rw [Move.line, Move.instruction?_of_fetch hm hfetch, hi, hout]
      exact ⟨Instruction.text_eq he, rfl⟩
  · rw [step_of_halted hm] at hstep
    cases hstep
    rw [Move.line, Move.instruction?, hm]
    exact ⟨rfl, (Sink.offer_nil sink).symm⟩

/-- **The sink decides nothing but whether it takes the line.** -/
theorem Machine.step_onto (hstep : m.step sink = ⟨.ok outcome, m₁, sink₁, journal⟩)
    (sink' : Sink) :
    ∃ journal' : Journal, journal'.output = sink'.taken journal.output ∧
      m.step sink' =
        if sink'.fits journal.output then
          ⟨.ok outcome, m₁, sink'.offer journal.output, journal'⟩
        else ⟨.error (.output sink'.refusal), m, sink'.offer journal.output, journal'⟩ := by
  rcases hm : m.status with - | -
  · have hcycled := cycled hm sink
    rw [hstep] at hcycled
    cases hcycled with
    | skipped hfetch hi hout =>
      obtain ⟨journal', hout', hstep'⟩ := step_of_unknown hm hfetch hi sink'
      refine ⟨journal', ?_, ?_⟩
      · rw [hout, hout', Sink.taken_nil]
      · rw [hout, Sink.fits_nil, if_pos rfl, Sink.offer_nil]
        exact hstep'
    | executed hfetch hi he hfits hout =>
      rw [hout]
      exact step_of_text hm hfetch hi he sink'
  · rw [step_of_halted hm] at hstep
    cases hstep
    refine ⟨[], (Sink.taken_nil sink').symm, ?_⟩
    show m.step sink' = if sink'.fits [] then _ else _
    rw [Sink.fits_nil, if_pos rfl, step_of_halted hm]
    show (⟨.ok .halted, m, sink', []⟩ : Reply Outcome) = ⟨.ok .halted, m, sink'.offer [], []⟩
    rw [Sink.offer_nil]

/-- With an unlimited sink, only faults of the machine itself happen. -/
theorem Machine.due_of_unlimited {fault : Fault} (hm : m.status = .running)
    (h : (m.step .unlimited).result = .error fault) : m.Due fault := by
  have hcycled := cycled hm .unlimited
  generalize m.step .unlimited = reply at hcycled h
  cases hcycled with
  | faulted due =>
    cases h
    exact due
  | skipped | executed => cases h
  | refused hfetch hi he hfits =>
    rw [Sink.fits_unlimited] at hfits
    cases hfits

/-! ### Moves and their sink -/

/-- **Moves print their lines.** -/
theorem output_of_moves (h : Moves m sink moves m' sink') :
    (shownBy moves).output = lines moves ∧ sink' = sink.offer (lines moves) := by
  induction h with
  | nil m sink => exact ⟨rfl, (Sink.offer_nil sink).symm⟩
  | cons hstep _ ih =>
    obtain ⟨hout, rfl⟩ := Machine.output_of_step hstep
    obtain ⟨hrest, rfl⟩ := ih
    rw [shownBy_cons, Journal.output_append, lines_cons, ← hout, hrest]
    exact ⟨rfl, (Sink.offer_append _ _ _).symm⟩

/-- Moves are made with every sink that takes their lines, as far as a run goes. -/
theorem run_onto (h : Moves m sink moves m' sink')
    (hrunning : ∀ move ∈ moves, move.source.status = .running) (sink'' : Sink)
    (hfits : sink''.fits (lines moves) = true) :
    ∃ journal : Journal, journal.output = lines moves ∧
      m.run sink'' = (m'.run (sink''.offer (lines moves))).after journal := by
  induction h generalizing sink'' with
  | nil m sink =>
    refine ⟨[], rfl, ?_⟩
    show m.run sink'' = (m.run (sink''.offer [])).after []
    rw [Sink.offer_nil]
    rfl
  | @cons m _ outcome m₁ _ journal moves m' _ hstep _ ih =>
    obtain ⟨hm, hrest⟩ := List.forall_mem_cons.mp hrunning
    obtain ⟨hout, -⟩ := Machine.output_of_step hstep
    rw [lines_cons, ← hout, Sink.fits_append, Bool.and_eq_true] at hfits
    obtain ⟨journal₁, hout₁, hstep₁⟩ := Machine.step_onto hstep sink''
    rw [if_pos hfits.1] at hstep₁
    rw [Sink.taken_of_fits hfits.1] at hout₁
    obtain ⟨journal₂, hout₂, hrun₂⟩ := ih hrest _ hfits.2
    refine ⟨journal₁ ++ journal₂, ?_, ?_⟩
    · rw [Journal.output_append, hout₁, hout₂, lines_cons, ← hout]
    · rw [Machine.run_of_step_ok hm (congrArg Reply.result hstep₁), hstep₁]
      show (m₁.run _).after journal₁ = _
      rw [hrun₂, lines_cons, ← hout, Sink.offer_append, Reply.after, Reply.after, Reply.after,
        List.append_assoc]

/-! ### Runs and their sink -/

/-- Where the moves of a run end, the sink has no part in how it ends. -/
theorem Machine.Ended.with_sink {reply : Reply Unit} (h : m.Ended .unlimited journal reply)
    (sink : Sink) :
    reply.journal.output = journal.output ∧ reply.machine = m ∧
      (m.run sink).result = reply.result ∧ (m.run sink).machine = m ∧
      (m.run sink).journal.output = [] := by
  cases h with
  | halted hm =>
    rw [run_of_halted hm, Journal.output_append]
    exact ⟨List.append_nil _, rfl, rfl, rfl, rfl⟩
  | faulted hm hstep hfault =>
    -- such a fault does not come from the sink, so it comes with every sink
    subst hstep
    have hdue := due_of_unlimited hm hfault
    obtain ⟨journal₁, hout₁, hstep₁⟩ := step_of_due hm hdue .unlimited
    obtain ⟨journal₂, hout₂, hstep₂⟩ := step_of_due hm hdue sink
    rw [run_of_step_error hm (congrArg Reply.result hstep₂), hstep₁, hstep₂,
      Journal.output_append, hout₁]
    exact ⟨List.append_nil _, rfl, rfl, rfl, hout₂⟩

theorem Machine.Course.output (h : m.Course .unlimited moves m' .unlimited) :
    (m.run .unlimited).journal.output = lines moves := by
  rw [(h.ends.with_sink .unlimited).1]
  exact (output_of_moves h.leads).1

/-- A run into an unlimited sink has a course, and ends where it leads. -/
theorem Machine.exists_course_unlimited (m : Machine) :
    ∃ moves m', m.Course .unlimited moves m' .unlimited ∧ (m.run .unlimited).machine = m' := by
  obtain ⟨moves, m', sink', hcourse⟩ := m.exists_course .unlimited
  obtain rfl : sink' = .unlimited := (output_of_moves hcourse.leads).2
  exact ⟨moves, m', hcourse, (hcourse.ends.with_sink .unlimited).2.1⟩

/-- A sink that takes all lines of a run might as well be unlimited. -/
theorem Machine.Course.run_of_fits (h : m.Course .unlimited moves m' .unlimited)
    (hfits : sink.fits (lines moves) = true) :
    (m.run sink).result = (m.run .unlimited).result ∧
      (m.run sink).machine = (m.run .unlimited).machine ∧
      (m.run sink).journal.output = (m.run .unlimited).journal.output := by
  obtain ⟨journal, hout, hrun⟩ := run_onto h.leads h.running sink hfits
  obtain ⟨-, hmachine, hresult, hmachine', hout'⟩ := h.ends.with_sink (sink.offer (lines moves))
  rw [h.output, hmachine, ← hresult, hrun]
  refine ⟨rfl, hmachine', ?_⟩
  show (journal ++ _).output = lines moves
  rw [Journal.output_append, hout, hout', List.append_nil]

/-! ### Where a run is cut -/

/-- The line that holds character number `n`. -/
theorem exists_line {n : Nat} (hn : n < (lines moves).length) :
    ∃ k move, moves[k]? = some move ∧ (lines (moves.take k)).length ≤ n ∧
      n < (lines (moves.take k)).length + move.line.length := by
  -- on the moves: the character is in the first line, or so far into the others
  induction moves generalizing n with
  | nil => exact absurd hn (Nat.not_lt_zero n)
  | cons move moves ih =>
    rw [lines_cons, List.length_append] at hn
    by_cases hfirst : n < move.line.length
    · refine ⟨0, move, rfl, Nat.zero_le n, ?_⟩
      rw [List.take_zero, lines_nil, List.length_nil, Nat.zero_add]
      exact hfirst
    · have hrest : n - move.line.length < (lines moves).length := by omega
      obtain ⟨k, move', hk, hle, hlt⟩ := ih hrest
      refine ⟨k + 1, move', hk, ?_, ?_⟩
      · rw [List.take_succ_cons, lines_cons, List.length_append]
        omega
      · rw [List.take_succ_cons, lines_cons, List.length_append]
        omega

/-- The lines before a move, its own, and those behind it. -/
theorem lines_eq {k : Nat} {move : Move} (hk : moves[k]? = some move) :
    lines moves = lines (moves.take k) ++ (move.line ++ lines (moves.drop (k + 1))) := by
  obtain ⟨hlt, rfl⟩ := List.getElem?_eq_some_iff.mp hk
  rw [← lines_cons, ← lines_append, List.getElem_cons_drop, List.take_append_drop]

/-- A run whose first line does not fit. -/
theorem run_of_first_line {move : Move} {n : Nat} (hm : move.source.status = .running)
    (hstep : move.source.step sink = ⟨.ok move.outcome, move.target, sink₁, move.journal⟩)
    (refusal : Refusal) (hn : n < move.line.length) :
    ∃ journal : Journal, journal.output = move.line.take n ∧
      move.source.run ⟨some n, refusal⟩ =
        ⟨.error (.output refusal), move.source, Sink.offer ⟨some n, refusal⟩ move.line,
          journal⟩ := by
  have hout : move.journal.output = move.line := (Machine.output_of_step hstep).1
  obtain ⟨journal, hout', hstep'⟩ := Machine.step_onto hstep ⟨some n, refusal⟩
  have hfits : Sink.fits ⟨some n, refusal⟩ move.line = false :=
    decide_eq_false (Nat.not_le.mpr hn)
  rw [hout, hfits] at hstep'
  rw [hout] at hout'
  refine ⟨journal, hout', ?_⟩
  rw [Machine.run_of_step_error hm (congrArg Reply.result hstep'), hstep']
  rfl

/-- A run taken up before one of its moves, with an unlimited sink, prints what is left. -/
theorem Machine.Course.run_from {k : Nat} {move : Move}
    (h : m.Course .unlimited moves m' .unlimited) (hk : moves[k]? = some move) :
    (move.source.run .unlimited).result = (m.run .unlimited).result ∧
      (move.source.run .unlimited).machine = (m.run .unlimited).machine ∧
      (move.source.run .unlimited).journal.output =
        (lines moves).drop (lines (moves.take k)).length := by
  obtain ⟨sink₁, _, hbefore, hrunning, -, -⟩ := h.focus hk
  obtain ⟨hout, rfl⟩ := output_of_moves hbefore
  have hrun := hbefore.run_eq hrunning
  have hall := h.output
  rw [hrun] at hall ⊢
  refine ⟨rfl, rfl, ?_⟩
  rw [← hall]
  show _ = ((shownBy (moves.take k) ++ _).output).drop _
  rw [Journal.output_append, hout, List.drop_left]
  rfl

/-- A run faults at the first of its lines that does not fit. -/
theorem Machine.Course.run_cut {k n : Nat} {move : Move}
    (h : m.Course .unlimited moves m' .unlimited) (hk : moves[k]? = some move)
    (refusal : Refusal) (hle : (lines (moves.take k)).length ≤ n)
    (hlt : n < (lines (moves.take k)).length + move.line.length) :
    (m.run ⟨some n, refusal⟩).result = .error (.output refusal) ∧
      (m.run ⟨some n, refusal⟩).machine = move.source ∧
      (m.run ⟨some n, refusal⟩).journal.output = (lines moves).take n := by
  obtain ⟨_, _, hbefore, hrunning, hm, hstep⟩ := h.focus hk
  -- the lines before fit, and leave no room for this one
  obtain ⟨journal₁, hout₁, hrun₁⟩ :=
    run_onto hbefore hrunning ⟨some n, refusal⟩ (decide_eq_true hle)
  have hroom : n - (lines (moves.take k)).length < move.line.length := by omega
  obtain ⟨journal₂, hout₂, hrun₂⟩ := run_of_first_line hm hstep refusal hroom
  have hrun : m.run ⟨some n, refusal⟩ = _ := hrun₁.trans (congrArg (Reply.after journal₁) hrun₂)
  rw [hrun]
  refine ⟨rfl, rfl, ?_⟩
  show (journal₁ ++ journal₂).output = _
  rw [Journal.output_append, hout₁, hout₂, lines_eq hk, List.take_append,
    List.take_of_length_le hle, List.take_append_of_le_length (Nat.le_of_lt hroom)]

/-- **A limited sink cuts the run at one character and loses nothing.**  Let `lines moves` be what a
run writes into an unlimited sink: the lines of its prints, in order.  With room for all of it, a
run comes to the same.  With room for `n` characters and no more, it faults at the print whose line
holds character number `n`.  Exactly `n` characters were taken then, and the machine is as it was
before that print; from there an unlimited sink gets the line and all the others, and the machine
comes to the same end. -/
theorem run_cut_by_sink (m : Machine) (n : Nat) (refusal : Refusal) :
    ∃ moves m', m.Course .unlimited moves m' .unlimited ∧
      (m.run .unlimited).journal.output = lines moves ∧
      ((lines moves).length ≤ n →
        (m.run ⟨some n, refusal⟩).result = (m.run .unlimited).result ∧
          (m.run ⟨some n, refusal⟩).machine = (m.run .unlimited).machine ∧
          (m.run ⟨some n, refusal⟩).journal.output = lines moves) ∧
      (n < (lines moves).length →
        ∃ k move register, moves[k]? = some move ∧ move.instruction? = some (.prn register) ∧
          (lines (moves.take k)).length ≤ n ∧
          n < (lines (moves.take k)).length + move.line.length ∧
          (m.run ⟨some n, refusal⟩).result = .error (.output refusal) ∧
          (m.run ⟨some n, refusal⟩).machine = move.source ∧
          (m.run ⟨some n, refusal⟩).journal.output = (lines moves).take n ∧
          (move.source.run .unlimited).result = (m.run .unlimited).result ∧
          (move.source.run .unlimited).machine = (m.run .unlimited).machine ∧
          (move.source.run .unlimited).journal.output =
            (lines moves).drop (lines (moves.take k)).length) := by
  obtain ⟨moves, m', hcourse, -⟩ := m.exists_course_unlimited
  refine ⟨moves, m', hcourse, hcourse.output, ?_, ?_⟩
  · -- room for everything
    intro hn
    rw [← hcourse.output]
    exact hcourse.run_of_fits (decide_eq_true hn)
  · -- room for less
    intro hn
    obtain ⟨k, move, hk, hle, hlt⟩ := exists_line hn
    have hline : move.line ≠ [] := List.ne_nil_of_length_pos (by omega)
    obtain ⟨register, hprn⟩ := Move.exists_prn hline
    obtain ⟨hresult, hmachine, hout⟩ := hcourse.run_cut hk refusal hle hlt
    exact ⟨k, move, register, hk, hprn, hle, hlt, hresult, hmachine, hout, hcourse.run_from hk⟩

/-- Print a ten, and then the stack pointer. -/
def counting : Machine := .boot (Memory.zero.placeBlock 0 #[0x82, 0, 10, 0x47, 0, 0x47, 7, 1])

/-- The first line fits exactly, and nothing of the second is taken. -/
theorem run_cut_by_sink_between_lines :
    (counting.run .unlimited).journal.output = "10\n244\n".toList ∧
      (counting.run ⟨some 3, .silent⟩).result = .error (.output .silent) ∧
      (counting.run ⟨some 3, .silent⟩).journal.output = "10\n".toList ∧
      ∃ (move : Move) (register : Byte), move.instruction? = some (.prn register) ∧
        (counting.run ⟨some 3, .silent⟩).machine = move.source ∧
        (move.source.run .unlimited).result = (counting.run .unlimited).result := by
  have hgoal : (counting.follow .unlimited 4).map (fun goal =>
      (goal.1.all (·.source.status = .running), goal.2.1.status, (shownBy goal.1).output)) =
      some (true, .halted, "10\n244\n".toList) := by
    decide +kernel
  obtain ⟨⟨moves, m', sink'⟩, hfollow, hgoal⟩ := Option.map_eq_some_iff.mp hgoal
  obtain ⟨hrunning, hm', hshown⟩ :
      moves.all _ = true ∧ m'.status = _ ∧ (shownBy moves).output = _ := by
    simpa only [Prod.mk.injEq] using hgoal
  have hall : (counting.run .unlimited).journal.output = "10\n244\n".toList := by
    rw [(Machine.course_of_follow hfollow hrunning hm').run_of_halted hm', Journal.output_append,
      hshown]
    rfl
  obtain ⟨moves, m', -, hlines, -, hcut⟩ := run_cut_by_sink counting 3 .silent
  rw [hall] at hlines
  rw [← hlines] at hcut
  obtain ⟨k, move, register, -, hprn, -, -, hresult, hmachine, hout, hagain, -⟩ := hcut (by decide)
  exact ⟨hall, hresult, hout, move, register, hprn, hmachine, hagain⟩

end LS8
