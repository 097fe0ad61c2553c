/-
LS8/Proofs/Stack.lean

The stack is last in, first out, whatever code runs.

The stack lies in the same memory as the program, its pointer can be read and
pushed, and a program may take more off it than it has put there.  But only a
push writes to memory, and always right below the pointer.  So the cells at or
above an address keep their bytes as long as the pointer does not rise above
the address (`cell?_of_below`).

The pointer is the height of the brackets that pushes and pops are
(`top_of_moves`), which turns every question about a byte of the stack into one
about heights.
-/
import LS8.Proofs.Brackets
import LS8.Proofs.Moves

namespace LS8

/-! ### Pushes and pops -/

/-- The address of the top of the stack. -/
def Machine.top (m : Machine) : Nat := m.registers.sp.toNat

/-- A push opens a bracket, and a pop closes one. -/
def Move.bracket (move : Move) : Bracket :=
  match move.instruction? with
  | some (.push _) => .opening
  | some (.pop _) => .closing
  | _ => .neither

/-- The pushes and pops among moves. -/
def brackets (moves : List Move) : List Bracket := moves.map Move.bracket

@[simp] theorem brackets_nil : brackets [] = [] := rfl

@[simp] theorem brackets_cons (move : Move) (moves : List Move) :
    brackets (move :: moves) = move.bracket :: brackets moves := rfl

theorem brackets_take (moves : List Move) (k : Nat) :
    brackets (moves.take k) = (brackets moves).take k := List.map_take

/-- The move is a push, and it stores `value` in the cell at `address`. -/
def Move.Stores (move : Move) (address : Nat) (value : Byte) : Prop :=
  ∃ register, move.instruction? = some (.push register) ∧
    move.source.registers.pushed register = .ok value ∧ move.target.top = address ∧
    move.target.memory.cell? address = some value

theorem Move.Stores.cell?_eq {move : Move} {address : Nat} {value : Byte}
    (h : move.Stores address value) : move.target.memory.cell? address = some value := by
  obtain ⟨-, -, -, -, hcell⟩ := h
  exact hcell

/-- The move is a pop, and it loads `value` into its register. -/
def Move.Loads (move : Move) (value : Byte) : Prop :=
  ∃ register, move.instruction? = some (.pop register) ∧
    move.target.registers.get register = .ok value

/-- What a move does to the stack. -/
inductive Move.Works (move : Move) : Prop
  /-- A push moves the stack down and writes its new top. -/
  | push {value : Byte} (hb : move.bracket = .opening)
      (hstores : move.Stores move.target.top value)
      (htop : move.target.top + 1 = move.source.top)
      (hcells : ∀ a, a ≠ move.target.top →
        move.target.memory.cell? a = move.source.memory.cell? a)
  /-- A pop reads the top and moves the stack up. -/
  | pop {value : Byte} (hb : move.bracket = .closing) (hloads : move.Loads value)
      (hread : move.source.memory.cell? move.source.top = some value)
      (htop : move.target.top = move.source.top + 1)
      (hmemory : move.target.memory = move.source.memory)
  /-- Anything else leaves the stack alone. -/
  | other (hb : move.bracket = .neither) (htop : move.target.top = move.source.top)
      (hmemory : move.target.memory = move.source.memory)

/-- An instruction that has an effect works on the stack. -/
theorem Move.works_of_effect {move : Move} {i : Instruction} {e : Effect}
    (hi : move.instruction? = some i)
    (he : i.effect move.source.registers move.source.memory = .ok e)
    (hregisters : move.target.registers = e.registers) (hmemory : move.target.memory = e.memory) :
    move.Works := by
  have htarget : move.target.top = e.registers.sp.toNat := by
    rw [Machine.top, hregisters]
  cases i with
  | push register =>
    obtain ⟨value, hvalue, hcells⟩ := cell?_of_push he
    rw [← hmemory, ← htarget] at hcells
    refine .push ?_ ⟨register, hi, hvalue, rfl, ?_⟩ ?_ ?_
    · rw [bracket, hi]
    · rw [hcells, if_pos rfl]
    · rw [htarget]
      exact toNat_sp_of_push he
    · intro a ha
      rw [hcells, if_neg ha]
  | pop register =>
    obtain ⟨value, hread, hget⟩ := get_of_pop he
    rw [← hregisters] at hget
    refine .pop ?_ ⟨register, hi, hget⟩ hread ?_ ?_
    · rw [bracket, hi]
    · rw [htarget]
      exact toNat_sp_of_pop he
    · rw [hmemory]
      exact memory_of_effect he (by simp)
  | ldi | prn | hlt | arith =>
    refine .other ?_ ?_ ?_
    · rw [bracket, hi]
    · rw [htarget, sp_of_effect he (by simp) (by simp)]
      rfl
    · rw [hmemory]
      exact memory_of_effect he (by simp)

/-- **Every successful cycle works on the stack as its bracket says.** -/
theorem Machine.works_of_step {m m₁ : Machine} {sink sink₁ : Sink} {outcome : Outcome}
    {journal : Journal} (hstep : m.step sink = ⟨.ok outcome, m₁, sink₁, journal⟩) :
    Move.Works ⟨m, outcome, journal, m₁⟩ := by
  rcases hm : m.status with - | -
  · have hcycled := cycled hm sink
    rw [hstep] at hcycled
    cases hcycled with
    | skipped hfetch hi hout =>
      -- a byte that is no opcode moves nothing but the program counter
      refine .other ?_ rfl rfl
      rw [Move.bracket, Move.instruction?_of_fetch hm hfetch, hi]
    | executed hfetch hi he hfits hout =>
      refine Move.works_of_effect ?_ he rfl rfl
      rw [Move.instruction?_of_fetch hm hfetch, hi]
  · -- a machine that has stopped executes nothing
    rw [step_of_halted hm] at hstep
    cases hstep
    refine .other ?_ rfl rfl
    rw [Move.bracket, Move.instruction?, hm]

/-! ### The pointer and the cells -/

variable {m m' : Machine} {sink sink' : Sink} {moves : List Move} {i j k a : Nat}

theorem Moves.works (h : Moves m sink moves m' sink') : ∀ move ∈ moves, move.Works := by
  intro move hmove
  obtain ⟨sink₁, sink₂, hstep⟩ := h.step_of_mem hmove
  exact Machine.works_of_step hstep

theorem Move.top_of_works {move : Move} (h : move.Works) :
    (move.target.top : Int) = move.source.top - height [move.bracket] := by
  cases h with
  | push hb _ htop =>
    rw [hb, height_opening]
    omega
  | pop hb _ _ htop =>
    rw [hb, height_closing]
    omega
  | other hb htop =>
    rw [hb, height_neither]
    omega

/-- The top of the stack is as far down as brackets are open. -/
theorem top_of_moves (h : Moves m sink moves m' sink') :
    (m'.top : Int) = m.top - height (brackets moves) := by
  induction h with
  | nil => simp
  | cons hstep _ ih =>
    have hfirst := Move.top_of_works (Machine.works_of_step hstep)
    rw [brackets_cons, height_cons, ih]
    dsimp only at hfirst
    omega

/-- Where the stack is before a move. -/
theorem top_source {move : Move} (h : Moves m sink moves m' sink') (hk : moves[k]? = some move) :
    (move.source.top : Int) = m.top - height ((brackets moves).take k) := by
  obtain ⟨_, _, hbefore, _⟩ := h.focus hk
  rw [← brackets_take]
  exact top_of_moves hbefore

/-- Where the stack is after a move. -/
theorem top_target {move : Move} (h : Moves m sink moves m' sink') (hk : moves[k]? = some move) :
    (move.target.top : Int) = m.top - height ((brackets moves).take (k + 1)) := by
  obtain ⟨_, hupto⟩ := h.upto hk
  rw [← brackets_take]
  exact top_of_moves hupto

/-- A cell that no push stores to keeps its byte. -/
theorem cell?_of_unstored (h : Moves m sink moves m' sink')
    (hunstored : ∀ move ∈ moves, ∀ value, ¬move.Stores a value) :
    m'.memory.cell? a = m.memory.cell? a := by
  induction h with
  | nil => rfl
  | cons hstep _ ih =>
    rw [ih fun move hmove => hunstored move (List.mem_cons_of_mem _ hmove)]
    have hfirst := hunstored _ List.mem_cons_self
    cases Machine.works_of_step hstep with
    | @push value _ hstores _ hcells =>
      refine hcells a ?_
      rintro rfl
      exact hfirst value hstores
    | pop _ _ _ _ hmemory | other _ _ hmemory => exact congrArg (·.cell? a) hmemory

/-- A push stores right below the top of the stack. -/
theorem Move.lt_top_of_stores {move : Move} {value : Byte} (h : move.Works)
    (hstores : move.Stores a value) : a < move.source.top := by
  obtain ⟨register, hi, -, rfl, -⟩ := hstores
  have hb : move.bracket = .opening := by
    rw [bracket, hi]
  cases h with
  | push _ _ htop => omega
  | pop hb' | other hb' => cases hb.symm.trans hb'

/-- **What the stack does not rise above is kept.** -/
theorem cell?_of_below (h : Moves m sink moves m' sink')
    (hbelow : ∀ move ∈ moves, move.source.top ≤ a) : m'.memory.cell? a = m.memory.cell? a := by
  refine cell?_of_unstored h ?_
  intro move hmove value hstores
  have hlt := Move.lt_top_of_stores (h.works move hmove) hstores
  exact absurd (hbelow move hmove) (not_le.mpr hlt)

/-- Before any of the moves the stack is not above an address, if it starts and stays below it. -/
theorem source_top_le (h : Moves m sink moves m' sink') (hstart : m.top ≤ a)
    (hstay : ∀ move ∈ moves, move.target.top ≤ a) : ∀ move ∈ moves, move.source.top ≤ a := by
  induction h with
  | nil =>
    intro move hmove
    cases hmove
  | cons hstep _ ih =>
    intro move hmove
    rcases List.mem_cons.mp hmove with rfl | hmove
    · exact hstart
    · refine ih (hstay _ List.mem_cons_self) ?_ move hmove
      intro move hmove
      exact hstay move (List.mem_cons_of_mem _ hmove)

/-! ### The bytes that come back -/

/-- The bracket of a move that exists. -/
theorem exists_move {b : Bracket} (hb : (brackets moves)[k]? = some b) :
    ∃ move, moves[k]? = some move ∧ move.bracket = b := by
  rw [brackets, List.getElem?_map] at hb
  exact Option.map_eq_some_iff.mp hb

theorem Move.stores_of_works {move : Move} (h : move.Works) (hb : move.bracket = .opening) :
    ∃ value, move.Stores move.target.top value := by
  cases h with
  | push _ hstores => exact ⟨_, hstores⟩
  | pop hb' | other hb' => cases hb.symm.trans hb'

theorem Move.loads_of_works {move : Move} (h : move.Works) (hb : move.bracket = .closing) :
    ∃ value, move.Loads value ∧ move.source.memory.cell? move.source.top = some value := by
  cases h with
  | pop _ hloads hread => exact ⟨_, hloads, hread⟩
  | push hb' | other hb' => cases hb.symm.trans hb'

/-- **A pop loads what the push of its pair stored.** -/
theorem loads_of_pairs (h : Moves m sink moves m' sink') (hpairs : Pairs (brackets moves) i j) :
    ∃ push pop value, moves[i]? = some push ∧ moves[j]? = some pop ∧
      push.Stores push.target.top value ∧ pop.Loads value := by
  obtain ⟨push, hi, hopening⟩ := exists_move hpairs.opening
  obtain ⟨pop, hj, hclosing⟩ := exists_move hpairs.closing
  obtain ⟨value, hstores⟩ :=
    Move.stores_of_works (h.works push (List.mem_of_getElem? hi)) hopening
  obtain ⟨value', hloads, hread⟩ :=
    Move.loads_of_works (h.works pop (List.mem_of_getElem? hj)) hclosing
  obtain ⟨_, _, hbetween⟩ := h.between hi hj hpairs.lt
  have hpush := top_target h hi
  have hpop := top_source h hj
  -- the pop reads where the push has written
  have htop : pop.source.top = push.target.top := by
    have heq := hpairs.height_eq
    omega
  -- and nothing between them writes there
  have hkept : pop.source.memory.cell? push.target.top =
      push.target.memory.cell? push.target.top := by
    refine cell?_of_below hbetween ?_
    intro move hmove
    obtain ⟨n, hn⟩ := List.getElem?_of_mem hmove
    rw [List.getElem?_drop, List.getElem?_take, Option.ite_none_right_eq_some] at hn
    obtain ⟨hlt, hn⟩ := hn
    have hsource := top_source h hn
    have hle := hpairs.le_height (Nat.le_add_right (i + 1) n) hlt.le
    omega
  rw [htop, hkept, hstores.cell?_eq] at hread
  obtain rfl := Option.some.inj hread
  exact ⟨push, pop, value, hi, hj, hstores, hloads⟩

/-- **A pop without a push loads what was there at the start.** -/
theorem loads_of_unpaired (h : Moves m sink moves m' sink')
    (hunpaired : Unpaired (brackets moves) j) :
    ∃ pop value, moves[j]? = some pop ∧ pop.Loads value ∧
      m.memory.cell? (m.top + Nat.count (Unpaired (brackets moves)) j) = some value := by
  obtain ⟨pop, hj, hclosing⟩ := exists_move hunpaired.1
  obtain ⟨value, hloads, hread⟩ :=
    Move.loads_of_works (h.works pop (List.mem_of_getElem? hj)) hclosing
  obtain ⟨_, _, hbefore, _⟩ := h.focus hj
  have hpop := top_source h hj
  have htop : pop.source.top = m.top + Nat.count (Unpaired (brackets moves)) j := by
    have heq := hunpaired.height_eq
    omega
  -- the stack was never above this, so no push has written here
  have hkept : pop.source.memory.cell? pop.source.top = m.memory.cell? pop.source.top := by
    refine cell?_of_below hbefore ?_
    intro move hmove
    obtain ⟨n, hn⟩ := List.getElem?_of_mem hmove
    rw [List.getElem?_take, Option.ite_none_right_eq_some] at hn
    obtain ⟨hlt, hn⟩ := hn
    have hsource := top_source h hn
    have hle := hunpaired.height_le hlt.le
    omega
  refine ⟨pop, value, hj, hloads, ?_⟩
  rw [← htop, ← hkept]
  exact hread

/-! ### The stack -/

/-- **The stack is last in, first out.**  Over any successful cycles in a row, the stack pointer is
its start less the pushes plus the pops, without wrapping around; a pop loads the byte that its
push, of which there is only one, stored, and the pop with number `k` among those without a push
loads the byte that was `k` cells above the top at the start; a cell that has changed was written by
a push, and none above the top at the start has changed if the stack pointer never rose above it. -/
theorem stack_lifo (h : Moves m sink moves m' sink') :
    (∀ k move, moves[k]? = some move →
      (move.target.top : Int) = m.top - ((brackets moves).take (k + 1)).count .opening +
          ((brackets moves).take (k + 1)).count .closing ∧
        move.target.top ≤ 255) ∧
    (∀ i j, Pairs (brackets moves) i j →
      (∀ i', Pairs (brackets moves) i' j → i' = i) ∧
        ∃ push pop value, moves[i]? = some push ∧ moves[j]? = some pop ∧
          push.Stores push.target.top value ∧ pop.Loads value) ∧
    (∀ j k, Unpaired (brackets moves) j → Nat.count (Unpaired (brackets moves)) j = k →
      ∃ pop value, moves[j]? = some pop ∧ pop.Loads value ∧
        m.memory.cell? (m.top + k) = some value) ∧
    (∀ a, m'.memory.cell? a ≠ m.memory.cell? a → ∃ move ∈ moves, ∃ value, move.Stores a value) ∧
    ((∀ move ∈ moves, move.target.top ≤ m.top) →
      ∀ a, m.top ≤ a → m'.memory.cell? a = m.memory.cell? a) := by
  refine ⟨?_, ?_, ?_, ?_, ?_⟩
  · -- the pointer
    intro k move hk
    have htop := top_target h hk
    have hbound := move.target.registers.sp.toNat_lt
    rw [height] at htop
    rw [Machine.top] at htop ⊢
    omega
  · -- pops with a push
    intro i j hpairs
    exact ⟨fun i' hpairs' => hpairs'.unique hpairs, loads_of_pairs h hpairs⟩
  · -- pops without one
    rintro j k hunpaired rfl
    exact loads_of_unpaired h hunpaired
  · -- cells that have changed
    intro a hchanged
    by_contra hnone
    refine hchanged (cell?_of_unstored h ?_)
    intro move hmove value hstores
    exact hnone ⟨move, hmove, value, hstores⟩
  · -- cells above the stack
    intro hstay a ha
    refine cell?_of_below h (source_top_le h ha ?_)
    intro move hmove
    exact (hstay move hmove).trans ha

/-- Two pushes and three pops, the last of them of a nine that was there before. -/
def juggling : Machine :=
  .boot ((Memory.zero.placeBlock 0 #[0x82, 0, 1, 0x82, 1, 2, 0x45, 0, 0x45, 1, 0x46, 2, 0x46, 3,
    0x46, 4]).place 0xF4 9)

/-- The outer push comes back with the second pop, and the nine with the third. -/
theorem stack_lifo_juggling :
    ∃ moves m' sink', Moves juggling .unlimited moves m' sink' ∧
      (∃ push pop value, moves[2]? = some push ∧ moves[5]? = some pop ∧
        push.Stores push.target.top value ∧ pop.Loads value) ∧
      ∃ pop, moves[6]? = some pop ∧ pop.Loads 9 := by
  have hbrackets : (juggling.follow .unlimited 7).map (fun goal => brackets goal.1) =
      some [.neither, .neither, .opening, .opening, .closing, .closing, .closing] := by
    decide +kernel
  obtain ⟨⟨moves, m', sink'⟩, hfollow, hbrackets⟩ := Option.map_eq_some_iff.mp hbrackets
  dsimp only at hbrackets
  have hmoves := Moves.of_follow hfollow
  obtain ⟨-, hpairs, hunpaired, -, -⟩ := stack_lifo hmoves
  rw [hbrackets] at hpairs hunpaired
  refine ⟨moves, m', sink', hmoves, (hpairs 2 5 (by decide)).2, ?_⟩
  obtain ⟨pop, value, hpop, hloads, hcell⟩ := hunpaired 6 0 (by decide) (by decide)
  have hnine : juggling.memory.cell? 0xF4 = some 9 := by
    rw [juggling, Machine.boot, Memory.cell?_place]
    rfl
  obtain rfl := Option.some.inj (hnine.symm.trans hcell)
  exact ⟨pop, hpop, hloads⟩

end LS8
