/-
LS8/Proofs/Sums.lean

No sum of the machine is too large for its word.

A cycle adds to the program counter to find its operands, and again to move on.
Addition of addresses is only defined where the sum fits into 16 bits: one
program wraps around beyond that, and another one gives up.  So the cycle is
written here with its addition as a parameter,

    Machine.stepBy : Adder → Machine → Sink → Option (Reply Outcome)

where an `Adder` may answer what it likes, or not at all.  The machine adds to
nothing but a program counter in memory, and nothing larger than a width, so
every adder that is right about these few sums gives the cycle of the machine
(`stepBy_eq`).  Past the end of memory it adds nothing: there the cycle faults
with every adder (`stepBy_of_le`).

The order of a fetch matters for this.  If the operands were looked for before
the opcode byte was read, no adder would be right at the last address of all.
-/
import LS8.Proofs.Progress
import LS8.Proofs.Snapshot

namespace LS8

/-! ### Adders -/

/-- A way to add two addresses, which need not have an answer. -/
abbrev Adder := Address → Address → Option Address

namespace Adder

/-- Give up if the sum does not fit. -/
def checked : Adder := fun x y => if x.toNat + y.toNat < UInt16.size then some (x + y) else none

/-- Wrap around if the sum does not fit. -/
def wrapping : Adder := fun x y => some (x + y)

/-- Wrap around, but give up on the sum of `x` and `y`. -/
def without (x y : Address) : Adder := fun x' y' =>
  if x' = x ∧ y' = y then none else some (x' + y')

/-- The adder is right about the sums of an address in memory and a width. -/
def Serves (add : Adder) : Prop :=
  ∀ x y : Address, x.toNat ≤ 255 → y.toNat ≤ 4 →
    ∃ z, add x y = some z ∧ z.toNat = x.toNat + y.toNat

theorem serves_checked : checked.Serves := by
  intro x y hx hy
  have hfits : x.toNat + y.toNat < UInt16.size := by
    rw [UInt16.size]
    omega
  exact ⟨x + y, if_pos hfits, Address.toNat_add_of_lt (Nat.lt_succ_of_le hx) hy⟩

theorem serves_wrapping : wrapping.Serves := by
  intro x y hx hy
  exact ⟨x + y, rfl, Address.toNat_add_of_lt (Nat.lt_succ_of_le hx) hy⟩

/-- The adder is right about the sums that a cycle of `m` may need. -/
def ServesAt (add : Adder) (m : Machine) : Prop :=
  m.pc.toNat ≤ 255 → ∀ y : Address, y.toNat ≤ 4 → add m.pc y = some (m.pc + y)

theorem Serves.at {add : Adder} (h : add.Serves) (m : Machine) : add.ServesAt m := by
  intro hpc y hy
  obtain ⟨z, hz, hsum⟩ := h m.pc y hpc hy
  have hexact := Address.toNat_add_of_lt (Nat.lt_succ_of_le hpc) hy
  rw [hz, UInt16.toNat_inj.mp (hsum.trans hexact.symm)]

end Adder

/-! ### Cycles with an adder -/

namespace Machine

/-- Read an operand as `operand` does, but add with `add`. -/
def operandBy (add : Adder) (m : Machine) (width : Byte) (offset : Address) :
    ExceptT Fault Option Byte := do
  let position ← add m.pc offset
  if offset < width.toUInt16 then m.memory.read position
  else return (m.memory.get? position).getD 0

/-- Fetch as `fetch` does, but add with `add`. -/
def fetchBy (add : Adder) (m : Machine) : ExceptT Fault Option Fetched := do
  let code ← m.memory.read m.pc
  let width := if (Opcode.ofByte? code).isSome then widthOf code else 1
  let a ← m.operandBy add width 1
  let b ← m.operandBy add width 2
  return ⟨code, a, b⟩

/-- A cycle as `step` makes it, but with the additions of `add`.  There is no reply if `add` gives
up. -/
def stepBy (add : Adder) (m : Machine) (sink : Sink) : Option (Reply Outcome) :=
  match m.status with
  | .halted => some ⟨.ok .halted, m, sink, []⟩
  | .running => do
    match ← (m.fetchBy add).run with
    | .error fault => return .ofResult (.error fault ⟨m, sink, m.announcement⟩)
    | .ok fetched =>
      match Cycle.perform fetched ⟨m, sink, m.announcement⟩ with
      | .error fault s => return .ofResult (.error fault s)
      | .ok outcome s =>
        let pc ← add m.pc fetched.width.toUInt16
        return .ofResult (.ok outcome { s with machine := { s.machine with pc } })

/-- A cycle adds `x` and `y` if it cannot do without their sum. -/
def Adds (m : Machine) (sink : Sink) (x y : Address) : Prop :=
  m.stepBy (.without x y) sink = none

/-- The byte `offset` cells behind the program counter, zero if there is none or no such address. -/
def peek (m : Machine) (offset : Address) : Byte :=
  ((Adder.checked m.pc offset).bind m.memory.get?).getD 0

end Machine

/-! ### Computations with an answer -/

/-- The computation comes to an end, and to this one. -/
def Yields {α : Type} (x : ExceptT Fault Option α) (answer : Except Fault α) : Prop :=
  x.run = some answer

theorem Yields.lift {α : Type} (answer : Except Fault α) : Yields (liftM answer) answer := rfl

theorem Yields.pure {α : Type} (a : α) : Yields (Pure.pure a) (Pure.pure a) := rfl

theorem Yields.bind {α β : Type} {x : ExceptT Fault Option α} {answer : Except Fault α}
    {f : α → ExceptT Fault Option β} {g : α → Except Fault β} (hx : Yields x answer)
    (hf : ∀ a, answer = .ok a → Yields (f a) (g a)) : Yields (x >>= f) (answer >>= g) := by
  unfold Yields at hx ⊢
  rw [ExceptT.run_bind, hx]
  rcases answer with fault | a
  · rfl
  · exact hf a rfl

/-! ### One cycle -/

variable {add : Adder} {m : Machine} {sink : Sink} {x y : Address}

namespace Machine

theorem operandBy_yields {width : Byte} {offset : Address}
    (h : add m.pc offset = some (m.pc + offset)) :
    Yields (m.operandBy add width offset) (m.operand width offset) := by
  simp only [Yields, operandBy, h, operand]
  split
  · rfl
  · rfl

/-- A fetch needs no sum before it has read a byte in memory. -/
theorem fetchBy_yields (h : add.ServesAt m) : Yields (m.fetchBy add) m.fetch := by
  refine (Yields.lift _).bind fun code hread => ?_
  have hpc : m.pc.toNat ≤ 255 :=
    Nat.le_of_lt_succ (Memory.lt_of_cell? (Memory.read_eq_ok_iff.mp hread))
  refine (operandBy_yields (h hpc 1 (by decide))).bind fun a _ => ?_
  exact (operandBy_yields (h hpc 2 (by decide))).bind fun b _ => .pure _

/-- **Every adder that serves a machine gives its cycle.** -/
theorem stepBy_eq (h : add.ServesAt m) (sink : Sink) :
    m.stepBy add sink = some (m.step sink) := by
  rcases hm : m.status with - | -
  · have hfetchBy : (m.fetchBy add).run = some m.fetch := fetchBy_yields h
    rw [stepBy, hm, step_of_running hm, Cycle.advance_run]
    dsimp only
    rw [hfetchBy]
    rcases hfetch : m.fetch with fault | fetched
    · rfl
    · -- the last sum, if the instruction leaves one to be made
      have hpc := Nat.le_of_lt_succ (pc_lt_of_fetch hfetch)
      simp only [h hpc _ fetched.toNat_width_le, Option.bind_eq_bind, Option.bind_some]
      rcases Cycle.perform fetched ⟨m, sink, m.announcement⟩ with ⟨outcome, s⟩ | ⟨fault, s⟩
      · rfl
      · rfl
  · rw [stepBy, hm, step_of_halted hm]

/-- **Past the end of memory nothing is added**: any adder will do. -/
theorem stepBy_of_le (hm : m.status = .running) (hpc : 256 ≤ m.pc.toNat) (add : Adder)
    (sink : Sink) :
    m.stepBy add sink =
      some ⟨.error (.addressOutOfRange m.pc), m, sink, m.announcement⟩ := by
  have hread : m.memory.read m.pc = .error (.addressOutOfRange m.pc) := Memory.read_of_le hpc
  have hfetch : (m.fetchBy add).run = some (.error (.addressOutOfRange m.pc)) := by
    rw [fetchBy, hread]
    rfl
  rw [stepBy, hm]
  dsimp only
  rw [hfetch]
  rfl

/-- In memory the place of the first operand is always added up. -/
theorem adds_one (hm : m.status = .running) (hpc : m.pc.toNat ≤ 255) (sink : Sink) :
    m.Adds sink m.pc 1 := by
  obtain ⟨code, hcode⟩ := m.memory.exists_cell (Nat.lt_succ_of_le hpc)
  have hrefused : Adder.without m.pc 1 m.pc 1 = none := if_pos ⟨rfl, rfl⟩
  have hfetch : (m.fetchBy (.without m.pc 1)).run = none := by
    rw [fetchBy, Memory.read_eq_ok_iff.mpr hcode]
    show ((m.operandBy (.without m.pc 1) _ 1).run.bind _ : Option _) = none
    simp only [operandBy, hrefused]
    rfl
  rw [Adds, stepBy, hm]
  dsimp only
  rw [hfetch]
  rfl

/-- What is added is a program counter in memory, and at most the width of an instruction. -/
theorem of_adds (h : m.Adds sink x y) : x = m.pc ∧ x.toNat ≤ 255 ∧ y.toNat ≤ 4 := by
  by_contra hother
  -- any other sum can be refused
  have hserves : (Adder.without x y).ServesAt m := by
    intro hpc y' hy'
    refine if_neg ?_
    rintro ⟨rfl, rfl⟩
    exact hother ⟨rfl, hpc, hy'⟩
  rw [Adds, stepBy_eq hserves] at h
  cases h

/-- The machine adds something just if it is running in memory. -/
theorem adds_iff : (∃ x y, m.Adds sink x y) ↔ m.status = .running ∧ m.pc.toNat ≤ 255 := by
  constructor
  · rintro ⟨x, y, h⟩
    obtain ⟨rfl, hpc, -⟩ := of_adds h
    refine ⟨?_, hpc⟩
    rcases hm : m.status with - | -
    · rfl
    · rw [Adds, stepBy, hm] at h
      cases h
  · rintro ⟨hm, hpc⟩
    exact ⟨m.pc, 1, adds_one hm hpc sink⟩

/-- What a snapshot shows is peeked at with sums that are checked. -/
theorem peek_eq_byte (m : Machine) (offset : Address) : m.peek offset = m.byte offset.toNat := by
  rw [peek, Adder.checked]
  by_cases hfits : m.pc.toNat + offset.toNat < UInt16.size
  · have hsum : (m.pc + offset).toNat = m.pc.toNat + offset.toNat := by
      rw [UInt16.toNat_add, Nat.mod_eq_of_lt hfits]
    rw [if_pos hfits, byte, ← hsum]
    rfl
  · have hpast : ramSize ≤ m.pc.toNat + offset.toNat :=
      Nat.le_trans (by decide) (Nat.le_of_not_lt hfits)
    rw [if_neg hfits, byte_of_le hpast]
    rfl

end Machine

/-! ### The stack pointer -/

/-- How far a result says that the stack pointer has moved. -/
def stackShift : Except Fault Outcome → Int
  | .ok (.executed .push) => -1
  | .ok (.executed .pop) => 1
  | _ => 0

/-- The stack pointer moves as it would if it were an integer. -/
theorem Machine.sp_of_step (m : Machine) (sink : Sink) :
    ((m.step sink).machine.registers.sp.toNat : Int) =
      m.registers.sp.toNat + stackShift (m.step sink).result := by
  rcases hm : m.status with - | -
  · have hcycled := cycled hm sink
    generalize m.step sink = reply at hcycled ⊢
    cases hcycled with
    | faulted | skipped | refused => exact (Int.add_zero _).symm
    | @executed fetched i e _ hfetch hi he =>
      show (e.registers.sp.toNat : Int) = m.registers.sp.toNat + stackShift (.ok i.outcome)
      cases i with
      | push register =>
        have hsp := toNat_sp_of_push he
        show (e.registers.sp.toNat : Int) = m.registers.sp.toNat + -1
        omega
      | pop register =>
        have hsp := toNat_sp_of_pop he
        show (e.registers.sp.toNat : Int) = m.registers.sp.toNat + 1
        omega
      | ldi | prn | hlt | arith =>
        rw [sp_of_effect he (by simp) (by simp)]
        exact (Int.add_zero _).symm
  · rw [step_of_halted hm]
    exact (Int.add_zero _).symm

/-! ### Many cycles -/

/-- The machine after cycles one after the other, each with a sink of its own. -/
def Machine.afterCycles (m : Machine) (sinks : List Sink) : Machine :=
  sinks.foldl (fun m sink => (m.step sink).machine) m

/-- The machine after cycles with the additions of `add`, if that does not give up. -/
def Machine.afterCyclesBy (add : Adder) (m : Machine) (sinks : List Sink) : Option Machine :=
  sinks.foldlM (fun m sink => (m.stepBy add sink).map (·.machine)) m

theorem Machine.afterCyclesBy_eq (h : add.Serves) (m : Machine) (sinks : List Sink) :
    m.afterCyclesBy add sinks = some (m.afterCycles sinks) := by
  induction sinks generalizing m with
  | nil => rfl
  | cons sink sinks ih =>
    rw [afterCyclesBy, List.foldlM_cons, stepBy_eq (h.at m)]
    exact ih (m.step sink).machine

/-- All that a cycle adds or subtracts is in the range of its word. -/
structure Machine.InRange (m : Machine) (sink : Sink) : Prop where
  /-- It makes no difference what an adder does with sums that are too large. -/
  same : ∀ add : Adder, add.Serves → m.stepBy add sink = some (m.step sink)
  /-- Every sum starts in memory, and is the sum of the integers. -/
  sums : ∀ x y, m.Adds sink x y → x = m.pc ∧ x.toNat ≤ 255 ∧ y.toNat ≤ 4 ∧
    (x + y).toNat = x.toNat + y.toNat
  /-- Sums are only made in memory. -/
  inside : (∃ x y, m.Adds sink x y) ↔ m.status = .running ∧ m.pc.toNat ≤ 255
  /-- Past the end of memory the cycle faults without one. -/
  past : m.status = .running → 256 ≤ m.pc.toNat →
    m.step sink = ⟨.error (.addressOutOfRange m.pc), m, sink, m.announcement⟩ ∧
      ∀ add, m.stepBy add sink = some (m.step sink)
  /-- A successful cycle goes past the byte it has read, and no further than 259. -/
  pc : ∀ outcome, m.status = .running → (m.step sink).result = .ok outcome →
    ∃ code, m.memory.cell? m.pc.toNat = some code ∧
      (m.step sink).machine.pc.toNat = m.pc.toNat + (widthOf code).toNat ∧
      (m.step sink).machine.pc.toNat ≤ 259
  /-- The stack pointer moves as an integer does, and stays a byte. -/
  sp : ((m.step sink).machine.registers.sp.toNat : Int) =
      m.registers.sp.toNat + stackShift (m.step sink).result ∧
    0 ≤ m.registers.sp.toNat + stackShift (m.step sink).result ∧
    m.registers.sp.toNat + stackShift (m.step sink).result ≤ 255
  /-- A snapshot can be taken wherever the program counter is. -/
  shown : m.snapshot = ⟨m.pc, ⟨m.peek 0, m.peek 1, m.peek 2⟩, m.registers⟩

theorem Machine.inRange (m : Machine) (sink : Sink) : m.InRange sink where
  same add h := stepBy_eq (h.at m) sink
  sums x y h := by
    obtain ⟨hx, hmemory, hwidth⟩ := of_adds h
    exact ⟨hx, hmemory, hwidth, Address.toNat_add_of_lt (Nat.lt_succ_of_le hmemory) hwidth⟩
  inside := adds_iff
  past hm hpc := by
    -- the machine itself wraps around, so it is one of these cycles
    have hstep := stepBy_eq (Adder.serves_wrapping.at m) sink
    rw [stepBy_of_le hm hpc] at hstep
    refine ⟨(Option.some.inj hstep).symm, ?_⟩
    intro add
    rw [stepBy_of_le hm hpc, hstep]
  pc outcome hm hok := by
    obtain ⟨code, hcode, hpc⟩ := moves_on hm hok
    have hlt : m.pc.toNat < ramSize := Memory.lt_of_cell? hcode
    have hwidth := widthOf_le_four code
    refine ⟨code, hcode, hpc, ?_⟩
    simp only [ramSize] at hlt
    omega
  sp := by
    have hsp := m.sp_of_step sink
    have hlt := (m.step sink).machine.registers.sp.toNat_lt
    refine ⟨hsp, ?_, ?_⟩ <;> omega
  shown := by
    rw [peek_eq_byte, peek_eq_byte, peek_eq_byte]
    rfl

/-- **No sum is too large.**  An adder that gives up where a sum does not fit serves as well as one
that wraps around, and every adder that serves leads from any machine to the same machines, however
many cycles are asked for.  At each of these machines the next cycle is in range: what it adds
starts in memory and is exact, its program counter is at most 259, past the end of memory it faults
and adds nothing, the stack pointer stays a byte, and the snapshot before it can be taken. -/
theorem arithmetic_in_range (m : Machine) (sinks : List Sink) :
    Adder.checked.Serves ∧ Adder.wrapping.Serves ∧
    (∀ add : Adder, add.Serves → m.afterCyclesBy add sinks = some (m.afterCycles sinks)) ∧
    ∀ sink, (m.afterCycles sinks).InRange sink := by
  refine ⟨Adder.serves_checked, Adder.serves_wrapping, ?_, ?_⟩
  · intro add h
    exact m.afterCyclesBy_eq h sinks
  · intro sink
    exact Machine.inRange _ sink

/-- A traced machine before the last cell, with a byte there that is no opcode and as wide as can
be. -/
def perched : Machine :=
  { Machine.boot (Memory.zero.place 255 0xC0) with pc := 255, tracing := true }

/-- The first cycle goes as far as a cycle can, and the second one needs no adder to fault. -/
theorem arithmetic_in_range_perched :
    perched.Adds .unlimited 255 4 ∧ (255 + 4 : Address).toNat = 255 + 4 ∧
      perched.afterCyclesBy .checked [.unlimited] = some (perched.afterCycles [.unlimited]) ∧
      (perched.afterCycles [.unlimited]).pc = 259 ∧
      ∀ add : Adder, ((perched.afterCycles [.unlimited]).stepBy add .unlimited).map (·.result) =
        some (.error (.addressOutOfRange 259)) := by
  obtain ⟨-, -, -, hfirst⟩ := arithmetic_in_range perched []
  obtain ⟨hchecked, -, hsame, hsecond⟩ := arithmetic_in_range perched [.unlimited]
  have hadds : perched.Adds .unlimited 255 4 := by
    have hnone : (perched.stepBy (.without 255 4) .unlimited).isNone = true := by decide +kernel
    exact Option.isNone_iff_eq_none.mp hnone
  obtain ⟨hstatus, hpc⟩ : (perched.afterCycles [.unlimited]).status = .running ∧
      (perched.afterCycles [.unlimited]).pc = 259 := by decide +kernel
  refine ⟨hadds, ((hfirst .unlimited).sums _ _ hadds).2.2.2, hsame _ hchecked, hpc, ?_⟩
  intro add
  obtain ⟨hstep, hall⟩ := (hsecond .unlimited).past hstatus (by rw [hpc]; decide)
  rw [hall add, hstep, hpc]
  rfl

end LS8
