/-
LS8/Machine/Cycle.lean

A computation on the workbench of a cycle: it may change the machine, print to
the sink, add to the journal, and fault.  What was done before a fault stays
done, so that a fault leaves the machine alone is a theorem about the
instructions and not a matter of course.
-/
import LS8.Journal.Event
import LS8.Machine.Basic

namespace LS8

/-- What a cycle works on. -/
structure Bench where
  machine : Machine
  sink : Sink
  /-- What the cycle has shown so far. -/
  journal : Journal

/-- A computation on the bench. -/
abbrev Cycle := EStateM Fault Bench

namespace Cycle

/-- Fault with the fault of `x`, if it is one. -/
def ofExcept {α : Type} (x : Except Fault α) : Cycle α :=
  match x with
  | .ok a => pure a
  | .error fault => throw fault

instance : MonadLift (Except Fault) Cycle := ⟨ofExcept⟩

/-- The machine as it is now. -/
def machine : Cycle Machine := return (← get).machine

/-- Replace the machine. -/
def setMachine (m : Machine) : Cycle Unit := modify fun bench => { bench with machine := m }

/-- Change the memory of the machine in place, also if that ends in a fault. -/
def onMemory (x : Memory.Writing ramSize) : Cycle Unit := fun s =>
  match x s.machine.memory with
  | .ok _ memory => .ok () { s with machine := { s.machine with memory } }
  | .error fault memory => .error fault { s with machine := { s.machine with memory } }

/-- Add a record to the journal. -/
def note (record : Record) : Cycle Unit :=
  modify fun bench => { bench with journal := bench.journal ++ [.record record] }

/-- Print `text`.  What the sink takes is in the journal, also if it is not all. -/
def print (text : List Char) : Cycle Unit := do
  let sink := (← get).sink
  modify fun bench =>
    { bench with
      sink := sink.offer text
      journal := bench.journal ++ [.output (sink.taken text)] }
  unless sink.fits text do
    throw (.output sink.refusal)

/-! ### How computations run -/

theorem pure_run {α : Type} (a : α) (s : Bench) : (pure a : Cycle α) s = .ok a s := rfl

theorem get_run (s : Bench) : (get : Cycle Bench) s = .ok s s := rfl

theorem modify_run (f : Bench → Bench) (s : Bench) : (modify f : Cycle Unit) s = .ok () (f s) := rfl

/-- The second part of a sequence starts where the first has ended, unless that has faulted. -/
theorem bind_run {α β : Type} (x : Cycle α) (f : α → Cycle β) (s : Bench) :
    (x >>= f) s = match x s with
      | .ok a t => f a t
      | .error fault t => .error fault t := by
  simp only [bind, EStateM.bind]
  cases x s <;> rfl

/-- Taking over a result changes nothing. -/
theorem lift_run {α : Type} (x : Except Fault α) (s : Bench) :
    (liftM x : Cycle α) s = match x with
      | .ok a => .ok a s
      | .error fault => .error fault s := by
  cases x <;> rfl

theorem machine_run (s : Bench) : machine s = .ok s.machine s := rfl

/-- A cell is written, or the bench is left alone. -/
theorem onMemory_writeCell_run (address : Address) (value : Byte) (s : Bench) :
    onMemory (Memory.writeCell address value) s =
      match s.machine.memory.write address value with
      | .ok memory => .ok () ⟨{ s.machine with memory }, s.sink, s.journal⟩
      | .error fault => .error fault s := by
  rw [onMemory, Memory.writeCell_run, Memory.write_eq]
  by_cases hcell : address.toNat < ramSize
  · rw [if_pos hcell, if_pos hcell]
  · rw [if_neg hcell, if_neg hcell]

/-- Printing faults if the sink does not take all, but what it takes it keeps. -/
theorem print_run (text : List Char) (s : Bench) :
    print text s =
      let s' : Bench :=
        ⟨s.machine, s.sink.offer text, s.journal ++ [.output (s.sink.taken text)]⟩
      if s.sink.fits text then .ok () s' else .error (.output s.sink.refusal) s' := by
  cases h : s.sink.fits text
  · simp only [print, bind_run, get_run, modify_run, h]
    rfl
  · simp only [print, bind_run, get_run, modify_run, h]
    rfl

end Cycle

end LS8
