/-
LS8/Journal/Record.lean

The records of the journal: what the machine and the loader tell about their
work.  Every record has a level, comes from a component and reads as one line
of text; these three are the entry that is handed to a logger.
-/
import LS8.Arithmetic
import LS8.Journal.Level
import LS8.Program.Flaw
import LS8.Snapshot

namespace LS8

/-- What the machine or the loader tells at one moment. -/
inductive Record where
  /-- A flaw in the text of a program. -/
  | flaw (flaw : Program.Flaw)
  /-- A program of `count` bytes is in memory. -/
  | loaded (count : Nat)
  /-- The machine before a cycle. -/
  | trace (snapshot : Snapshot)
  /-- A byte was loaded into a register. -/
  | ldi (register value : Byte)
  /-- A register was printed. -/
  | prn (register value : Byte)
  /-- The machine stopped. -/
  | hlt
  /-- A byte came from the stack into a register. -/
  | pop (register value : Byte)
  /-- A byte went from a register onto the stack. -/
  | push (register value : Byte)
  /-- The arithmetic unit computed. -/
  | calculated (calculation : Calculation)
  /-- The byte at `pc` is no opcode and was passed over. -/
  | skipped (code : Byte) (pc : Address)
  /-- A run ended with the program counter at `pc`. -/
  | finished (pc : Address)
  deriving DecidableEq, Repr

/-- What a logger is given of a record. -/
structure Entry where
  level : Level
  /-- The name of the component that it comes from. -/
  target : String
  text : String
  deriving DecidableEq, Repr

namespace Record

/-- The level of a record. -/
def level : Record → Level
  | .flaw _ => .error
  | .skipped .. => .warn
  | .finished _ => .info
  | .loaded _ | .ldi .. | .prn .. | .hlt | .pop .. | .push .. | .calculated _ => .debug
  | .trace _ => .trace

/-- The component that a record comes from. -/
def component : Record → Component
  | .flaw _ | .loaded _ => .loader
  | .trace _ | .skipped .. | .finished _ => .machine
  | .ldi .. | .prn .. | .hlt | .pop .. | .push .. => .instructions
  | .calculated _ => .arithmetic

/-- The text of a record. -/
def text : Record → String
  | .flaw f => f.message
  | .loaded count => s!"Loaded {count} bytes"
  | .trace snapshot => String.ofList snapshot.line
  | .ldi register value => s!"LDI R{register} {value}"
  | .prn register value => s!"PRN R{register}: {value}"
  | .hlt => "HLT"
  | .pop register value => s!"POP R{register}: {value}"
  | .push register value => s!"PUSH R{register}: {value}"
  | .calculated c =>
    s!"{c.op.name} R{c.target} R{c.source}: {c.left} {c.right} -> {c.result}"
  | .skipped code pc =>
    let bits := String.ofList (Numeral.binary 8 code.toNat)
    let address := String.ofList (Numeral.hex 2 pc.toNat)
    s!"Unsupported operation 0b{bits} at 0x{address}, skipping {widthOf code} byte(s)"
  | .finished pc => s!"Program halted. PC: 0x{String.ofList (Numeral.hex 2 pc.toNat)}"

/-- The entry that a logger is given. -/
def entry (record : Record) : Entry := ⟨record.level, record.component.name, record.text⟩

end Record

end LS8
