/-
LS8/Snapshot.lean

What can be seen of the machine between two cycles, and the line that shows it:
the program counter, the three bytes a cycle would read there, and all
registers, in hexadecimal.
-/
import LS8.Instruction
import LS8.Registers

namespace LS8

/-- What a trace record shows of the machine before a cycle. -/
structure Snapshot where
  pc : Address
  /-- The three bytes from `pc` on, zero where there is no cell. -/
  bytes : Fetched
  registers : Registers
  deriving DecidableEq, Repr

/-- The line of a snapshot. -/
def Snapshot.line (s : Snapshot) : List Char :=
  "TRACE: ".toList ++ Numeral.hex 2 s.pc.toNat ++ " |".toList
    ++ Numeral.hexBytes [s.bytes.code, s.bytes.a, s.bytes.b] ++ " |".toList
    ++ Numeral.hexBytes s.registers.toList

end LS8
