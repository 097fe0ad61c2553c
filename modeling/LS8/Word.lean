/-
LS8/Word.lean

The two word sizes of the LS-8.  Data, opcodes and register numbers are bytes;
addresses have 16 bits, so that the program counter can stand past the end of
a memory of 256 cells.
-/
namespace LS8

/-- A data word: the content of a cell or of a register. -/
abbrev Byte := UInt8

/-- The number of a memory cell. -/
abbrev Address := UInt16

end LS8
