/-
LS8/Memory/Dump.lean

The dump of a memory: rows of sixteen cells in hexadecimal, each behind the
address of its first cell.  The last row is as short as the memory makes it,
and a memory without cells has no row.
-/
import LS8.Memory.Basic

namespace LS8.Memory

variable {size : Nat}

/-- How many cells a full row shows. -/
def rowLength : Nat := 16

/-- How many rows show `size` cells. -/
def rowCount (size : Nat) : Nat := (size + (rowLength - 1)) / rowLength

/-- The cells that row `i` shows. -/
def rowCells (m : Memory size) (i : Nat) : List Byte :=
  (m.cells.toArray.extract (rowLength * i) (rowLength * i + rowLength)).toList

/-- Row `i` of the dump: the address of its first cell, a colon and its cells. -/
def row (m : Memory size) (i : Nat) : List Char :=
  Numeral.hex 4 (rowLength * i) ++ ':' :: Numeral.hexBytes (m.rowCells i)

/-- All rows of the dump. -/
def rows (m : Memory size) : List (List Char) := (List.range (rowCount size)).map m.row

/-- The dump: every row, ended by a newline. -/
def dump (m : Memory size) : List Char := m.rows.flatMap (· ++ ['\n'])

end LS8.Memory
