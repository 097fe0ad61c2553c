/-
LS8/Proofs/Dump.lean

The dump of a memory can be read back.

A row shows sixteen cells, or as many of them as there are, so the rows one
after the other show every cell once and in order (`flatMap_rowCells`), whatever
the size of the memory is.  No row has a newline in it, so the text falls apart
into its rows at the newlines (`segments_dump`), and a row has only one colon,
behind which each cell has a group of two digits (`digitGroups_row`).

`dump_lossless` puts this together: the groups behind the colons are the cells,
and two memories, of whatever sizes, have the same dump only if they are the same.
-/
import LS8.Memory.Dump
import LS8.Proofs.Digits
import LS8.Text.Line
import Mathlib.Algebra.Order.Floor.Div

namespace LS8.Memory

open Numeral (hexWord ofHexWord upperDigit)

variable {size : Nat}

/-! ### The cells of the rows -/

theorem getElem?_toList (m : Memory size) (i : Nat) : m.toList[i]? = m.cell? i := by
  simp [toList, cell?]

theorem length_toList (m : Memory size) : m.toList.length = size := by
  simp [toList]

theorem rowCells_eq_take (m : Memory size) (i : Nat) :
    m.rowCells i = (m.toList.drop (rowLength * i)).take rowLength := by
  rw [rowCells, Array.toList_extract, List.extract_eq_take_drop, Nat.add_sub_cancel_left]
  rfl

/-- What `take` takes from a place on, asked for one by one. -/
theorem filterMap_range_getElem? {α : Type} (l : List α) (start n : Nat) :
    (List.range n).filterMap (fun k => l[start + k]?) = (l.drop start).take n := by
  induction n with
  | zero => rfl
  | succ n ih =>
    rw [List.range_succ, List.filterMap_append, ih, List.take_add_one, List.getElem?_drop]
    cases h : l[start + n]? <;> simp [h]

/-- A row shows those of its sixteen cells that exist. -/
theorem rowCells_eq_filterMap (m : Memory size) (i : Nat) :
    m.rowCells i = (List.range 16).filterMap fun k => m.cell? (16 * i + k) := by
  simp only [← getElem?_toList]
  rw [filterMap_range_getElem?, rowCells_eq_take]
  rfl

theorem flatMap_rowCells_range (m : Memory size) (n : Nat) :
    (List.range n).flatMap m.rowCells = m.toList.take (rowLength * n) := by
  induction n with
  | zero => rfl
  | succ n ih =>
    rw [List.range_succ, List.flatMap_append, ih, List.flatMap_singleton, rowCells_eq_take,
      Nat.mul_succ, List.take_add]

theorem rowCount_eq (size : Nat) : rowCount size = size ⌈/⌉ 16 := rfl

/-- **The rows show every cell once and in order.** -/
theorem flatMap_rowCells (m : Memory size) :
    (List.range (rowCount size)).flatMap m.rowCells = m.toList := by
  rw [flatMap_rowCells_range]
  -- sixteen cells a row are enough, and the last row may have room for more
  apply List.take_of_length_le
  rw [length_toList]
  show size ≤ 16 * ((size + 15) / 16)
  omega

/-! ### The rows of the text -/

theorem newline_notMem_hexBytes (bytes : List Byte) : '\n' ∉ Numeral.hexBytes bytes := by
  intro h
  obtain ⟨byte, -, hbyte⟩ := List.mem_flatMap.mp h
  rcases List.mem_cons.mp hbyte with hspace | hdigit
  · cases hspace
  · exact Numeral.notMem_hex (by decide) _ _ hdigit

theorem newline_notMem_row (m : Memory size) (i : Nat) : '\n' ∉ m.row i := by
  intro h
  rcases List.mem_append.mp h with haddress | hrest
  · exact Numeral.notMem_hex (by decide) _ _ haddress
  · rcases List.mem_cons.mp hrest with hcolon | hbytes
    · cases hcolon
    · exact newline_notMem_hexBytes _ hbytes

/-- Lines that each end in a newline are pieces between newlines, with nothing behind the last. -/
theorem flatMap_newline_eq_intercalate (lines : List (List Char)) :
    lines.flatMap (· ++ ['\n']) = ['\n'].intercalate (lines ++ [[]]) := by
  induction lines with
  | nil => rfl
  | cons line lines ih =>
    rw [List.flatMap_cons, ih, List.cons_append]
    -- behind every line there is a piece, the empty one if the line is the last
    cases lines <;> simp [List.intercalate_cons_cons]

/-- **Every row is ended by a newline, and has none in it.** -/
theorem segments_dump (m : Memory size) : Text.segments m.dump = m.rows ++ [[]] := by
  rw [Text.segments, dump, flatMap_newline_eq_intercalate]
  apply List.splitOn_intercalate
  · intro line hline
    rcases List.mem_append.mp hline with hrow | hlast
    · obtain ⟨i, -, rfl⟩ := List.mem_map.mp hrow
      exact m.newline_notMem_row i
    · rw [List.mem_singleton.mp hlast]
      exact List.not_mem_nil
  · simp

/-! ### Reading a dump -/

/-- The groups of digits behind the colon of a row, each of which has a space before it. -/
def digitGroups (line : List Char) : List (List Char) :=
  ((line.dropWhile (· != ':')).tail.splitOn ' ').tail

/-- The bytes that a dump shows, row by row. -/
def ofDump (text : List Char) : List Byte :=
  ((Text.segments text).flatMap digitGroups).map ofHexWord

theorem dropWhile_row (m : Memory size) (i : Nat) :
    (m.row i).dropWhile (· != ':') = ':' :: Numeral.hexBytes (m.rowCells i) := by
  rw [row, List.dropWhile_append_of_pos]
  · rfl
  · -- the address has no colon
    intro c hc
    rw [bne_iff_ne]
    rintro rfl
    exact Numeral.notMem_hex (by decide) _ _ hc

/-- **Behind the colon, every cell has a group of digits.** -/
theorem digitGroups_row (m : Memory size) (i : Nat) :
    digitGroups (m.row i) = (m.rowCells i).map hexWord := by
  have hwords := Numeral.append_flatMap_eq_intercalate [] ((m.rowCells i).map hexWord)
  rw [List.nil_append] at hwords
  rw [digitGroups, dropWhile_row, List.tail_cons, Numeral.hexBytes_eq_flatMap, hwords,
    List.splitOn_intercalate]
  · rfl
  · intro word hword
    rcases List.mem_cons.mp hword with rfl | hbyte
    · exact List.not_mem_nil
    · obtain ⟨byte, -, rfl⟩ := List.mem_map.mp hbyte
      exact Numeral.space_notMem_hexWord byte
  · exact List.cons_ne_nil _ _

/-- The groups of all rows are those of the cells. -/
theorem flatMap_digitGroups_dump (m : Memory size) :
    (Text.segments m.dump).flatMap digitGroups = m.toList.map hexWord := by
  rw [segments_dump, List.flatMap_append, rows, List.flatMap_map]
  have hgroups : (List.range (rowCount size)).flatMap (fun i => digitGroups (m.row i)) =
      ((List.range (rowCount size)).flatMap m.rowCells).map hexWord := by
    rw [List.map_flatMap]
    simp only [digitGroups_row]
  rw [hgroups, flatMap_rowCells]
  -- nothing is shown behind the last newline
  exact List.append_nil _

theorem ofDump_dump (m : Memory size) : ofDump m.dump = m.toList := by
  rw [ofDump, flatMap_digitGroups_dump, Numeral.map_ofHexWord_map_hexWord]

/-- Memories with the same dump have the same size and the same cells. -/
theorem dump_inj {size' : Nat} {m : Memory size} {n : Memory size'} :
    m.dump = n.dump ↔ size = size' ∧ ∀ i, m.cell? i = n.cell? i := by
  constructor
  · intro h
    have hcells : m.toList = n.toList := by
      rw [← ofDump_dump, h, ofDump_dump]
    refine ⟨?_, ?_⟩
    · rw [← m.length_toList, hcells, n.length_toList]
    · intro i
      rw [← getElem?_toList, hcells, getElem?_toList]
  · rintro ⟨rfl, hcells⟩
    rw [ext_cell? hcells]

/-- The row of cells from `16 * i` on, character by character. -/
theorem row_eq (m : Memory size) (i : Nat) :
    m.row i = ((Nat.digits 16 (16 * i)).reverse.map upperDigit).leftpad 4 '0' ++ ':' ::
      ((List.range 16).filterMap fun k => m.cell? (16 * i + k)).flatMap fun byte =>
        [' ', upperDigit (byte.toNat / 16), upperDigit (byte.toNat % 16)] := by
  rw [row, rowCells_eq_filterMap, Numeral.hex_eq_digits (by decide)]
  show _ ++ ':' :: List.flatMap (fun byte => ' ' :: hexWord byte) _ = _
  simp only [Numeral.hexWord_eq]
  rfl

/-- **The dump loses nothing.**  A memory of any size has a line for every sixteen of its cells, or
for as many as are left at the end, and nothing stands behind the newline of the last line.  Line
`i` has the digits of `16 * i` to base 16, with zeros in front to make up four of them, a colon, and
behind it a space and two digits for each of its cells that exists.  The groups of digits behind the
colons, read one after the other, are the cells in order.  So memories have the same dump just if
they have the same size and the same cells. -/
theorem dump_lossless {size' : Nat} (m : Memory size) (n : Memory size') :
    Text.segments m.dump =
      (List.range (size ⌈/⌉ 16)).map (fun i =>
        ((Nat.digits 16 (16 * i)).reverse.map upperDigit).leftpad 4 '0' ++ ':' ::
          ((List.range 16).filterMap fun k => m.cell? (16 * i + k)).flatMap fun byte =>
            [' ', upperDigit (byte.toNat / 16), upperDigit (byte.toNat % 16)]) ++ [[]] ∧
    (Text.segments m.dump).flatMap digitGroups =
      m.toList.map (fun byte => [upperDigit (byte.toNat / 16), upperDigit (byte.toNat % 16)]) ∧
    ofDump m.dump = m.toList ∧
    (m.dump = n.dump ↔ size = size' ∧ ∀ i, m.cell? i = n.cell? i) := by
  refine ⟨?_, ?_, m.ofDump_dump, dump_inj⟩
  · rw [segments_dump, rows, rowCount_eq, funext m.row_eq]
  · rw [flatMap_digitGroups_dump, funext Numeral.hexWord_eq]

/-- A last row of one cell. -/
example : ((zero : Memory 17).place 16 0xAB).dump =
    ("0000: 00 00 00 00 00 00 00 00 00 00 00 00 00 00 00 00\n" ++ "0010: AB\n").toList := by
  decide +kernel

/-- Past the four-digit addresses a line has five digits before the colon. -/
example (m : Memory 70000) : (m.row 4096).take 6 = "10000:".toList := rfl

end LS8.Memory
