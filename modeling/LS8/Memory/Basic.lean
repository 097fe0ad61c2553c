/-
LS8/Memory/Basic.lean

Memory: a fixed number of byte cells, counted from 0.  The machine has 256 of
them; the type allows any number, also more than a 16-bit address can name.

Writes are made in place.  That one which faults has written nothing is no
matter of course then, and is what `writeCell_run` and `writeCells_run` say.

Memory is seen through `cell?`.  For every operation one lemma says what it
does to that view: `cell?_zero`, `cell?_fill`, `cell?_place`, `cell?_of_write`,
`cell?_of_writeBlock`.
-/
import LS8.Fault

namespace LS8

/-- A memory of `size` cells. -/
structure Memory (size : Nat) where
  /-- The cells, from address 0. -/
  cells : Vector Byte size
  deriving DecidableEq, Repr

/-- The number of cells of the machine. -/
def ramSize : Nat := 256

/-- The memory of the machine. -/
abbrev Ram := Memory ramSize

/-- Close to a cell of the machine, addresses do not wrap around. -/
theorem Address.toNat_add_of_lt {address offset : Address} (haddress : address.toNat < ramSize)
    (hoffset : offset.toNat ≤ 4) : (address + offset).toNat = address.toNat + offset.toNat := by
  simp only [ramSize] at haddress
  rw [UInt16.toNat_add]
  omega

namespace Memory

variable {size : Nat}

/-! ### Operations -/

/-- All cells zero. -/
def zero : Memory size := ⟨Vector.replicate size 0⟩

/-- The content of cell `i`, if there is one. -/
def cell? (m : Memory size) (i : Nat) : Option Byte := m.cells[i]?

/-- The cell at `address`, if there is one. -/
def get? (m : Memory size) (address : Address) : Option Byte := m.cell? address.toNat

/-- Read the cell at `address`. -/
def read (m : Memory size) (address : Address) : Except Fault Byte :=
  match m.get? address with
  | some value => .ok value
  | none => .error (.addressOutOfRange address)

/-- Put `value` into cell `i`, if there is one. -/
def place (m : Memory size) (i : Nat) (value : Byte) : Memory size :=
  ⟨m.cells.setIfInBounds i value⟩

/-- Put the bytes of `block` into the cells from `start` on, as far as there are cells. -/
def placeBlock (m : Memory size) (start : Nat) (block : Array Byte) : Memory size :=
  ⟨m.cells.mapIdx fun i old => if start ≤ i then block.getD (i - start) old else old⟩

/-- Set every cell to `value`. -/
def fill (_ : Memory size) (value : Byte) : Memory size := ⟨Vector.replicate size value⟩

/-- The cells as a list. -/
def toList (m : Memory size) : List Byte := m.cells.toList

/-! ### Writing in place -/

/-- A computation that changes a memory in place.  What it has written when it faults stays
written. -/
abbrev Writing (size : Nat) := EStateM Fault (Memory size) Unit

/-- Write the cell at `address`. -/
def writeCell (address : Address) (value : Byte) : Writing size := do
  unless address.toNat < size do
    throw (.addressOutOfRange address)
  modify fun m => m.place address.toNat value

/-- Write a block of bytes from `address` on.  A block that reaches past the end is reported at the
first missing cell, narrowed to an address. -/
def writeCells (address : Address) (block : Array Byte) : Writing size := do
  unless address.toNat + block.size ≤ size do
    throw (.addressOutOfRange (max size address.toNat).toUInt16)
  modify fun m => m.placeBlock address.toNat block

/-- The memory behind a computation that does not fault. -/
def Writing.result (x : Writing size) (m : Memory size) : Except Fault (Memory size) :=
  match x m with
  | .ok _ m' => .ok m'
  | .error fault _ => .error fault

/-- The memory with the cell at `address` written. -/
def write (m : Memory size) (address : Address) (value : Byte) : Except Fault (Memory size) :=
  (writeCell address value).result m

/-- The memory with a block of bytes written from `address` on. -/
def writeBlock (m : Memory size) (address : Address) (block : Array Byte) :
    Except Fault (Memory size) :=
  (writeCells address block).result m

/-- A cell is written, or nothing. -/
theorem writeCell_run (address : Address) (value : Byte) (m : Memory size) :
    writeCell address value m =
      if address.toNat < size then .ok () (m.place address.toNat value)
      else .error (.addressOutOfRange address) m := by
  rw [writeCell]
  by_cases hcell : address.toNat < size
  · rw [if_pos hcell, if_pos hcell]
    rfl
  · rw [if_neg hcell, if_neg hcell]
    rfl

/-- A block is written as a whole, or nothing of it. -/
theorem writeCells_run (address : Address) (block : Array Byte) (m : Memory size) :
    writeCells address block m =
      if address.toNat + block.size ≤ size then .ok () (m.placeBlock address.toNat block)
      else .error (.addressOutOfRange (max size address.toNat).toUInt16) m := by
  rw [writeCells]
  by_cases hfits : address.toNat + block.size ≤ size
  · rw [if_pos hfits, if_pos hfits]
    rfl
  · rw [if_neg hfits, if_neg hfits]
    rfl

theorem write_eq (m : Memory size) (address : Address) (value : Byte) :
    m.write address value =
      if address.toNat < size then .ok (m.place address.toNat value)
      else .error (.addressOutOfRange address) := by
  rw [write, Writing.result, writeCell_run]
  by_cases hcell : address.toNat < size
  · rw [if_pos hcell, if_pos hcell]
  · rw [if_neg hcell, if_neg hcell]

theorem writeBlock_eq (m : Memory size) (address : Address) (block : Array Byte) :
    m.writeBlock address block =
      if address.toNat + block.size ≤ size then .ok (m.placeBlock address.toNat block)
      else .error (.addressOutOfRange (max size address.toNat).toUInt16) := by
  rw [writeBlock, Writing.result, writeCells_run]
  by_cases hfits : address.toNat + block.size ≤ size
  · rw [if_pos hfits, if_pos hfits]
  · rw [if_neg hfits, if_neg hfits]

/-! ### The view -/

theorem cell?_eq_none_iff (m : Memory size) (i : Nat) : m.cell? i = none ↔ size ≤ i := by
  simp [cell?]

theorem cell?_isSome_iff (m : Memory size) (i : Nat) : (m.cell? i).isSome ↔ i < size := by
  simp [cell?]

theorem lt_of_cell? {m : Memory size} {i : Nat} {value : Byte} (h : m.cell? i = some value) :
    i < size := by
  rw [← cell?_isSome_iff m, h]
  rfl

theorem read_eq_ok_iff {m : Memory size} {address : Address} {value : Byte} :
    m.read address = .ok value ↔ m.cell? address.toNat = some value := by
  unfold read get?
  cases m.cell? address.toNat <;> simp

/-- A memory is known by its cells. -/
theorem ext_cell? {m n : Memory size} (h : ∀ i, m.cell? i = n.cell? i) : m = n := by
  obtain ⟨c⟩ := m
  obtain ⟨d⟩ := n
  exact congrArg mk (Vector.ext fun i hi => by simpa [cell?, hi] using h i)

theorem cell?_zero (i : Nat) :
    (zero : Memory size).cell? i = if i < size then some 0 else none := by
  simp [cell?, zero, Vector.getElem?_replicate]

theorem cell?_fill (m : Memory size) (value : Byte) (i : Nat) :
    (m.fill value).cell? i = if i < size then some value else none := by
  simp [cell?, fill, Vector.getElem?_replicate]

theorem cell?_place (m : Memory size) (j : Nat) (value : Byte) (i : Nat) :
    (m.place j value).cell? i = if i = j ∧ j < size then some value else m.cell? i := by
  simp only [cell?, place, Vector.getElem?_setIfInBounds]
  by_cases h : i = j <;> by_cases h' : j < size <;> grind

theorem cell?_of_write {m m' : Memory size} {address : Address} {value : Byte}
    (h : m.write address value = .ok m') (i : Nat) :
    m'.cell? i = if i = address.toNat then some value else m.cell? i := by
  rw [write_eq] at h
  split at h
  · next hlt =>
    cases h
    simp [cell?_place, hlt]
  · cases h

theorem cell?_of_writeBlock {m m' : Memory size} {address : Address} {block : Array Byte}
    (h : m.writeBlock address block = .ok m') (i : Nat) :
    m'.cell? i =
      if address.toNat ≤ i ∧ i < address.toNat + block.size then block[i - address.toNat]?
      else m.cell? i := by
  rw [writeBlock_eq] at h
  split at h
  · next hle =>
    cases h
    simp only [cell?, placeBlock, Vector.getElem?_mapIdx]
    by_cases hi : i < size
    · rw [Vector.getElem?_eq_getElem hi]
      simp only [Option.map_some]
      by_cases h1 : address.toNat ≤ i
      · by_cases h2 : i < address.toNat + block.size
        · have h3 : i - address.toNat < block.size := by omega
          simp [h1, h2, h3]
        · have h3 : block.size ≤ i - address.toNat := by omega
          simp [h1, h2, h3]
      · simp [h1]
    · have h2 : ¬ i < address.toNat + block.size := by omega
      rw [Vector.getElem?_eq_none (by omega)]
      simp [h2]
  · cases h

end Memory

end LS8
