/-
LS8/Proofs/MissingCells.lean

The address that a fault names has no cell, as long as addresses can count the
cells.

A byte that is read or written outside of memory is reported at its own address.
A block that reaches past the end is reported at the first cell that is missing,
which may have a number that is no address: a memory can have more cells than
16 bits can count.  The number is narrowed then, and names a cell that is there.
`address_fault_iff` says that this happens in every such memory and in no other.
-/
import LS8.Memory.Basic
import Mathlib.Algebra.Group.Nat.Defs
import Mathlib.Order.Bounds.Basic

namespace LS8.Memory

variable {size : Nat}

/-! ### When there is a fault -/

theorem read_eq_error_iff {m : Memory size} {address : Address} {fault : Fault} :
    m.read address = .error fault ↔
      size ≤ address.toNat ∧ fault = .addressOutOfRange address := by
  rw [← m.cell?_eq_none_iff]
  unfold read get?
  cases m.cell? address.toNat <;> simp [eq_comm]

theorem write_eq_error_iff {m : Memory size} {address : Address} {value : Byte} {fault : Fault} :
    m.write address value = .error fault ↔
      size ≤ address.toNat ∧ fault = .addressOutOfRange address := by
  rw [write_eq]
  by_cases hlt : address.toNat < size
  · simp [hlt]
  · simp [hlt, Nat.le_of_not_lt hlt, eq_comm]

/-- A block is refused if it does not fit, at the first missing cell or where it was to start. -/
theorem writeBlock_eq_error_iff {m : Memory size} {address : Address} {block : Array Byte}
    {fault : Fault} :
    m.writeBlock address block = .error fault ↔
      size < address.toNat + block.size ∧
        fault = .addressOutOfRange (max size address.toNat).toUInt16 := by
  rw [writeBlock_eq]
  by_cases hfits : address.toNat + block.size ≤ size
  · simp [hfits]
  · simp [hfits, Nat.lt_of_not_le hfits, eq_comm]

/-! ### Which cells are missing -/

/-- The cells that are missing among `count` of them from `start` on. -/
def missing (m : Memory size) (start count : Nat) : Set Nat :=
  {i | start ≤ i ∧ i < start + count ∧ m.cell? i = none}

/-- Of cells that start in memory and do not end there, the first one behind it is missing. -/
theorem isLeast_missing (m : Memory size) {start count : Nat} (hstart : start ≤ size)
    (hend : size < start + count) : IsLeast (m.missing start count) size := by
  refine ⟨⟨hstart, hend, ?_⟩, ?_⟩
  · exact (m.cell?_eq_none_iff size).mpr (Nat.le_refl size)
  · rintro i ⟨-, -, hi⟩
    exact (m.cell?_eq_none_iff i).mp hi

/-! ### Numbers that are no address -/

/-- A number past the end names a cell that is there exactly if addresses cannot count the cells. -/
theorem get?_narrowed (m : Memory size) (address : Address) :
    m.get? (max size address.toNat).toUInt16 = none ↔ size < 2 ^ 16 := by
  have haddress : address.toNat < 2 ^ 16 := address.toNat_lt
  show m.cell? (max size address.toNat).toUInt16.toNat = none ↔ _
  rw [m.cell?_eq_none_iff, UInt16.toNat_ofNat']
  omega

theorem isLeast_missing_narrowed_iff (m : Memory size) {address : Address} {count : Nat}
    (hstart : address.toNat ≤ size) (hend : size < address.toNat + count) :
    IsLeast (m.missing address.toNat count) (max size address.toNat).toUInt16.toNat ↔
      size < 2 ^ 16 := by
  have hleast := m.isLeast_missing hstart hend
  rw [Nat.max_eq_left hstart, UInt16.toNat_ofNat']
  constructor
  · -- a set has one least member, so the number was not changed by the narrowing
    intro h
    calc size = size % 2 ^ 16 := hleast.unique h
      _ < 2 ^ 16 := Nat.mod_lt size (by decide)
  · intro hsize
    rw [Nat.mod_eq_of_lt hsize]
    exact hleast

/-- **An address fault names a missing cell if addresses can count the cells.**  A byte outside of
memory is always reported at its own address, which has no cell.  A block that does not fit is
refused, and then the address that is reported has no cell exactly if memory has fewer than `2 ^ 16`
of them; if the block starts in memory or right behind it, this is also exactly when the first
missing cell of the block is reported. -/
theorem address_fault_iff (m : Memory size) (address reported : Address) :
    (m.read address = .error (.addressOutOfRange reported) → m.get? reported = none) ∧
    (∀ value, m.write address value = .error (.addressOutOfRange reported) →
      m.get? reported = none) ∧
    ∀ block : Array Byte,
      ((∃ fault, m.writeBlock address block = .error fault) ↔
        size < address.toNat + block.size) ∧
      (m.writeBlock address block = .error (.addressOutOfRange reported) →
        (m.get? reported = none ↔ size < 2 ^ 16) ∧
        (address.toNat ≤ size →
          (IsLeast (m.missing address.toNat block.size) reported.toNat ↔ size < 2 ^ 16))) := by
  have hown (hmissing : size ≤ address.toNat)
      (hreported : Fault.addressOutOfRange reported = .addressOutOfRange address) :
      m.get? reported = none := by
    obtain rfl := Fault.addressOutOfRange.inj hreported
    exact (m.cell?_eq_none_iff _).mpr hmissing
  refine ⟨?_, ?_, ?_⟩
  · intro hread
    obtain ⟨hmissing, hreported⟩ := read_eq_error_iff.mp hread
    exact hown hmissing hreported
  · intro value hwrite
    obtain ⟨hmissing, hreported⟩ := write_eq_error_iff.mp hwrite
    exact hown hmissing hreported
  · intro block
    refine ⟨?_, ?_⟩
    · simp only [writeBlock_eq_error_iff, exists_and_left, exists_eq, and_true]
    · intro hblock
      obtain ⟨hend, hreported⟩ := writeBlock_eq_error_iff.mp hblock
      obtain rfl := Fault.addressOutOfRange.inj hreported
      refine ⟨m.get?_narrowed address, ?_⟩
      intro hstart
      exact m.isLeast_missing_narrowed_iff hstart hend

/-- In the largest memory that addresses can count, the last address of all has no cell. -/
theorem address_fault_iff_full :
    (zero : Memory 65535).writeBlock 0xFFFE #[1, 2] = .error (.addressOutOfRange 0xFFFF) ∧
    (zero : Memory 65535).get? 0xFFFF = none ∧
    IsLeast ((zero : Memory 65535).missing 0xFFFE 2) 0xFFFF := by
  have hblock : (zero : Memory 65535).writeBlock 0xFFFE #[1, 2] =
      .error (.addressOutOfRange 0xFFFF) := writeBlock_eq_error_iff.mpr ⟨by decide, by decide⟩
  obtain ⟨-, -, hfault⟩ := address_fault_iff (zero : Memory 65535) 0xFFFE 0xFFFF
  obtain ⟨hnone, hleast⟩ := (hfault #[1, 2]).2 hblock
  exact ⟨hblock, hnone.mpr (by decide), (hleast (by decide)).mpr (by decide)⟩

/-- With one cell more, the address that is reported is that of the first cell. -/
theorem address_fault_wraps :
    (zero : Memory 65536).writeBlock 0xFFFF #[1, 2] = .error (.addressOutOfRange 0) ∧
    (zero : Memory 65536).get? 0 = some 0 ∧
    ¬IsLeast ((zero : Memory 65536).missing 0xFFFF 2) 0 := by
  refine ⟨writeBlock_eq_error_iff.mpr ⟨by decide, by decide⟩, cell?_zero 0, ?_⟩
  -- the block does not even cover that cell
  rintro ⟨⟨hstart, -, -⟩, -⟩
  exact absurd hstart (by decide)

end LS8.Memory
