/-
LS8/Registers.lean

The eight registers.  The last of them, R7, is the stack pointer; instructions
write it only by moving the stack, and every other write from an instruction
goes through `setGeneral`, which refuses it.
-/
import LS8.Fault

namespace LS8

/-- The registers R0 to R7. -/
structure Registers where
  /-- The values, R0 first. -/
  cells : Vector Byte 8
  deriving DecidableEq, Repr

namespace Registers

/-- The number of the stack pointer. -/
def stackPointer : Byte := 7

/-- The address at which the stack pointer starts. -/
def stackBase : Byte := 0xF4

/-- All registers zero, apart from the stack pointer at its base. -/
def initial : Registers := ⟨(Vector.replicate 8 0).set 7 stackBase⟩

/-- The registers as a list, R0 first. -/
def toList (r : Registers) : List Byte := r.cells.toList

/-- The value of register `i`, if there is one. -/
def cell? (r : Registers) (i : Nat) : Option Byte := r.cells[i]?

/-- The value of register `index`. -/
def get (r : Registers) (index : Byte) : Except Fault Byte :=
  match r.cell? index.toNat with
  | some value => .ok value
  | none => .error (.registerOutOfRange index)

/-- Write register `index`, which may be the stack pointer. -/
def set (r : Registers) (index value : Byte) : Except Fault Registers :=
  if index.toNat < 8 then .ok ⟨r.cells.setIfInBounds index.toNat value⟩
  else .error (.registerOutOfRange index)

/-- Write register `index` for an instruction: the stack pointer is refused. -/
def setGeneral (r : Registers) (index value : Byte) : Except Fault Registers :=
  if index = stackPointer then .error (.reservedRegister index) else r.set index value

/-- The stack pointer. -/
def sp (r : Registers) : Byte := r.cells[7]

/-- Move the stack pointer. -/
def setSp (r : Registers) (value : Byte) : Registers := ⟨r.cells.set 7 value⟩

/-! ### The view -/

/-- A register file is known by its cells. -/
theorem ext_cell? {r s : Registers} (h : ∀ i, r.cell? i = s.cell? i) : r = s := by
  obtain ⟨c⟩ := r
  obtain ⟨d⟩ := s
  exact congrArg mk (Vector.ext fun i hi => by simpa [cell?, hi] using h i)

theorem cell?_isSome_iff (r : Registers) (i : Nat) : (r.cell? i).isSome ↔ i < 8 := by
  simp [cell?]

theorem get_eq_ok_iff {r : Registers} {index value : Byte} :
    r.get index = .ok value ↔ r.cell? index.toNat = some value := by
  unfold get
  cases r.cell? index.toNat <;> simp

/-- The stack pointer is register 7. -/
theorem cell?_seven (r : Registers) : r.cell? 7 = some r.sp := by
  simp [cell?, sp]

theorem cell?_of_set {r r' : Registers} {index value : Byte} (h : r.set index value = .ok r')
    (i : Nat) : r'.cell? i = if i = index.toNat then some value else r.cell? i := by
  unfold set at h
  split at h
  · next hlt =>
    cases h
    simp only [cell?, Vector.getElem?_setIfInBounds]
    by_cases hi : i = index.toNat <;> grind
  · cases h

theorem cell?_setSp (r : Registers) (value : Byte) (i : Nat) :
    (r.setSp value).cell? i = if i = 7 then some value else r.cell? i := by
  simp only [cell?, setSp, Vector.getElem?_set]
  by_cases hi : i = 7 <;> grind

@[simp] theorem sp_setSp (r : Registers) (value : Byte) : (r.setSp value).sp = value := by
  simp [sp, setSp]

/-- A general write is a write to another register than the stack pointer. -/
theorem setGeneral_eq_ok_iff {r r' : Registers} {index value : Byte} :
    r.setGeneral index value = .ok r' ↔ index ≠ stackPointer ∧ r.set index value = .ok r' := by
  unfold setGeneral
  by_cases h : index = stackPointer <;> simp [h]

/-- A general write leaves the stack pointer alone. -/
theorem sp_of_setGeneral {r r' : Registers} {index value : Byte}
    (h : r.setGeneral index value = .ok r') : r'.sp = r.sp := by
  obtain ⟨hne, hset⟩ := setGeneral_eq_ok_iff.mp h
  have hne' : 7 ≠ index.toNat := fun e => hne (UInt8.toNat_inj.mp e.symm)
  have hcell := cell?_of_set hset 7
  rw [if_neg hne', cell?_seven, cell?_seven] at hcell
  exact Option.some.inj hcell

end Registers

end LS8
