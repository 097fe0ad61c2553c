/-
LS8/Proofs/Edits.lean

Registers that are edited one after the other.

An edit sets a general register, to a byte or to what the arithmetic unit makes
of two registers.  Whatever it is, it works out a byte from the registers that it
reads and then writes this byte into its target (`edit_eq`).  So an edit that
succeeds is the update of one cell (`edit_eq_ok_iff`), and the byte depends on the
cells of the registers that are read, and on nothing else (`value_congr`).

From this it follows that edits commute when none of them writes what the other
reads or writes (`edit_swap`), also in the middle of a longer sequence
(`editAll_swap`).
-/
import LS8.Proofs.Frame
import Mathlib.Logic.Function.Basic

namespace LS8

/-! ### Edits -/

/-- A change to a general register, which may turn out not to be one. -/
inductive Edit where
  /-- Set a register to a byte. -/
  | set (target value : Byte)
  /-- Combine two registers, and keep the result in the first. -/
  | combine (op : Operation) (target source : Byte)
  deriving DecidableEq

namespace Edit

/-- The register that an edit writes. -/
def target : Edit → Byte
  | set target _ => target
  | combine _ target _ => target

/-- The registers that an edit reads. -/
def sources : Edit → List Byte
  | set _ _ => []
  | combine _ target source => [target, source]

/-- Neither edit writes a register that the other one reads or writes. -/
structure Independent (x y : Edit) : Prop where
  target_ne : x.target ≠ y.target
  target_notMem : x.target ∉ y.sources
  notMem_sources : y.target ∉ x.sources

theorem Independent.symm {x y : Edit} (h : x.Independent y) : y.Independent x :=
  ⟨h.target_ne.symm, h.notMem_sources, h.target_notMem⟩

/-- The byte that an edit works out. -/
def value (r : Registers) : Edit → Except Fault Byte
  | set _ value => .ok value
  | combine op target source => do
    let left ← r.get target
    let right ← r.get source
    op.compute left right

end Edit

namespace Registers

/-- Make an edit. -/
def edit (r : Registers) : Edit → Except Fault Registers
  | .set target value => r.setGeneral target value
  | .combine op target source => (r.combineByCode op.byte target source).result

/-- Make edits one after the other, up to the first that faults. -/
def editAll (r : Registers) (edits : List Edit) : Except Fault Registers := edits.foldlM edit r

variable {r r' s : Registers} {x y : Edit}

/-! ### One edit -/

/-- A combination calculates, and then keeps the result. -/
theorem result_combineByCode (r : Registers) (op : Operation) (target source : Byte) :
    (r.combineByCode op.byte target source).result =
      r.calculate op target source >>= r.store := by
  rw [combineByCode, Operation.ofByte?_byte]
  show (r.combine op target source).result = _
  rw [combine]
  cases r.calculate op target source <;> rfl

/-- **An edit works out a byte, and writes it into its target.** -/
theorem edit_eq (r : Registers) (x : Edit) : r.edit x = x.value r >>= r.setGeneral x.target := by
  cases x with
  | set target value => rfl
  | combine op target source =>
    rw [edit, result_combineByCode]
    simp only [calculate, Edit.value, bind_assoc, pure_bind]
    rfl

/-- A general register can be set to any byte. -/
theorem exists_setGeneral (r : Registers) {index : Byte} (h : index < 7) (value : Byte) :
    ∃ r', r.setGeneral index value = .ok r' := by
  have hlt : index.toNat < 7 := UInt8.lt_iff_toNat_lt.mp h
  have hgeneral : index ≠ stackPointer := by
    rintro rfl
    exact absurd hlt (by decide)
  rw [setGeneral, if_neg hgeneral, set, if_pos (by omega)]
  exact ⟨_, rfl⟩

theorem setGeneral_eq_ok_iff_update {index value : Byte} :
    r.setGeneral index value = .ok r' ↔
      index < 7 ∧ r'.cell? = Function.update r.cell? index.toNat (some value) := by
  constructor
  · exact update_of_setGeneral
  · -- some register file comes out of the write, and it has these cells
    rintro ⟨hindex, hr'⟩
    obtain ⟨r'', hset⟩ := r.exists_setGeneral hindex value
    obtain ⟨-, hr''⟩ := update_of_setGeneral hset
    rw [hset, ext_cell? fun i => congrFun (hr''.trans hr'.symm) i]

/-- **An edit that succeeds is the update of one cell.** -/
theorem edit_eq_ok_iff :
    r.edit x = .ok r' ↔ ∃ value, x.value r = .ok value ∧ x.target < 7 ∧
      r'.cell? = Function.update r.cell? x.target.toNat (some value) := by
  rw [edit_eq, bind_eq_ok_iff]
  simp only [setGeneral_eq_ok_iff_update]

theorem get_congr {index : Byte} (h : r.cell? index.toNat = s.cell? index.toNat) :
    r.get index = s.get index := by
  rw [get, get, h]

/-- **What an edit works out depends on the registers that it reads.** -/
theorem value_congr (h : ∀ index ∈ x.sources, r.cell? index.toNat = s.cell? index.toNat) :
    x.value r = x.value s := by
  cases x with
  | set target value => rfl
  | combine op target source =>
    have htarget : r.get target = s.get target := get_congr (h target (by simp [Edit.sources]))
    have hsource : r.get source = s.get source := get_congr (h source (by simp [Edit.sources]))
    rw [Edit.value, Edit.value, htarget, hsource]

/-- An edit leaves alone what another one works out, if this does not read its target. -/
theorem value_of_edit (hedit : r.edit x = .ok r') (h : x.target ∉ y.sources) :
    y.value r' = y.value r := by
  obtain ⟨value, -, -, hr'⟩ := edit_eq_ok_iff.mp hedit
  apply value_congr
  intro index hindex
  -- every register that `y` reads is another one than the target
  rw [hr', Function.update_of_ne]
  intro heq
  rw [UInt8.toNat_inj.mp heq] at hindex
  exact h hindex

/-- Edits never move the stack pointer. -/
theorem sp_of_edit (h : r.edit x = .ok r') : r'.sp = r.sp := by
  rw [edit_eq] at h
  obtain ⟨value, -, hset⟩ := bind_eq_ok_iff.mp h
  exact sp_of_setGeneral hset

/-! ### Two edits -/

/-- Two edits that succeed one after the other also do so the other way round. -/
theorem edit_of_swap {r₁ : Registers} (h : x.Independent y) (hx : r.edit x = .ok r₁)
    (hy : r₁.edit y = .ok r') : ∃ s₁, r.edit y = .ok s₁ ∧ s₁.edit x = .ok r' := by
  obtain ⟨valueX, hvalueX, htargetX, hr₁⟩ := edit_eq_ok_iff.mp hx
  obtain ⟨valueY, hvalueY, htargetY, hr'⟩ := edit_eq_ok_iff.mp hy
  -- before `x` was made, `y` would have worked out the same byte
  rw [value_of_edit hx h.target_notMem] at hvalueY
  obtain ⟨s₁, hset⟩ := r.exists_setGeneral htargetY valueY
  have hs₁ : r.edit y = .ok s₁ := by
    rw [edit_eq, hvalueY]
    exact hset
  refine ⟨s₁, hs₁, ?_⟩
  apply edit_eq_ok_iff.mpr
  refine ⟨valueX, ?_, htargetX, ?_⟩
  · rw [value_of_edit hs₁ h.notMem_sources, hvalueX]
  · -- the two cells are different ones
    have hne : x.target.toNat ≠ y.target.toNat := fun heq => h.target_ne (UInt8.toNat_inj.mp heq)
    rw [hr', hr₁, (setGeneral_eq_ok_iff_update.mp hset).2, Function.update_comm hne]

/-- **Independent edits commute.** -/
theorem edit_swap (h : x.Independent y) :
    (∃ r₁, r.edit x = .ok r₁ ∧ r₁.edit y = .ok r') ↔
      ∃ s₁, r.edit y = .ok s₁ ∧ s₁.edit x = .ok r' := by
  constructor
  · rintro ⟨r₁, hx, hy⟩
    exact edit_of_swap h hx hy
  · rintro ⟨s₁, hy, hx⟩
    exact edit_of_swap h.symm hy hx

/-! ### Any number of edits -/

theorem editAll_cons_eq_ok_iff {edits : List Edit} :
    r.editAll (x :: edits) = .ok r' ↔ ∃ r₁, r.edit x = .ok r₁ ∧ r₁.editAll edits = .ok r' := by
  rw [editAll, List.foldlM_cons, bind_eq_ok_iff]
  rfl

theorem editAll_append_eq_ok_iff {before after : List Edit} :
    r.editAll (before ++ after) = .ok r' ↔
      ∃ r₁, r.editAll before = .ok r₁ ∧ r₁.editAll after = .ok r' := by
  rw [editAll, List.foldlM_append, bind_eq_ok_iff]
  rfl

theorem editAll_pair_eq_ok_iff {after : List Edit} :
    r.editAll (x :: y :: after) = .ok r' ↔
      ∃ r₂, (∃ r₁, r.edit x = .ok r₁ ∧ r₁.edit y = .ok r₂) ∧ r₂.editAll after = .ok r' := by
  simp only [editAll_cons_eq_ok_iff]
  constructor
  · rintro ⟨r₁, hx, r₂, hy, hafter⟩
    exact ⟨r₂, ⟨r₁, hx, hy⟩, hafter⟩
  · rintro ⟨r₂, ⟨r₁, hx, hy⟩, hafter⟩
    exact ⟨r₁, hx, r₂, hy, hafter⟩

/-- **Independent edits commute wherever they are.**  Two neighbours in a sequence of edits, neither
of which writes a register that the other one reads or writes, may change places: the sequence then
faults if it did before, and otherwise leads to the same registers. -/
theorem editAll_swap (r : Registers) {x y : Edit} (h : x.Independent y) (before after : List Edit) :
    ((∃ r', r.editAll (before ++ x :: y :: after) = .ok r') ↔
      ∃ r', r.editAll (before ++ y :: x :: after) = .ok r') ∧
    ∀ r', r.editAll (before ++ x :: y :: after) = .ok r' ↔
      r.editAll (before ++ y :: x :: after) = .ok r' := by
  have hsame (r' : Registers) : r.editAll (before ++ x :: y :: after) = .ok r' ↔
      r.editAll (before ++ y :: x :: after) = .ok r' := by
    simp only [editAll_append_eq_ok_iff, editAll_pair_eq_ok_iff, edit_swap h]
  exact ⟨exists_congr hsame, hsame⟩

/-- A quotient into R0 and a product into R2, both by what R1 holds. -/
theorem editAll_swap_dividing :
    (Edit.combine .div 0 1).Independent (.combine .mul 2 1) ∧
    (∃ r', initial.editAll [.set 0 200, .set 1 7, .set 2 50, .combine .mul 2 1, .combine .div 0 1,
        .combine .sub 0 2] = .ok r' ∧ r'.toList = [190, 7, 94, 0, 0, 0, 0, 0xF4]) ∧
    ¬∃ r', initial.editAll [.set 0 200, .combine .mul 2 1, .combine .div 0 1] = .ok r' := by
  have hindependent : (Edit.combine .div 0 1).Independent (.combine .mul 2 1) :=
    ⟨by decide, by decide, by decide⟩
  obtain ⟨-, hsame⟩ :=
    editAll_swap initial hindependent [.set 0 200, .set 1 7, .set 2 50] [.combine .sub 0 2]
  obtain ⟨hfaults, -⟩ := editAll_swap initial hindependent [.set 0 200] []
  refine ⟨hindependent, ⟨_, (hsame _).mp rfl, by decide +kernel⟩, ?_⟩
  intro hok
  obtain ⟨r', hr'⟩ := hfaults.mpr hok
  cases hr'

end Registers

end LS8
