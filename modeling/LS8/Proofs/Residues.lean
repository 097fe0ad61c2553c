/-
LS8/Proofs/Residues.lean

Registers hold residues.

Sums, differences and products can be worked out on integers, where nothing
wraps around, and be reduced modulo 256 at the end.  The registers of the machine
wrap around at every edit instead.  Both come to the same: if every register holds
the residue of an integer, then so it does after an edit (`Residues.edit`), and
therefore after any number of them (`editAll_residues`), however far the integers
have left the range of a byte by then.

Quotients are different, since they depend on more of an integer than its residue.
-/
import LS8.Proofs.Edits

namespace LS8

/-! ### Edits of integers -/

namespace Edit

/-- The edit writes a general register, reads registers that exist, and does not divide. -/
def CannotFault : Edit → Prop
  | set target _ => target < 7
  | combine op target source => op ≠ .div ∧ target < 7 ∧ source ≤ 7

instance : DecidablePred CannotFault
  | set target _ => inferInstanceAs (Decidable (target < 7))
  | combine op target source =>
    inferInstanceAs (Decidable (op ≠ .div ∧ target < 7 ∧ source ≤ 7))

/-- The integer that an edit works out from integers in place of registers. -/
def exactValue (f : Nat → Int) : Edit → Int
  | set _ value => value.toNat
  | combine op target source => op.exact (f target.toNat) (f source.toNat)

/-- An edit of integers. -/
def exact (f : Nat → Int) (x : Edit) : Nat → Int :=
  Function.update f x.target.toNat (x.exactValue f)

/-- Edits of integers one after the other. -/
def exactAll (f : Nat → Int) (edits : List Edit) : Nat → Int := edits.foldl exact f

end Edit

/-- A byte is its own residue. -/
theorem toNat_eq_emod (b : Byte) : (b.toNat : Int) = b.toNat % 256 := by
  have hlt := b.toNat_lt
  omega

theorem Operation.exists_compute {op : Operation} (h : op ≠ .div) (x y : Byte) :
    ∃ z, op.compute x y = .ok z := by
  cases op with
  | add | sub | mul => exact ⟨_, rfl⟩
  | div => exact absurd rfl h

/-- Sums, differences and products of residues have the residues of those of the integers. -/
theorem Operation.exact_emod {op : Operation} (h : op ≠ .div) (x y : Int) :
    op.exact (x % 256) (y % 256) % 256 = op.exact x y % 256 := by
  cases op with
  | add => exact (Int.add_emod x y 256).symm
  | sub => exact (Int.sub_emod x y 256).symm
  | mul => exact (Int.mul_emod x y 256).symm
  | div => exact absurd rfl h

theorem Edit.CannotFault.target_lt {x : Edit} (h : x.CannotFault) : x.target < 7 := by
  cases x with
  | set target value => exact h
  | combine op target source => exact h.2.1

namespace Registers

/-- The values of the registers as integers. -/
def integers (r : Registers) (i : Nat) : Int := ((r.cell? i).getD 0).toNat

/-- Every register holds the residue of an integer. -/
def Residues (r : Registers) (f : Nat → Int) : Prop :=
  ∀ i < 8, ∃ value, r.cell? i = some value ∧ (value.toNat : Int) = f i % 256

variable {r r' : Registers} {f : Nat → Int} {x : Edit} {edits : List Edit}

theorem residues_integers (r : Registers) : r.Residues r.integers := by
  intro i hi
  obtain ⟨value, hvalue⟩ := Option.isSome_iff_exists.mp ((r.cell?_isSome_iff i).mpr hi)
  refine ⟨value, hvalue, ?_⟩
  rw [integers, hvalue]
  exact toNat_eq_emod value

/-! ### One edit -/

/-- **The byte that an edit works out is the residue of the integer.** -/
theorem Residues.value (h : r.Residues f) (hx : x.CannotFault) :
    ∃ value, x.value r = .ok value ∧ (value.toNat : Int) = x.exactValue f % 256 := by
  cases x with
  | set target value => exact ⟨value, rfl, toNat_eq_emod value⟩
  | combine op target source =>
    obtain ⟨hop, htarget, hsource⟩ := hx
    have htarget' : target.toNat < 7 := UInt8.lt_iff_toNat_lt.mp htarget
    have hsource' : source.toNat ≤ 7 := UInt8.le_iff_toNat_le.mp hsource
    obtain ⟨left, hleft, hleftResidue⟩ := h target.toNat (by omega)
    obtain ⟨right, hright, hrightResidue⟩ := h source.toNat (by omega)
    obtain ⟨result, hresult⟩ := Operation.exists_compute hop left right
    refine ⟨result, ?_, ?_⟩
    · simp only [Edit.value, bind_eq_ok_iff]
      exact ⟨left, get_eq_ok_iff.mpr hleft, right, get_eq_ok_iff.mpr hright, hresult⟩
    · -- the operands may be far off the integers, but only by multiples of 256
      rw [Operation.exact_of_compute hresult, hleftResidue, hrightResidue]
      exact Operation.exact_emod hop _ _

theorem Residues.update (h : r.Residues f) {index value : Byte} {n : Int}
    (hvalue : (value.toNat : Int) = n % 256)
    (hr' : r'.cell? = Function.update r.cell? index.toNat (some value)) :
    r'.Residues (Function.update f index.toNat n) := by
  intro i hi
  rw [hr']
  by_cases heq : i = index.toNat
  · rw [heq, Function.update_self, Function.update_self]
    exact ⟨value, rfl, hvalue⟩
  · rw [Function.update_of_ne heq, Function.update_of_ne heq]
    exact h i hi

/-- **Edits of registers and of integers keep in step.** -/
theorem Residues.edit (h : r.Residues f) (hx : x.CannotFault) :
    ∃ r', r.edit x = .ok r' ∧ r'.Residues (x.exact f) := by
  obtain ⟨value, hvalue, hresidue⟩ := h.value hx
  obtain ⟨r', hset⟩ := r.exists_setGeneral hx.target_lt value
  refine ⟨r', ?_, ?_⟩
  · rw [edit_eq, hvalue]
    exact hset
  · exact h.update hresidue (update_of_setGeneral hset).2

/-! ### Any number of edits -/

theorem Residues.editAll (h : r.Residues f) (hedits : ∀ x ∈ edits, x.CannotFault) :
    ∃ r', r.editAll edits = .ok r' ∧ r'.Residues (Edit.exactAll f edits) := by
  induction edits generalizing r f with
  | nil => exact ⟨r, rfl, h⟩
  | cons x edits ih =>
    obtain ⟨hx, hrest⟩ := List.forall_mem_cons.mp hedits
    -- the rest is made on registers that hold residues of the edited integers
    obtain ⟨r₁, hr₁, hresidues⟩ := h.edit hx
    obtain ⟨r', hr', hresidues'⟩ := ih hresidues hrest
    exact ⟨r', editAll_cons_eq_ok_iff.mpr ⟨r₁, hr₁, hr'⟩, hresidues'⟩

theorem sp_of_editAll (h : r.editAll edits = .ok r') : r'.sp = r.sp := by
  induction edits generalizing r with
  | nil =>
    obtain rfl := Except.ok.inj h
    rfl
  | cons x edits ih =>
    obtain ⟨r₁, hx, hrest⟩ := editAll_cons_eq_ok_iff.mp h
    rw [ih hrest, sp_of_edit hx]

/-- **Registers hold residues.**  Bytes, sums, differences and products are written to general
registers, in any order and any number, worked out from any registers, the stack pointer among them.
None of this faults, the stack pointer stays as it is, and after any number of these edits each
register holds the residue modulo 256 of what the same edits make of the same values on integers. -/
theorem editAll_residues (r : Registers) {edits : List Edit} (h : ∀ x ∈ edits, x.CannotFault)
    (k : Nat) :
    ∃ r', r.editAll (edits.take k) = .ok r' ∧ r'.sp = r.sp ∧
      ∀ i < 8, ∃ value, r'.cell? i = some value ∧
        (value.toNat : Int) = Edit.exactAll r.integers (edits.take k) i % 256 := by
  have hprefix : ∀ x ∈ edits.take k, x.CannotFault := fun x hx => h x (List.mem_of_mem_take hx)
  obtain ⟨r', hr', hresidues⟩ := r.residues_integers.editAll hprefix
  exact ⟨r', hr', sp_of_editAll hr', hresidues⟩

/-- Twice 201, squared, is taken from 3, and the difference is multiplied by the stack pointer. -/
def overflowing : List Edit :=
  [.set 0 201, .combine .add 0 0, .combine .mul 0 0, .set 1 3, .combine .sub 1 0,
    .combine .mul 1 7]

/-- What the integers make of it is far below zero. -/
theorem editAll_residues_overflowing :
    (∀ x ∈ overflowing, x.CannotFault) ∧
    Edit.exactAll initial.integers overflowing 1 = -39430644 ∧
    ∃ r', initial.editAll overflowing = .ok r' ∧ r'.sp = 0xF4 ∧ r'.cell? 1 = some 12 := by
  have hedits : ∀ x ∈ overflowing, x.CannotFault := by decide
  have hexact : Edit.exactAll initial.integers overflowing 1 = -39430644 := by decide +kernel
  obtain ⟨r', hr', hsp, hresidues⟩ := editAll_residues initial hedits overflowing.length
  rw [List.take_length] at hr' hresidues
  obtain ⟨value, hcell, hvalue⟩ := hresidues 1 (by decide)
  rw [hexact] at hvalue
  have htwelve : value = 12 := UInt8.toNat_inj.mp (by
    show value.toNat = 12
    omega)
  exact ⟨hedits, hexact, r', hr', hsp, by rw [hcell, htwelve]⟩

end Registers

end LS8
