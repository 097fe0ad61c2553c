/-
LS8/Proofs/Rules.lean

The rules of the instructions.

Registers and memory are functions from numbers to bytes (`cell?`), so a write
is the update of such a function at one place: one equation says what is
written and that everything else stays.  `Instruction.Does` has a rule for each
kind of instruction, in which arithmetic is that of the integers, taken modulo
256 at the end.  `does_of_effect` says that an effect follows the rule of its
instruction.
-/
import LS8.Proofs.Effect
import Mathlib.Logic.Function.Basic

namespace LS8

/-! ### Arithmetic of integers -/

/-- What an operation means on integers, where nothing wraps around. -/
def Operation.exact : Operation → Int → Int → Int
  | .add, x, y => x + y
  | .sub, x, y => x - y
  | .mul, x, y => x * y
  | .div, x, y => x.tdiv y

/-- What is computed is the residue modulo 256 of the result on integers. -/
theorem Operation.exact_of_compute {op : Operation} {x y z : Byte} (h : op.compute x y = .ok z) :
    (z.toNat : Int) = op.exact x.toNat y.toNat % 256 := by
  have hx := x.toNat_lt
  have hy := y.toNat_lt
  cases op with
  | add =>
    obtain rfl := Except.ok.inj h
    rw [UInt8.toNat_add, exact]
    omega
  | sub =>
    obtain rfl := Except.ok.inj h
    rw [UInt8.toNat_sub, exact]
    omega
  | mul =>
    obtain rfl := Except.ok.inj h
    rw [UInt8.toNat_mul, exact, Int.natCast_emod, Int.natCast_mul]
    rfl
  | div =>
    rw [compute] at h
    split at h
    · cases h
    · obtain rfl := Except.ok.inj h
      have hquotient : (x.toNat : Int).tdiv y.toNat = (x.toNat / y.toNat : Nat) := rfl
      have hlt : x.toNat / y.toNat < 256 := Nat.lt_of_le_of_lt (Nat.div_le_self _ _) hx
      rw [UInt8.toNat_div, exact, hquotient]
      exact (Int.emod_eq_of_lt (Int.natCast_nonneg _) (Int.ofNat_lt.mpr hlt)).symm

/-- A division that is computed has a divisor. -/
theorem Operation.divisor_of_compute {x y z : Byte} (h : div.compute x y = .ok z) : y ≠ 0 := by
  rintro rfl
  rw [compute, if_pos rfl] at h
  cases h

/-! ### The rules -/

/-- What an instruction does to registers and memory, and what it prints. -/
inductive Instruction.Does (r : Registers) (m : Ram) : Instruction → Effect → Prop
  /-- One register is set, which is not the stack pointer. -/
  | ldi {register value : Byte} {r' : Registers} (hregister : register < 7)
      (hr : r'.cell? = Function.update r.cell? register.toNat (some value)) :
      Does r m (.ldi register value) ⟨r', m, []⟩
  /-- A register is printed in decimal, on a line of its own. -/
  | prn {register value : Byte} (hvalue : r.cell? register.toNat = some value) :
      Does r m (.prn register) ⟨r, m, Numeral.decimal value.toNat ++ ['\n']⟩
  /-- Registers and memory are left alone. -/
  | hlt : Does r m .hlt ⟨r, m, []⟩
  /-- One register is set to the byte at the top of the stack, and the stack pointer moves up. -/
  | pop {register value top : Byte} {r' : Registers} (hregister : register < 7)
      (hvalue : m.cell? r.sp.toNat = some value) (htop : top.toNat = r.sp.toNat + 1)
      (hr : r'.cell? =
        Function.update (Function.update r.cell? register.toNat (some value)) 7 (some top)) :
      Does r m (.pop register) ⟨r', m, []⟩
  /-- The stack pointer moves down, and the cell there is set to a register; if that is the stack
  pointer, to the stack pointer as moved. -/
  | push {register value top : Byte} {r' : Registers} {m' : Ram} (htop : top.toNat + 1 = r.sp.toNat)
      (hvalue : (if register = 7 then some top else r.cell? register.toNat) = some value)
      (hr : r'.cell? = Function.update r.cell? 7 (some top))
      (hm : m'.cell? = Function.update m.cell? top.toNat (some value)) :
      Does r m (.push register) ⟨r', m', []⟩
  /-- One register, not the stack pointer, is set to what two registers give that are read
  before. -/
  | arith {op : Operation} {target source x y z : Byte} {r' : Registers} (htarget : target < 7)
      (hx : r.cell? target.toNat = some x) (hy : r.cell? source.toNat = some y)
      (hdivisor : op = .div → y ≠ 0) (hz : (z.toNat : Int) = op.exact x.toNat y.toNat % 256)
      (hr : r'.cell? = Function.update r.cell? target.toNat (some z)) :
      Does r m (.arith op target source) ⟨r', m, []⟩

/-! ### Writes as updates -/

theorem Registers.update_of_setGeneral {r r' : Registers} {index value : Byte}
    (h : r.setGeneral index value = .ok r') :
    index < 7 ∧ r'.cell? = Function.update r.cell? index.toNat (some value) := by
  obtain ⟨hreserved, hset⟩ := setGeneral_eq_ok_iff.mp h
  refine ⟨?_, ?_⟩
  · have hlt : index.toNat < 8 := by
      unfold set at hset
      split at hset
      · assumption
      · cases hset
    have hne : index.toNat ≠ 7 := fun hseven => hreserved (UInt8.toNat_inj.mp hseven)
    apply UInt8.lt_iff_toNat_lt.mpr
    show index.toNat < 7
    omega
  · funext i
    rw [cell?_of_set hset, Function.update_apply]

theorem Registers.update_setSp (r : Registers) (value : Byte) :
    (r.setSp value).cell? = Function.update r.cell? 7 (some value) := by
  funext i
  rw [cell?_setSp, Function.update_apply]

theorem Registers.cell?_of_pushed {r : Registers} {register value : Byte}
    (h : r.pushed register = .ok value) :
    (if register = 7 then some (r.sp - 1) else r.cell? register.toNat) = some value := by
  unfold pushed stackPointer at h
  by_cases hsp : register = 7
  · rw [if_pos hsp] at h ⊢
    exact congrArg some (Except.ok.inj h)
  · rw [if_neg hsp] at h ⊢
    exact get_eq_ok_iff.mp h

/-- **An effect follows the rule of its instruction.** -/
theorem Instruction.does_of_effect {i : Instruction} {r : Registers} {m : Ram} {e : Effect}
    (h : i.effect r m = .ok e) : i.Does r m e := by
  cases i with
  | ldi register value =>
    simp only [effect, bind_eq_ok_iff, pure_eq_ok_iff] at h
    obtain ⟨r', hset, rfl⟩ := h
    obtain ⟨hregister, hr⟩ := Registers.update_of_setGeneral hset
    exact .ldi hregister hr
  | prn register =>
    simp only [effect, bind_eq_ok_iff, pure_eq_ok_iff] at h
    obtain ⟨value, hget, rfl⟩ := h
    exact .prn (Registers.get_eq_ok_iff.mp hget)
  | hlt =>
    simp only [effect, pure_eq_ok_iff] at h
    rw [← h]
    exact .hlt
  | pop register =>
    have htop := toNat_sp_of_pop h
    obtain ⟨-, value, r', hread, hset, rfl⟩ := effect_pop_eq_ok_iff.mp h
    obtain ⟨hregister, hr⟩ := Registers.update_of_setGeneral hset
    rw [Registers.sp_setSp] at htop
    rw [Memory.read_eq_ok_iff, UInt8.toNat_toUInt16] at hread
    refine .pop hregister hread htop ?_
    rw [Registers.update_setSp, hr]
  | push register =>
    have htop := toNat_sp_of_push h
    obtain ⟨-, value, m', hpushed, hwrite, rfl⟩ := effect_push_eq_ok_iff.mp h
    rw [Registers.sp_setSp] at htop
    refine .push htop (Registers.cell?_of_pushed hpushed) (Registers.update_setSp r _) ?_
    funext a
    rw [Memory.cell?_of_write hwrite, UInt8.toNat_toUInt16, Function.update_apply]
  | arith op target source =>
    simp only [effect, bind_eq_ok_iff, pure_eq_ok_iff] at h
    obtain ⟨x, hx, y, hy, z, hz, r', hset, rfl⟩ := h
    obtain ⟨htarget, hr⟩ := Registers.update_of_setGeneral hset
    refine .arith htarget (Registers.get_eq_ok_iff.mp hx) (Registers.get_eq_ok_iff.mp hy) ?_
      (Operation.exact_of_compute hz) hr
    rintro rfl
    exact Operation.divisor_of_compute hz

/-! ### What the rules change -/

variable {r : Registers} {m : Ram} {i : Instruction} {e : Effect}

/-- The stack pointer moves by one, down in a push and up in a pop. -/
theorem Instruction.Does.sp_of_ne (h : i.Does r m e) (hsp : e.registers.sp ≠ r.sp) :
    (i.opcode = .push ∧ e.registers.sp.toNat + 1 = r.sp.toNat) ∨
      (i.opcode = .pop ∧ e.registers.sp.toNat = r.sp.toNat + 1) := by
  have hseven (r r' : Registers) (h : r'.cell? 7 = r.cell? 7) : r'.sp = r.sp := by
    rw [Registers.cell?_seven, Registers.cell?_seven] at h
    exact Option.some.inj h
  have hother {register value : Byte} {r' : Registers} (hregister : register < 7)
      (hr : r'.cell? = Function.update r.cell? register.toNat (some value)) : r'.sp = r.sp := by
    apply hseven
    rw [hr, Function.update_of_ne]
    have hlt : register.toNat < 7 := UInt8.lt_iff_toNat_lt.mp hregister
    omega
  have hmoved {f : Nat → Option Byte} {top : Byte} {r' : Registers}
      (hr : r'.cell? = Function.update f 7 (some top)) : r'.sp = top := by
    have hcell := r'.cell?_seven
    rw [hr, Function.update_self] at hcell
    exact (Option.some.inj hcell).symm
  cases h with
  | ldi hregister hr => exact absurd (hother hregister hr) hsp
  | prn | hlt => exact absurd rfl hsp
  | pop _ _ htop hr =>
    right
    exact ⟨rfl, by rw [hmoved hr, htop]⟩
  | push htop _ hr _ =>
    left
    exact ⟨rfl, by rw [hmoved hr, htop]⟩
  | arith htarget _ _ _ _ hr => exact absurd (hother htarget hr) hsp

/-- Memory is written by a push, in the cell right below the stack. -/
theorem Instruction.Does.push_of_ne (h : i.Does r m e) {a : Nat}
    (ha : e.memory.cell? a ≠ m.cell? a) : i.opcode = .push ∧ a + 1 = r.sp.toNat := by
  cases h with
  | push htop _ _ hm =>
    refine ⟨rfl, ?_⟩
    by_contra hne
    refine ha ?_
    show _ = _
    rw [hm, Function.update_of_ne]
    omega
  | ldi | prn | hlt | pop | arith => exact absurd rfl ha

/-- Only a print prints. -/
theorem Instruction.Does.prn_of_ne (h : i.Does r m e) (htext : e.text ≠ []) : i.opcode = .prn := by
  cases h with
  | prn => rfl
  | ldi | hlt | pop | push | arith => exact absurd rfl htext

end LS8
