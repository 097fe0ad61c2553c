/-
LS8/Proofs/Fetch.lean

What a fetch reads, and where it faults.

A fetch reads three bytes one after the other, and adds to the program counter
while it does.  `fetch_eq` says what comes of it, without the order and the
additions: the three bytes that a snapshot shows, unless the opcode byte or an
operand that its instruction uses lies past the end of memory.
-/
import LS8.Machine.Step

namespace LS8

variable {m : Machine} {fetched : Fetched}

/-! ### Cells -/

theorem Memory.exists_cell {size : Nat} (m : Memory size) {i : Nat} (hi : i < size) :
    ∃ value, m.cell? i = some value :=
  Option.isSome_iff_exists.mp ((m.cell?_isSome_iff i).mpr hi)

/-- A byte names a cell of the machine. -/
theorem Memory.read_of_byte (m : Ram) (b : Byte) : ∃ value, m.read b.toUInt16 = .ok value := by
  obtain ⟨value, hvalue⟩ := m.exists_cell b.toNat_lt
  refine ⟨value, ?_⟩
  rw [read_eq_ok_iff, UInt8.toNat_toUInt16]
  exact hvalue

theorem Memory.write_of_byte (m : Ram) (b value : Byte) :
    ∃ m', m.write b.toUInt16 value = .ok m' := by
  have hcell : b.toUInt16.toNat < ramSize := by
    rw [UInt8.toNat_toUInt16]
    exact b.toNat_lt
  exact ⟨_, (m.write_eq _ value).trans (if_pos hcell)⟩

theorem Memory.read_of_le {size : Nat} {m : Memory size} {address : Address}
    (h : size ≤ address.toNat) : m.read address = .error (.addressOutOfRange address) := by
  have hcell : m.get? address = none := (m.cell?_eq_none_iff address.toNat).mpr h
  rw [read, hcell]

/-- The byte `n` cells behind the program counter, zero where there is no cell. -/
def Machine.byte (m : Machine) (n : Nat) : Byte := (m.memory.cell? (m.pc.toNat + n)).getD 0

theorem Machine.snapshot_bytes (m : Machine) : m.snapshot.bytes = ⟨m.byte 0, m.byte 1, m.byte 2⟩ :=
  rfl

/-- An operand is the byte at its place, unless it is used and has no cell. -/
theorem Machine.operand_eq {width : Byte} {offset : Address} (hpc : m.pc.toNat < ramSize)
    (hoffset : offset.toNat ≤ 4) :
    m.operand width offset =
      if offset.toNat < width.toNat ∧ ramSize ≤ m.pc.toNat + offset.toNat then
        .error (.addressOutOfRange (m.pc + offset))
      else .ok (m.byte offset.toNat) := by
  have hposition := Address.toNat_add_of_lt hpc hoffset
  have hused : offset < width.toUInt16 ↔ offset.toNat < width.toNat := by
    rw [UInt16.lt_iff_toNat_lt, UInt8.toNat_toUInt16]
  unfold operand byte Memory.get?
  dsimp only
  rw [hposition]
  by_cases hw : offset.toNat < width.toNat
  · rw [if_pos (hused.mpr hw)]
    by_cases hend : ramSize ≤ m.pc.toNat + offset.toNat
    · -- used, and past the end
      rw [if_pos ⟨hw, hend⟩]
      apply Memory.read_of_le
      rw [hposition]
      exact hend
    · -- used, and there
      rw [if_neg fun h => hend h.2]
      obtain ⟨value, hvalue⟩ := m.memory.exists_cell (Nat.lt_of_not_le hend)
      rw [hvalue, Memory.read_eq_ok_iff, hposition]
      exact hvalue
  · -- not used: what is peeked at is zero where there is no cell
    rw [if_neg fun h => hw (hused.mp h), if_neg fun h => hw h.1]

/-! ### Fetching -/

/-- The operands of an instruction of up to three bytes.  If one that is used has no cell, the first
that has none is right behind the end of memory. -/
theorem Machine.operands_eq {width : Byte} (hpc : m.pc.toNat < ramSize) (hpos : 0 < width.toNat)
    (hwidth : width.toNat ≤ 3) (code : Byte) :
    (do
      let a ← m.operand width 1
      let b ← m.operand width 2
      return (⟨code, a, b⟩ : Fetched)) =
      if 256 < m.pc.toNat + width.toNat then .error (.addressOutOfRange 0x100)
      else .ok ⟨code, m.byte 1, m.byte 2⟩ := by
  have hone : (1 : Address).toNat = 1 := rfl
  have htwo : (2 : Address).toNat = 2 := rfl
  have hsize : ramSize = 256 := rfl
  rw [operand_eq hpc (by omega), operand_eq hpc (by omega), hone, htwo]
  -- an operand is missing only if the end of memory is right before it
  have hpast (offset : Address) (ho : offset.toNat ≤ 4) (h : m.pc.toNat + offset.toNat = 256) :
      m.pc + offset = 0x100 := by
    apply UInt16.toNat_inj.mp
    rw [Address.toNat_add_of_lt hpc ho, h]
    rfl
  by_cases hfirst : 1 < width.toNat ∧ ramSize ≤ m.pc.toNat + 1
  · have hend : 256 < m.pc.toNat + width.toNat := by omega
    rw [if_pos hfirst, if_pos hend, hpast 1 (by decide) (by omega)]
    rfl
  · rw [if_neg hfirst]
    by_cases hsecond : 2 < width.toNat ∧ ramSize ≤ m.pc.toNat + 2
    · have hend : 256 < m.pc.toNat + width.toNat := by omega
      rw [if_pos hsecond, if_pos hend, hpast 2 (by decide) (by omega)]
      rfl
    · have hfits : ¬256 < m.pc.toNat + width.toNat := by omega
      rw [if_neg hsecond, if_neg hfits]
      rfl

/-- **What a fetch comes to.**  It faults where the opcode byte has no cell, and where an
instruction does not fit into what is left of memory; then the first cell past the end is
missing. -/
theorem Machine.fetch_eq (m : Machine) :
    m.fetch =
      if 255 < m.pc then .error (.addressOutOfRange m.pc)
      else if m.snapshot.bytes.opcode?.isSome ∧
          256 < m.pc.toNat + m.snapshot.bytes.width.toNat then
        .error (.addressOutOfRange 0x100)
      else .ok m.snapshot.bytes := by
  have hlast : 255 < m.pc ↔ ramSize ≤ m.pc.toNat := by
    rw [UInt16.lt_iff_toNat_lt]
    rfl
  by_cases hpc : 255 < m.pc
  · rw [if_pos hpc, fetch, Memory.read_of_le (hlast.mp hpc)]
    rfl
  · have hlt : m.pc.toNat < ramSize := Nat.lt_of_not_le fun h => hpc (hlast.mpr h)
    obtain ⟨code, hcode⟩ := m.memory.exists_cell hlt
    have hzero : m.byte 0 = code := by
      show (m.memory.cell? m.pc.toNat).getD 0 = code
      rw [hcode]
      rfl
    rw [if_neg hpc, fetch, Memory.read_eq_ok_iff.mpr hcode, snapshot_bytes, hzero]
    show (do
      let a ← m.operand (if (Opcode.ofByte? code).isSome then widthOf code else 1) 1
      let b ← m.operand (if (Opcode.ofByte? code).isSome then widthOf code else 1) 2
      return (⟨code, a, b⟩ : Fetched)) =
      if (Opcode.ofByte? code).isSome ∧ 256 < m.pc.toNat + (widthOf code).toNat then _ else _
    cases hop : Opcode.ofByte? code with
    | none =>
      -- a byte that is no opcode uses no operand
      have hfits : ¬256 < m.pc.toNat + (1 : Byte).toNat := by
        simp only [ramSize] at hlt
        exact Nat.not_lt.mpr hlt
      rw [if_neg (by simp), operands_eq hlt (by decide) (by decide), if_neg hfits, if_neg (by simp)]
    | some op =>
      obtain rfl := Opcode.ofByte?_eq_some_iff.mp hop
      have hwidth : (widthOf op.byte).toNat = op.operands.toNat + 1 ∧ op.operands.toNat ≤ 2 := by
        rw [Opcode.width_byte]
        rcases op with - | - | - | - | - | (- | - | - | -) <;> decide
      simp only [Option.isSome_some, if_true, true_and]
      exact operands_eq hlt (by omega) (by omega) op.byte

/-- A fetch succeeds on an instruction that fits, and on a byte that is none. -/
theorem Machine.fetch_eq_ok_iff :
    m.fetch = .ok fetched ↔
      m.pc.toNat ≤ 255 ∧
        (m.snapshot.bytes.opcode?.isSome → m.pc.toNat + m.snapshot.bytes.width.toNat ≤ 256) ∧
        m.snapshot.bytes = fetched := by
  have hlast : m.pc.toNat ≤ 255 ↔ ¬255 < m.pc := by
    rw [UInt16.lt_iff_toNat_lt, Nat.not_lt]
    rfl
  rw [fetch_eq]
  by_cases hpc : 255 < m.pc
  · simp [hpc, hlast]
  · rw [if_neg hpc]
    by_cases hend : m.snapshot.bytes.opcode?.isSome ∧
        256 < m.pc.toNat + m.snapshot.bytes.width.toNat
    · rw [if_pos hend]
      refine ⟨nofun, ?_⟩
      rintro ⟨-, hfits, -⟩
      exact absurd (hfits hend.1) (Nat.not_le.mpr hend.2)
    · have hfits : m.snapshot.bytes.opcode?.isSome →
          m.pc.toNat + m.snapshot.bytes.width.toNat ≤ 256 :=
        fun hop => Nat.le_of_not_lt fun h => hend ⟨hop, h⟩
      rw [if_neg hend, Except.ok.injEq]
      exact ⟨fun h => ⟨hlast.mpr hpc, hfits, h⟩, fun h => h.2.2⟩

/-- What a fetch reads first is the byte at the program counter. -/
theorem Machine.cell?_of_fetch (h : m.fetch = .ok fetched) :
    m.memory.cell? m.pc.toNat = some fetched.code := by
  obtain ⟨value, hvalue⟩ := m.memory.exists_cell (pc_lt_of_fetch h)
  obtain ⟨-, -, rfl⟩ := fetch_eq_ok_iff.mp h
  show _ = some ((m.memory.cell? m.pc.toNat).getD 0)
  rw [hvalue]
  rfl

/-- The byte of an instruction's opcode is what is fetched first. -/
theorem Fetched.code_of_instruction? {i : Instruction} (h : fetched.instruction? = some i) :
    fetched.code = i.opcode.byte := by
  obtain ⟨op, hop, rfl⟩ := Option.map_eq_some_iff.mp h
  rw [opcode_operate]
  exact Opcode.ofByte?_eq_some_iff.mp hop

/-! ### What a fetch depends on -/

/-- Only the operands that an opcode has are part of its instruction. -/
theorem Fetched.instruction?_congr {fetched' : Fetched} (hcode : fetched'.code = fetched.code)
    (ha : 1 < fetched.width.toNat → fetched'.a = fetched.a)
    (hb : 2 < fetched.width.toNat → fetched'.b = fetched.b) :
    fetched'.instruction? = fetched.instruction? := by
  unfold instruction? opcode?
  rw [hcode]
  cases hop : Opcode.ofByte? fetched.code with
  | none => rfl
  | some op =>
    have hwidth : fetched.width = op.operands + 1 := by
      rw [width, Opcode.ofByte?_eq_some_iff.mp hop, Opcode.width_byte]
    rw [hwidth] at ha hb
    show some (fetched'.operate op) = some (fetched.operate op)
    -- one case for each number of operands
    cases op with
    | hlt => rfl
    | prn | pop | push => rw [operate, operate, ha (by decide)]
    | ldi => rw [operate, operate, ha (by decide), hb (by decide)]
    | arith op =>
      have htwo : 2 < (Opcode.operands (.arith op) + 1).toNat := by cases op <;> decide
      rw [operate, operate, ha (Nat.lt_of_succ_lt htwo), hb htwo]

/-- A fetch depends on no other cells than those that the program counter moves past. -/
theorem Machine.fetch_congr {n : Machine} (hpc : n.pc = m.pc) (h : m.fetch = .ok fetched)
    (hcells : ∀ a, m.pc.toNat ≤ a → a < m.pc.toNat + fetched.width.toNat →
      n.memory.cell? a = m.memory.cell? a) :
    ∃ fetched', n.fetch = .ok fetched' ∧ fetched'.code = fetched.code ∧
      fetched'.instruction? = fetched.instruction? := by
  obtain ⟨hlast, hfits, rfl⟩ := fetch_eq_ok_iff.mp h
  have hbyte (j : Nat) (hj : j < m.snapshot.bytes.width.toNat) : n.byte j = m.byte j := by
    rw [byte, byte, hpc, hcells _ (Nat.le_add_right _ j) (Nat.add_lt_add_left hj _)]
  have hpos : 0 < m.snapshot.bytes.width.toNat := one_le_widthOf _
  have hcode : n.snapshot.bytes.code = m.snapshot.bytes.code := hbyte 0 hpos
  refine ⟨n.snapshot.bytes, fetch_eq_ok_iff.mpr ⟨?_, ?_, rfl⟩, hcode,
    Fetched.instruction?_congr hcode (hbyte 1) (hbyte 2)⟩
  · rw [hpc]
    exact hlast
  · rw [Fetched.opcode?, Fetched.width, hcode, hpc]
    exact hfits

end LS8
