/-
LS8/Proofs/Faults.lean

Which fault a cycle comes to.

The rules are a list of checks for every state of the machine (`checks`): each
is a condition and the fault that it means, and of those whose condition holds
the first one counts.  The machine makes its checks in several places, some in
the course of the work and some of them twice.  `step_fault_iff` says that all
of them together are the list: nothing else faults, and where several faults
are due it is the first that happens.
-/
import LS8.Proofs.Cycle
import LS8.Proofs.Fetch

namespace LS8

/-! ### Checks -/

/-- A condition, and the fault that it means. -/
structure Check where
  trips : Bool
  fault : Fault
  deriving DecidableEq

/-- The fault of the first check that trips. -/
def firstFault (checks : List Check) : Option Fault := (checks.find? Check.trips).map Check.fault

@[simp] theorem firstFault_nil : firstFault [] = none := rfl

@[simp] theorem firstFault_cons (check : Check) (checks : List Check) :
    firstFault (check :: checks) = if check.trips then some check.fault else firstFault checks := by
  unfold firstFault
  rw [List.find?_cons]
  cases check.trips <;> rfl

theorem firstFault_eq_none_iff {checks : List Check} :
    firstFault checks = none ↔ ∀ check ∈ checks, check.trips = false := by
  simp [firstFault]

/-- The first fault is one of a check that trips. -/
theorem exists_check {checks : List Check} {fault : Fault} (h : firstFault checks = some fault) :
    ∃ check ∈ checks, check.trips = true ∧ check.fault = fault := by
  obtain ⟨check, hfind, hfault⟩ := Option.map_eq_some_iff.mp h
  exact ⟨check, List.mem_of_find?_eq_some hfind, List.find?_some hfind, hfault⟩

/-! ### The rules -/

/-- The value of a register, zero if there is none with the number. -/
def Registers.value (r : Registers) (register : Byte) : Byte := (r.cell? register.toNat).getD 0

/-- There is no such register. -/
def Check.missing (register : Byte) : Check := ⟨7 < register, .registerOutOfRange register⟩

/-- The register is the stack pointer. -/
def Check.reserved (register : Byte) : Check := ⟨register = 7, .reservedRegister 7⟩

/-- The checks of an instruction, in order. -/
def Instruction.checks (r : Registers) (sink : Sink) : Instruction → List Check
  | .ldi a _ => [.reserved a, .missing a]
  | .prn a =>
    [.missing a, ⟨!sink.fits (Numeral.decimal (r.value a).toNat ++ ['\n']), .output sink.refusal⟩]
  | .hlt => []
  | .pop a => [⟨r.sp = 255, .stackUnderflow⟩, .reserved a, .missing a]
  | .push a => [⟨r.sp = 0, .stackOverflow⟩, .missing a]
  | .arith op a b =>
    [.missing a, .missing b, ⟨op = .div ∧ r.value b = 0, .divisionByZero⟩, .reserved a]

/-- The checks of a cycle, in order.  A byte that is no opcode needs nothing but itself. -/
def Machine.checks (m : Machine) (sink : Sink) : List Check :=
  let bytes := m.snapshot.bytes
  ⟨255 < m.pc, .addressOutOfRange m.pc⟩ ::
    match bytes.instruction? with
    | none => []
    | some i =>
      ⟨256 < m.pc.toNat + bytes.width.toNat, .addressOutOfRange 0x100⟩ :: i.checks m.registers sink

/-! ### Computations under checks -/

/-- The fault of a result, if it is one. -/
def faultOf {α : Type} : Except Fault α → Option Fault
  | .ok _ => none
  | .error fault => some fault

/-- The checks say whether the computation faults, and how. -/
def Governs {α : Type} (checks : List Check) (x : Except Fault α) : Prop :=
  firstFault checks = faultOf x

theorem Governs.ok {α : Type} (a : α) : Governs [] (.ok a : Except Fault α) := rfl

/-- A check that is made before anything else. -/
theorem Governs.guard {α : Type} {c : Prop} [Decidable c] {fault : Fault} {checks : List Check}
    {x : Except Fault α} (h : ¬c → Governs checks x) :
    Governs (⟨c, fault⟩ :: checks) (if c then .error fault else x) := by
  unfold Governs
  rw [firstFault_cons]
  by_cases hc : c
  · rw [if_pos hc, if_pos (decide_eq_true hc)]
    rfl
  · rw [if_neg hc, if_neg (by simp [hc])]
    exact h hc

/-- A sequence makes the checks of its first part, and then those of its second. -/
theorem Governs.bind {α β : Type} {x : Except Fault α} {f : α → Except Fault β}
    {checks checks' : List Check} (hx : Governs checks x)
    (hf : ∀ a, x = .ok a → Governs checks' (f a)) : Governs (checks ++ checks') (x >>= f) := by
  unfold Governs at hx ⊢
  -- once the checks of the first part are used up, it has come to a value
  induction checks with
  | nil =>
    rcases x with fault | a
    · cases hx
    · exact hf a rfl
  | cons check checks ih =>
    rw [List.cons_append, firstFault_cons]
    rw [firstFault_cons] at hx
    by_cases htrips : check.trips
    · rw [if_pos htrips] at hx ⊢
      rcases x with fault | a
      · exact hx
      · cases hx
    · rw [if_neg htrips] at hx ⊢
      exact ih hx

/-- A last check that cannot trip may be left out. -/
theorem Governs.of_append {α : Type} {checks : List Check} {check : Check} {x : Except Fault α}
    (h : Governs (checks ++ [check]) x) (htrips : check.trips = false) : Governs checks x := by
  unfold Governs at h ⊢
  rw [← h, firstFault, firstFault, List.find?_append]
  cases checks.find? Check.trips <;> simp [htrips]

/-! ### Registers and memory -/

theorem seven_lt_iff {index : Byte} : 7 < index ↔ ¬index.toNat < 8 := by
  rw [UInt8.lt_iff_toNat_lt, Nat.not_lt]
  rfl

theorem Registers.get_eq (r : Registers) (index : Byte) :
    r.get index =
      if 7 < index then .error (.registerOutOfRange index) else .ok (r.value index) := by
  have hcell := r.cell?_isSome_iff index.toNat
  unfold get value
  rcases hc : r.cell? index.toNat with - | v
  · have hmissing : 7 < index := by
      apply seven_lt_iff.mpr
      rw [← hcell, hc]
      simp
    rw [if_pos hmissing]
  · have hlt : index.toNat < 8 := by
      rw [← hcell, hc]
      rfl
    rw [if_neg fun h => seven_lt_iff.mp h hlt]
    rfl

theorem Registers.get_eq_ok {r : Registers} {index value : Byte} (h : r.get index = .ok value) :
    ¬7 < index ∧ r.value index = value := by
  rw [get_eq] at h
  split at h
  · cases h
  · next hindex => exact ⟨hindex, Except.ok.inj h⟩

theorem Registers.governs_get (r : Registers) (index : Byte) :
    Governs [.missing index] (r.get index) := by
  rw [get_eq]
  exact .guard fun _ => .ok _

theorem Registers.governs_set (r : Registers) (index value : Byte) :
    Governs [.missing index] (r.set index value) := by
  have hset : r.set index value =
      if 7 < index then .error (.registerOutOfRange index)
      else .ok ⟨r.cells.setIfInBounds index.toNat value⟩ := by
    unfold set
    by_cases hlt : index.toNat < 8
    · rw [if_pos hlt, if_neg fun h => seven_lt_iff.mp h hlt]
    · rw [if_neg hlt, if_pos (seven_lt_iff.mpr hlt)]
  rw [hset]
  exact .guard fun _ => .ok _

theorem Registers.governs_setGeneral (r : Registers) (index value : Byte) :
    Governs [.reserved index, .missing index] (r.setGeneral index value) := by
  have hset : r.setGeneral index value =
      if index = 7 then .error (.reservedRegister 7) else r.set index value := by
    unfold setGeneral stackPointer
    by_cases hseven : index = 7
    · rw [if_pos hseven, if_pos hseven, hseven]
    · rw [if_neg hseven, if_neg hseven]
  rw [hset]
  exact .guard fun _ => r.governs_set index value

/-- The stack pointer can be pushed like any other register. -/
theorem Registers.governs_pushed (r : Registers) (register : Byte) :
    Governs [.missing register] (r.pushed register) := by
  unfold pushed
  by_cases hsp : register = stackPointer
  · rw [if_pos hsp, hsp]
    rfl
  · -- any other register is read as it is
    rw [if_neg hsp]
    exact r.governs_get register

/-- The stack pointer always has a cell. -/
theorem Memory.governs_read (m : Ram) (b : Byte) : Governs [] (m.read b.toUInt16) := by
  obtain ⟨value, hvalue⟩ := m.read_of_byte b
  rw [hvalue]
  exact .ok value

theorem Memory.governs_write (m : Ram) (b value : Byte) :
    Governs [] (m.write b.toUInt16 value) := by
  obtain ⟨m', hm'⟩ := m.write_of_byte b value
  rw [hm']
  exact .ok m'

theorem Operation.governs_compute (op : Operation) (x y : Byte) :
    Governs [⟨op = .div ∧ y = 0, .divisionByZero⟩] (op.compute x y) := by
  cases op with
  | add | sub | mul =>
    -- whatever the operand is, the check does not trip
    exact .ok _
  | div =>
    unfold compute
    simp only [true_and]
    exact .guard fun _ => .ok _

/-! ### Instructions -/

/-- The effect of an instruction, if the sink takes its text. -/
def Instruction.deliver (i : Instruction) (r : Registers) (m : Ram) (sink : Sink) :
    Except Fault Effect := do
  let e ← i.effect r m
  if sink.fits e.text then .ok e else .error (.output sink.refusal)

/-- An instruction that prints nothing is delivered. -/
theorem Instruction.governs_deliver {i : Instruction} {r : Registers} {m : Ram}
    {checks : List Check} (h : Governs checks (i.effect r m)) (hi : ∀ register, i ≠ .prn register)
    (sink : Sink) : Governs checks (i.deliver r m sink) := by
  rw [← List.append_nil checks]
  refine h.bind fun e he => ?_
  rcases text_of_effect he with hnil | ⟨register, value, rfl, -⟩
  · rw [hnil, Sink.fits_nil]
    exact .ok e
  · exact absurd rfl (hi register)

/-- **The checks of an instruction are all it makes, and in this order.** -/
theorem Instruction.governs_checks (i : Instruction) (r : Registers) (m : Ram) (sink : Sink) :
    Governs (i.checks r sink) (i.deliver r m sink) := by
  cases i with
  | ldi register value =>
    refine governs_deliver ?_ (by simp) sink
    exact (r.governs_setGeneral register value).bind fun r' _ => .ok _
  | prn register =>
    have hdeliver : (Instruction.prn register).deliver r m sink =
        r.get register >>= fun value =>
          if sink.fits (Cycle.printed value) then .ok ⟨r, m, Cycle.printed value⟩
          else .error (.output sink.refusal) := by
      simp only [deliver, effect]
      cases r.get register <;> rfl
    rw [hdeliver]
    refine (r.governs_get register).bind fun value hvalue => ?_
    -- the line is printed of the value that the rule speaks of
    rw [(r.get_eq_ok hvalue).2, Cycle.printed]
    cases sink.fits (Numeral.decimal value.toNat ++ ['\n']) <;> rfl
  | hlt => exact governs_deliver (.ok _) (by simp) sink
  | pop register =>
    refine governs_deliver ?_ (by simp) sink
    refine .guard fun _ => ?_
    refine (m.governs_read r.sp).bind fun value _ => ?_
    exact (r.governs_setGeneral register value).bind fun r' _ => .ok _
  | push register =>
    refine governs_deliver ?_ (by simp) sink
    refine .guard fun _ => ?_
    refine (r.governs_pushed register).bind fun value _ => ?_
    exact (m.governs_write (r.sp - 1) value).bind fun m' _ => .ok _
  | arith op target source =>
    refine governs_deliver ?_ (by simp) sink
    refine (r.governs_get target).bind fun left hleft => ?_
    refine (r.governs_get source).bind fun right hright => ?_
    rw [(r.get_eq_ok hright).2]
    refine (op.governs_compute left right).bind fun result _ => ?_
    -- that the target exists was checked when it was read
    have hexists : (Check.missing target).trips = false :=
      decide_eq_false (r.get_eq_ok hleft).1
    have hset : Governs [.reserved target] (r.setGeneral target result) :=
      Governs.of_append (r.governs_setGeneral target result) hexists
    exact hset.bind fun r' _ => .ok _

/-! ### Cycles -/

/-- What a cycle of a running machine works out: the effect of an instruction, or none of a byte
that is no opcode. -/
def Machine.attempt (m : Machine) (sink : Sink) : Except Fault (Option Effect) := do
  let fetched ← m.fetch
  match fetched.instruction? with
  | none => return none
  | some i => some <$> i.deliver m.registers m.memory sink

theorem faultOf_map {α β : Type} (f : α → β) (x : Except Fault α) :
    faultOf (f <$> x) = faultOf x := by
  cases x <;> rfl

theorem Machine.attempt_of_fetch {m : Machine} {fetched : Fetched} (hfetch : m.fetch = .ok fetched)
    (sink : Sink) :
    m.attempt sink = match fetched.instruction? with
      | none => .ok none
      | some i => some <$> i.deliver m.registers m.memory sink := by
  rw [attempt, hfetch]
  rfl

theorem Instruction.deliver_of_effect {i : Instruction} {r : Registers} {m : Ram} {e : Effect}
    (he : i.effect r m = .ok e) (sink : Sink) :
    i.deliver r m sink = if sink.fits e.text then .ok e else .error (.output sink.refusal) := by
  rw [deliver, he]
  rfl

/-- A cycle faults as what it works out. -/
theorem Machine.faultOf_step {m : Machine} (hm : m.status = .running) (sink : Sink) :
    faultOf (m.step sink).result = faultOf (m.attempt sink) := by
  have hcycled := cycled hm sink
  generalize m.step sink = reply at hcycled ⊢
  cases hcycled with
  | faulted due =>
    cases due with
    | fetch hfetch =>
      rw [attempt, hfetch]
      rfl
    | effect hfetch hi he =>
      rw [attempt_of_fetch hfetch, hi]
      show _ = faultOf (some <$> Instruction.deliver _ _ _ _)
      rw [faultOf_map, Instruction.deliver, he]
      rfl
  | skipped hfetch hi =>
    rw [attempt_of_fetch hfetch, hi]
    rfl
  | executed hfetch hi he hfits | refused hfetch hi he hfits =>
    rw [attempt_of_fetch hfetch, hi]
    show _ = faultOf (some <$> Instruction.deliver _ _ _ _)
    rw [faultOf_map, Instruction.deliver_of_effect he, hfits]
    rfl

/-- **The checks of a cycle are all it makes, and in this order.** -/
theorem Machine.governs_checks (m : Machine) (sink : Sink) :
    Governs (m.checks sink) (m.attempt sink) := by
  have hfetch := m.fetch_eq
  have hrest (fetched : Fetched) (h : m.fetch = .ok fetched) : m.snapshot.bytes = fetched :=
    (fetch_eq_ok_iff.mp h).2.2
  rw [checks]
  rcases hop : m.snapshot.bytes.opcode? with - | op
  · -- only the byte itself is needed
    have hi : m.snapshot.bytes.instruction? = none := Option.map_eq_none_iff.mpr hop
    have hbyte : Governs [⟨255 < m.pc, .addressOutOfRange m.pc⟩] m.fetch := by
      rw [hfetch, hop]
      exact .guard fun _ => .ok _
    rw [hi]
    refine hbyte.bind fun fetched h => ?_
    rw [← hrest fetched h, hi]
    exact .ok none
  · have hi : m.snapshot.bytes.instruction? = some (m.snapshot.bytes.operate op) := by
      rw [Fetched.instruction?, hop]
      rfl
    have hbytes : Governs [⟨255 < m.pc, .addressOutOfRange m.pc⟩,
        ⟨256 < m.pc.toNat + m.snapshot.bytes.width.toNat, .addressOutOfRange 0x100⟩] m.fetch := by
      rw [hfetch, hop]
      refine .guard fun _ => ?_
      simp only [Option.isSome_some, true_and]
      exact .guard fun _ => .ok _
    rw [hi]
    refine hbytes.bind fun fetched h => ?_
    rw [← hrest fetched h, hi]
    show firstFault _ = faultOf (some <$> Instruction.deliver _ _ _ _)
    rw [faultOf_map]
    exact Instruction.governs_checks _ m.registers m.memory sink

/-! ### The fault of a cycle -/

theorem Machine.firstFault_checks {m : Machine} (hm : m.status = .running) (sink : Sink) :
    firstFault (m.checks sink) = faultOf (m.step sink).result :=
  (m.governs_checks sink).trans (faultOf_step hm sink).symm

/-- Past the fetch no cell is missing. -/
theorem Instruction.fault_ne_of_mem_checks (i : Instruction) (r : Registers) (sink : Sink)
    (a : Address) : ∀ check ∈ i.checks r sink, check.fault ≠ .addressOutOfRange a := by
  cases i <;> simp [checks, Check.missing, Check.reserved]

/-- A missing cell is the one at the program counter, or the first behind the end of memory. -/
theorem Machine.address_of_step {m : Machine} {sink : Sink} {a : Address}
    (hm : m.status = .running) (h : (m.step sink).result = .error (.addressOutOfRange a)) :
    256 ≤ a.toNat ∧ a.toNat ≤ max 256 m.pc.toNat := by
  have hfirst : firstFault (m.checks sink) = some (.addressOutOfRange a) := by
    rw [firstFault_checks hm, h]
    rfl
  obtain ⟨check, hmem, htrips, hfault⟩ := exists_check hfirst
  rw [checks] at hmem
  rcases List.mem_cons.mp hmem with rfl | hmem
  · -- the opcode byte has no cell
    have hpc : 255 < m.pc := of_decide_eq_true htrips
    obtain rfl := Fault.addressOutOfRange.inj hfault
    exact ⟨UInt16.lt_iff_toNat_lt.mp hpc, Nat.le_max_right _ _⟩
  · rcases hi : m.snapshot.bytes.instruction? with - | i
    · rw [hi] at hmem
      cases hmem
    · rw [hi] at hmem
      rcases List.mem_cons.mp hmem with rfl | hmem
      · -- an operand has none
        obtain rfl := Fault.addressOutOfRange.inj hfault
        exact ⟨Nat.le_refl _, Nat.le_max_left _ _⟩
      · exact absurd hfault (i.fault_ne_of_mem_checks m.registers sink a check hmem)

/-- A byte that needs no operand passes every check, wherever in memory it is. -/
theorem Machine.checks_of_lone_byte {m : Machine} {code : Byte}
    (hcode : m.memory.cell? m.pc.toNat = some code)
    (hop : Opcode.ofByte? code = some .hlt ∨ Opcode.ofByte? code = none) (sink : Sink) :
    ∀ check ∈ m.checks sink, check.trips = false := by
  have hpc : m.pc.toNat < 256 := Memory.lt_of_cell? hcode
  have hlast : ¬255 < m.pc := by
    rw [UInt16.lt_iff_toNat_lt]
    exact Nat.not_lt.mpr (Nat.le_of_lt_succ hpc)
  have hbyte : m.byte 0 = code := by
    show (m.memory.cell? m.pc.toNat).getD 0 = code
    rw [hcode]
    rfl
  rw [checks, snapshot_bytes, hbyte]
  rcases hop with hop | hop
  · -- a halt is one byte wide, and that byte is there
    obtain rfl := Opcode.ofByte?_eq_some_iff.mp hop
    have hi : Fetched.instruction? ⟨Opcode.hlt.byte, m.byte 1, m.byte 2⟩ = some .hlt := rfl
    have hfits : ¬256 < m.pc.toNat + (widthOf Opcode.hlt.byte).toNat := by
      show ¬256 < m.pc.toNat + 1
      exact Nat.not_lt.mpr hpc
    rw [hi]
    simp [Instruction.checks, hlast, Fetched.width, hfits]
  · have hi : Fetched.instruction? ⟨code, m.byte 1, m.byte 2⟩ = none :=
      Option.map_eq_none_iff.mpr hop
    rw [hi]
    simp [hlast]

/-- **A cycle faults exactly as the rules say.**  A running machine faults if one of its checks
trips, with the fault of the first that does, and otherwise succeeds.  A halt and a byte that is no
opcode succeed wherever in memory they are. -/
theorem step_fault_iff {m : Machine} (hm : m.status = .running) (sink : Sink) :
    (∀ fault, (m.step sink).result = .error fault ↔ firstFault (m.checks sink) = some fault) ∧
    ((∃ outcome, (m.step sink).result = .ok outcome) ↔
      ∀ check ∈ m.checks sink, check.trips = false) ∧
    (∀ code, m.memory.cell? m.pc.toNat = some code →
      Opcode.ofByte? code = some .hlt ∨ Opcode.ofByte? code = none →
      ∃ outcome, (m.step sink).result = .ok outcome) := by
  have hsuccess : (∃ outcome, (m.step sink).result = .ok outcome) ↔
      ∀ check ∈ m.checks sink, check.trips = false := by
    rw [← firstFault_eq_none_iff, Machine.firstFault_checks hm]
    cases (m.step sink).result <;> simp [faultOf]
  refine ⟨?_, hsuccess, ?_⟩
  · -- the fault
    intro fault
    rw [Machine.firstFault_checks hm]
    cases (m.step sink).result <;> simp [faultOf]
  · -- bytes without operands
    intro code hcode hop
    apply hsuccess.mpr
    exact Machine.checks_of_lone_byte hcode hop sink

/-- `DIV R7 R0` in the last three cells, with zero in R0. -/
def cornered : Machine :=
  { Machine.boot (Memory.zero.placeBlock 253 #[0xA3, 7, 0]) with pc := 253 }

/-- The division by zero comes before the register that is reserved. -/
theorem step_fault_iff_cornered :
    cornered.status = .running ∧ (cornered.step .unlimited).result = .error .divisionByZero ∧
      Check.reserved 7 ∈ cornered.checks .unlimited ∧ (Check.reserved 7).trips = true := by
  obtain ⟨hfault, -, -⟩ := @step_fault_iff cornered rfl .unlimited
  refine ⟨rfl, (hfault _).mpr ?_, ?_, rfl⟩
  · decide +kernel
  · decide +kernel

end LS8
