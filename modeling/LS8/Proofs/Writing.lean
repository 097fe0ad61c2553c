/-
LS8/Proofs/Writing.lean

Memory keeps what was written last.

A memory is written byte by byte, by the block, all of it at once, and by
loading a program over it.  Some of these requests are rejected.  Whether a
request is rejected depends on the size of the memory alone (`Request.Fits`),
and so does the byte that it puts into a cell (`Request.puts?`).  So whatever
requests were made, in whatever order and however they overlap, a cell holds
the last of the bytes that were put into it (`cell?_afterAll`).
-/
import LS8.Proofs.Grammar

namespace LS8

open Program (IsDigits spelled)

/-! ### Requests -/

/-- What can be asked of a memory that changes it. -/
inductive Request where
  /-- Write one cell. -/
  | write (address : Address) (value : Byte)
  /-- Write a block of cells. -/
  | writeBlock (address : Address) (block : Array Byte)
  /-- Set every cell. -/
  | fill (value : Byte)
  /-- Load a program over what is there. -/
  | load (text : List Char)

/-- Why a request was rejected. -/
inductive Rejection where
  | fault (fault : Fault)
  | flaws (flaws : List Program.Flaw)
  deriving DecidableEq

variable {size : Nat}

/-- Carry out a request in place.  A program is loaded over a copy, which takes the place of the
memory if there are no flaws. -/
def Request.carryOut : Request → EStateM Rejection (Memory size) Unit
  | .write address value => EStateM.adaptExcept .fault (Memory.writeCell address value)
  | .writeBlock address block => EStateM.adaptExcept .fault (Memory.writeCells address block)
  | .fill value => modify fun m => m.fill value
  | .load text => do
    match Program.load (← get) text with
    | .ok loaded => set loaded.memory
    | .error flaws => throw (.flaws flaws)

/-- The memory after a request, as it was left whether or not the request was rejected. -/
def Memory.after (m : Memory size) (request : Request) : Memory size :=
  match request.carryOut m with
  | .ok _ m' | .error _ m' => m'

/-- The memory after requests one after the other. -/
def Memory.afterAll (m : Memory size) (requests : List Request) : Memory size :=
  requests.foldl Memory.after m

theorem Request.carryOut_load (text : List Char) (m : Memory size) :
    (Request.load text).carryOut m =
      match Program.load m text with
      | .ok loaded => .ok () loaded.memory
      | .error flaws => .error (.flaws flaws) m := by
  have hget : (get : EStateM Rejection (Memory size) (Memory size)) m = .ok m m := rfl
  simp only [carryOut, bind, EStateM.bind, hget]
  cases Program.load m text <;> rfl

/-! ### What requests put where -/

/-- There is room for the request in `size` cells.  A program has to spell bytes besides. -/
def Request.Fits (size : Nat) : Request → Prop
  | .write address _ => address.toNat < size
  | .writeBlock address block => address.toNat + block.size ≤ size
  | .fill _ => True
  | .load text =>
    (∀ digits ∈ spelled (Text.lines text), IsDigits digits) ∧
      (spelled (Text.lines text)).length ≤ size

instance (size : Nat) : DecidablePred (Request.Fits size)
  | .write address _ => inferInstanceAs (Decidable (address.toNat < size))
  | .writeBlock address block => inferInstanceAs (Decidable (address.toNat + block.size ≤ size))
  | .fill _ => inferInstanceAs (Decidable True)
  | .load text =>
    haveI := List.decidableBAll IsDigits (spelled (Text.lines text))
    inferInstanceAs (Decidable (_ ∧ _))

/-- The bytes that a program spells, in order. -/
def Program.spelledBytes (text : List Char) : List Byte :=
  (spelled (Text.lines text)).map fun digits => (Numeral.ofBinary digits).toUInt8

/-- The byte that a request has for cell `i`, if it covers the cell. -/
def Request.byte? (i : Nat) : Request → Option Byte
  | .write address value => if i = address.toNat then some value else none
  | .writeBlock address block => if address.toNat ≤ i then block[i - address.toNat]? else none
  | .fill value => some value
  | .load text => (Program.spelledBytes text)[i]?

/-- The byte that a request puts into cell `i`, if it succeeds and covers the cell. -/
def Request.puts? (size i : Nat) (request : Request) : Option Byte :=
  if request.Fits size then request.byte? i else none

/-- The last of the bytes that requests put into cell `i`, if any does. -/
def lastPut? (size i : Nat) (requests : List Request) : Option Byte :=
  (requests.filterMap (Request.puts? size i)).getLast?

/-! ### Loading over a memory -/

namespace Program

variable {m : Memory size} {text : List Char}

/-- A program is loaded if it spells nothing but bytes, and no more of them than there are cells. -/
theorem load_of_fits (h : (Request.load text).Fits size) :
    ∃ loaded, load m text = .ok loaded ∧
      ∀ i < size, loaded.memory.cell? i = ((spelledBytes text)[i]?).or (m.cell? i) := by
  obtain ⟨hdigits, hsize⟩ := h
  have hreads := Loading.reads_takeText m text
  have hgood := goodLines_eq_spelled hdigits
  have hempty : ((Loading.start m).takeText text).flaws.isEmpty = true := by
    rw [Array.isEmpty_iff, ← Array.toList_eq_nil_iff, hreads.flaws]
    exact flawsOf_eq_nil_iff.mpr ⟨hdigits, hsize⟩
  refine ⟨_, if_pos hempty, ?_⟩
  intro i hi
  rw [spelledBytes, ← hgood, List.map_map, List.getElem?_map]
  cases hline : (goodLines (Text.lines text))[i]? with
  | none => exact hreads.others i (List.getElem?_eq_none_iff.mp hline)
  | some line =>
    obtain ⟨byte, hcell, hbyte⟩ := hreads.bytes i line hi hline
    refine hcell.trans (congrArg some ?_)
    show byte = (Numeral.ofBinary (content line)).toUInt8
    rw [← hbyte]
    exact UInt8.ofNat_toNat.symm

/-- Any other program has flaws. -/
theorem load_of_not_fits (h : ¬(Request.load text).Fits size) :
    ∃ flaws, load m text = .error flaws := by
  have hreads := Loading.reads_takeText m text
  refine ⟨_, if_neg ?_⟩
  intro hempty
  rw [Array.isEmpty_iff, ← Array.toList_eq_nil_iff, hreads.flaws] at hempty
  exact h (flawsOf_eq_nil_iff.mp hempty)

end Program

/-! ### One request -/

namespace Memory

variable {m : Memory size} {request : Request}

/-- **A request that fits puts its bytes into memory, and leaves the other cells alone.** -/
theorem carryOut_of_fits (m : Memory size) (h : request.Fits size) :
    ∃ m', request.carryOut m = .ok () m' ∧
      ∀ i < size, m'.cell? i = (request.byte? i).or (m.cell? i) := by
  cases request with
  | write address value =>
    have hrun : writeCell address value m = .ok () (m.place address.toNat value) :=
      (writeCell_run address value m).trans (if_pos h)
    have hwrite : m.write address value = .ok (m.place address.toNat value) :=
      (m.write_eq address value).trans (if_pos h)
    refine ⟨m.place address.toNat value, ?_, ?_⟩
    · rw [Request.carryOut, EStateM.adaptExcept, hrun]
    · intro i hi
      rw [cell?_of_write hwrite, Request.byte?]
      split <;> rfl
  | writeBlock address block =>
    have hrun : writeCells address block m = .ok () (m.placeBlock address.toNat block) :=
      (writeCells_run address block m).trans (if_pos h)
    have hwrite : m.writeBlock address block = .ok (m.placeBlock address.toNat block) :=
      (m.writeBlock_eq address block).trans (if_pos h)
    refine ⟨m.placeBlock address.toNat block, ?_, ?_⟩
    · rw [Request.carryOut, EStateM.adaptExcept, hrun]
    · intro i hi
      rw [cell?_of_writeBlock hwrite, Request.byte?]
      by_cases hstart : address.toNat ≤ i
      · by_cases hend : i < address.toNat + block.size
        · have hin : i - address.toNat < block.size := by omega
          rw [if_pos ⟨hstart, hend⟩, if_pos hstart, Array.getElem?_eq_getElem hin]
          rfl
        · have hout : block.size ≤ i - address.toNat := by omega
          rw [if_neg fun hcovered => hend hcovered.2, if_pos hstart, Array.getElem?_eq_none hout]
          rfl
      · rw [if_neg fun hcovered => hstart hcovered.1, if_neg hstart]
        rfl
  | fill value =>
    refine ⟨m.fill value, rfl, ?_⟩
    intro i hi
    rw [cell?_fill, if_pos hi]
    rfl
  | load text =>
    obtain ⟨loaded, hload, hcells⟩ := Program.load_of_fits (m := m) h
    refine ⟨loaded.memory, ?_, hcells⟩
    rw [Request.carryOut_load, hload]

/-- **A request that does not fit is rejected, and has written nothing.** -/
theorem carryOut_of_not_fits (m : Memory size) (h : ¬request.Fits size) :
    ∃ rejection, request.carryOut m = .error rejection m := by
  cases request with
  | write address value =>
    have hrun : writeCell address value m = .error (.addressOutOfRange address) m :=
      (writeCell_run address value m).trans (if_neg h)
    refine ⟨.fault (.addressOutOfRange address), ?_⟩
    rw [Request.carryOut, EStateM.adaptExcept, hrun]
  | writeBlock address block =>
    have hrun : writeCells address block m =
        .error (.addressOutOfRange (max size address.toNat).toUInt16) m :=
      (writeCells_run address block m).trans (if_neg h)
    refine ⟨.fault (.addressOutOfRange (max size address.toNat).toUInt16), ?_⟩
    rw [Request.carryOut, EStateM.adaptExcept, hrun]
  | fill value => exact absurd trivial h
  | load text =>
    obtain ⟨flaws, hload⟩ := Program.load_of_not_fits (m := m) h
    refine ⟨.flaws flaws, ?_⟩
    rw [Request.carryOut_load, hload]

/-- A request succeeds exactly if it fits. -/
theorem carryOut_eq_ok_iff : (∃ m', request.carryOut m = .ok () m') ↔ request.Fits size := by
  constructor
  · rintro ⟨m', hok⟩
    by_contra hfits
    obtain ⟨rejection, herror⟩ := m.carryOut_of_not_fits hfits
    cases hok.symm.trans herror
  · intro hfits
    obtain ⟨m', hok, -⟩ := m.carryOut_of_fits hfits
    exact ⟨m', hok⟩

/-- A cell after a request. -/
theorem cell?_after (m : Memory size) (request : Request) {i : Nat} (hi : i < size) :
    (m.after request).cell? i = (request.puts? size i).or (m.cell? i) := by
  rw [after, Request.puts?]
  by_cases hfits : request.Fits size
  · obtain ⟨m', hok, hcells⟩ := m.carryOut_of_fits hfits
    rw [hok, if_pos hfits]
    exact hcells i hi
  · obtain ⟨rejection, herror⟩ := m.carryOut_of_not_fits hfits
    rw [herror, if_neg hfits]
    rfl

/-! ### Any requests -/

/-- **A cell holds the last of the bytes that were put into it.** -/
theorem cell?_afterAll (m : Memory size) (requests : List Request) {i : Nat} (hi : i < size) :
    (m.afterAll requests).cell? i = (lastPut? size i requests).or (m.cell? i) := by
  induction requests generalizing m with
  | nil => rfl
  | cons request requests ih =>
    show ((m.after request).afterAll requests).cell? i = _
    rw [ih, cell?_after m request hi, lastPut?, lastPut?]
    cases hputs : request.puts? size i with
    | none => rw [List.filterMap_cons_none hputs]; rfl
    | some value =>
      -- overwritten if any of the later requests puts a byte there
      rw [List.filterMap_cons_some hputs, List.getLast?_cons]
      cases (requests.filterMap (Request.puts? size i)).getLast? <;> rfl

/-- A cell that nothing was put into is zero. -/
theorem cell?_afterAll_zero (requests : List Request) (i : Nat) :
    ((zero : Memory size).afterAll requests).cell? i =
      if i < size then some ((lastPut? size i requests).getD 0) else none := by
  by_cases hi : i < size
  · rw [if_pos hi, cell?_afterAll zero requests hi, cell?_zero, if_pos hi]
    cases lastPut? size i requests <;> rfl
  · rw [if_neg hi, cell?_eq_none_iff]
    exact Nat.le_of_not_lt hi

/-- A request that is rejected leaves the memory as it was. -/
theorem eq_of_carryOut_error {rejection : Rejection} {m' : Memory size}
    (h : request.carryOut m = .error rejection m') : m' = m := by
  by_cases hfits : request.Fits size
  · obtain ⟨m'', hok, -⟩ := m.carryOut_of_fits hfits
    cases hok.symm.trans h
  · obtain ⟨rejection', herror⟩ := m.carryOut_of_not_fits hfits
    cases herror.symm.trans h
    rfl

/-- **The last write wins.**  After any requests to an empty memory, every cell holds the byte that
the last request put there which succeeded and covers the cell, and zero if there is none.  An
address that has a cell reads as that byte, and any other is reported by its number, or peeked at as
nothing.  A write, a block and a program succeed exactly if they fit, and a request that is rejected
changes nothing. -/
theorem last_write_wins (size : Nat) (requests : List Request) :
    (∀ i, ((zero : Memory size).afterAll requests).cell? i =
      if i < size then some ((lastPut? size i requests).getD 0) else none) ∧
    (∀ address : Address,
      ((zero : Memory size).afterAll requests).get? address =
        (if address.toNat < size then some ((lastPut? size address.toNat requests).getD 0)
          else none) ∧
      ((zero : Memory size).afterAll requests).read address =
        if address.toNat < size then .ok ((lastPut? size address.toNat requests).getD 0)
        else .error (.addressOutOfRange address)) ∧
    ∀ (m : Memory size) (request : Request),
      ((∃ m', request.carryOut m = .ok () m') ↔ request.Fits size) ∧
      ∀ rejection m', request.carryOut m = .error rejection m' → m' = m ∧ m.after request = m := by
  refine ⟨cell?_afterAll_zero requests, ?_, ?_⟩
  · intro address
    have hget : ((zero : Memory size).afterAll requests).cell? address.toNat = _ :=
      cell?_afterAll_zero requests address.toNat
    refine ⟨hget, ?_⟩
    rw [read, get?, hget]
    by_cases hcell : address.toNat < size
    · rw [if_pos hcell, if_pos hcell]
    · rw [if_neg hcell, if_neg hcell]
  · intro m request
    refine ⟨carryOut_eq_ok_iff, ?_⟩
    intro rejection m' herror
    have hsame := eq_of_carryOut_error herror
    refine ⟨hsame, ?_⟩
    rw [after, herror]
    exact hsame

/-- Writes to four cells that overlap, among them a block that is too long and a program with a bad
line. -/
def overlapping : List Request :=
  [.fill 9, .writeBlock 1 #[1, 2, 3], .writeBlock 3 #[7, 7], .load "111\n2".toList, .write 2 5,
    .writeBlock 4 #[], .load "# one byte\n11".toList, .write 4 6]

/-- What was rejected is nowhere to be seen. -/
theorem last_write_wins_overlapping :
    ((zero : Memory 4).afterAll overlapping).cell? 0 = some 3 ∧
      ((zero : Memory 4).afterAll overlapping).cell? 1 = some 1 ∧
      ((zero : Memory 4).afterAll overlapping).read 2 = .ok 5 ∧
      ((zero : Memory 4).afterAll overlapping).read 4 = .error (.addressOutOfRange 4) ∧
      (Request.writeBlock 3 #[7, 7]).carryOut (zero : Memory 4) =
        .error (.fault (.addressOutOfRange 4)) zero ∧
      (zero : Memory 4).after (.writeBlock 3 #[7, 7]) = zero := by
  obtain ⟨hcells, hread, hrequests⟩ := last_write_wins 4 overlapping
  have hrejected : (Request.writeBlock 3 #[7, 7]).carryOut (zero : Memory 4) =
      .error (.fault (.addressOutOfRange 4)) zero := rfl
  have hput : lastPut? 4 0 overlapping = some 3 ∧ lastPut? 4 1 overlapping = some 1 ∧
      lastPut? 4 2 overlapping = some 5 := by decide +kernel
  obtain ⟨hzero, hone, htwo⟩ := hput
  refine ⟨?_, ?_, ?_, (hread 4).2, hrejected, ((hrequests zero _).2 _ _ hrejected).2⟩
  · rw [hcells 0, hzero]
    rfl
  · rw [hcells 1, hone]
    rfl
  · rw [(hread 2).2]
    show Except.ok ((lastPut? 4 2 overlapping).getD 0) = _
    rw [htwo]
    rfl

end Memory

end LS8
