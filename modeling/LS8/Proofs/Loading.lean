/-
LS8/Proofs/Loading.lean

The loader reports exactly what is wrong with a program, and otherwise loads
exactly its bytes.

The lines of a text are blank, good or neither.  What is wrong with a line
depends on the lines before it and on nothing else (`flaw?`), and the bytes of
a program are those of its good lines.  The loader goes through the lines with
a count of lines, an address, a mark and a memory; `Loading.Reads` says that
all of these are what the lines taken so far make of them.
-/
import LS8.Program.Loader
import Mathlib.Algebra.Group.Nat.Defs
import Mathlib.Data.List.Basic
import Mathlib.Data.List.Induction

/-! ### Reading digits -/

namespace LS8.Numeral

theorem bit?_of_isBit {c : Char} (h : isBit c = true) :
    ∃ bit ≤ 1, bit? c = some bit ∧ c.toNat - '0'.toNat = bit := by
  rcases Bool.or_eq_true_iff.mp h with h | h
  · obtain rfl := eq_of_beq h
    exact ⟨0, by decide, rfl, rfl⟩
  · obtain rfl := eq_of_beq h
    exact ⟨1, by decide, rfl, rfl⟩

/-- Binary digits are read to the end if the byte has a place for each of them. -/
theorem readDigits_eq_ok {value : Nat} {digits : List Char} (hbits : ∀ c ∈ digits, isBit c = true)
    (hroom : (value + 1) * 2 ^ digits.length ≤ 256) :
    ∃ byte, readDigits value digits = .ok byte ∧
      byte.toNat = Nat.ofDigitChars 2 digits value := by
  induction digits generalizing value with
  | nil =>
    have hlt : value < UInt8.size := by
      rw [List.length_nil, Nat.pow_zero, Nat.mul_one] at hroom
      exact hroom
    exact ⟨value.toUInt8, rfl, UInt8.toNat_ofNat_of_lt' hlt⟩
  | cons c digits ih =>
    obtain ⟨bit, hle, hbit, hvalue⟩ := bit?_of_isBit (hbits c List.mem_cons_self)
    have hroom' : (2 * value + bit + 1) * 2 ^ digits.length ≤ 256 := by
      calc (2 * value + bit + 1) * 2 ^ digits.length
        _ ≤ (2 * (value + 1)) * 2 ^ digits.length := Nat.mul_le_mul_right _ (by omega)
        _ = (value + 1) * 2 ^ (digits.length + 1) := by rw [Nat.pow_succ]; ac_rfl
        _ ≤ 256 := hroom
    have hlt : 2 * value + bit < 256 := by
      have hgrow := Nat.le_mul_of_pos_right (2 * value + bit + 1) (Nat.two_pow_pos digits.length)
      omega
    rw [readDigits, hbit, Nat.ofDigitChars_cons, hvalue]
    simp only [hlt, if_true]
    exact ih (fun c hc => hbits c (List.mem_cons_of_mem _ hc)) hroom'

/-- One to eight binary digits are read as the byte that they denote. -/
theorem readByte_eq_ok {text : List Char} (hne : text ≠ []) (hbits : ∀ c ∈ text, isBit c = true)
    (hlength : text.length ≤ 8) :
    ∃ byte, readByte text = .ok byte ∧ byte.toNat = ofBinary text := by
  have hroom : (0 + 1) * 2 ^ text.length ≤ 256 := by
    have hpow := Nat.pow_le_pow_right (n := 2) (by decide) hlength
    omega
  have hread : readByte text = readDigits 0 text := by
    rcases text with - | ⟨c, text⟩
    · exact absurd rfl hne
    · -- a digit is no sign
      rcases Bool.or_eq_true_iff.mp (hbits c List.mem_cons_self) with hc | hc
      · obtain rfl := eq_of_beq hc
        rfl
      · obtain rfl := eq_of_beq hc
        rfl
  rw [hread]
  exact readDigits_eq_ok hbits hroom

end LS8.Numeral

namespace LS8.Program

/-! ### Lines, and what is wrong with them -/

/-- There is nothing on the line but a comment and white space. -/
def IsBlank (line : List Char) : Prop := content line = []

instance : DecidablePred IsBlank := fun _ => inferInstanceAs (Decidable (_ = _))

/-- The line holds one to eight binary digits. -/
def IsGood (line : List Char) : Prop :=
  1 ≤ (content line).length ∧ (content line).length ≤ 8 ∧ ∀ c ∈ content line, c = '0' ∨ c = '1'

instance : DecidablePred IsGood := fun line =>
  haveI := List.decidableBAll (fun c => c = '0' ∨ c = '1') (content line)
  inferInstanceAs (Decidable (_ ∧ _))

/-- The lines that hold the bytes of a program. -/
def goodLines (lines : List (List Char)) : List (List Char) := lines.filter (IsGood ·)

/-- What is wrong with a line that comes after other lines: a line that is neither blank nor good,
and the good line that comes after `size` others. -/
def flaw? (size : Nat) (before : List (List Char)) (line : List Char) : Option Flaw :=
  if IsBlank line then none
  else if IsGood line then
    if (goodLines before).length = size then
      some ⟨before.length + 1, .tooLarge ⟨size, size⟩⟩
    else none
  else some ⟨before.length + 1, .invalidBinary (.text (content line))⟩

/-- What is wrong with the line with index `i`. -/
def flawAt? (size : Nat) (lines : List (List Char)) (i : Nat) : Option Flaw :=
  lines[i]?.bind (flaw? size (lines.take i))

/-- All that is wrong with a program for a memory of `size` cells, in line order. -/
def flawsOf (size : Nat) (lines : List (List Char)) : List Flaw :=
  (List.range lines.length).filterMap (flawAt? size lines)

variable {size : Nat} {m : Memory size} {l : Loading size} {lines : List (List Char)}
  {line : List Char}

theorem IsGood.not_isBlank (h : IsGood line) : ¬IsBlank line := by
  intro hblank
  have hlength := h.1
  rw [hblank] at hlength
  exact absurd hlength (by decide)

theorem flaw?_of_isBlank (h : IsBlank line) (before : List (List Char)) :
    flaw? size before line = none := if_pos h

theorem flaw?_of_isGood (h : IsGood line) (before : List (List Char)) :
    flaw? size before line =
      if (goodLines before).length = size then some ⟨before.length + 1, .tooLarge ⟨size, size⟩⟩
      else none := by
  rw [flaw?, if_neg h.not_isBlank, if_pos h]

theorem flaw?_of_bad (hblank : ¬IsBlank line) (hgood : ¬IsGood line) (before : List (List Char)) :
    flaw? size before line =
      some ⟨before.length + 1, .invalidBinary (.text (content line))⟩ := by
  rw [flaw?, if_neg hblank, if_neg hgood]

theorem goodLines_append (lines lines' : List (List Char)) :
    goodLines (lines ++ lines') = goodLines lines ++ goodLines lines' := List.filter_append ..

theorem goodLines_of_isGood (h : IsGood line) : goodLines [line] = [line] := by
  simp [goodLines, h]

theorem goodLines_of_not_isGood (h : ¬IsGood line) : goodLines [line] = [] := by
  simp [goodLines, h]

/-- A further line changes nothing about the lines before it. -/
theorem flawsOf_append_singleton (size : Nat) (lines : List (List Char)) (line : List Char) :
    flawsOf size (lines ++ [line]) = flawsOf size lines ++ (flaw? size lines line).toList := by
  have hlast : flawAt? size (lines ++ [line]) lines.length = flaw? size lines line := by
    rw [flawAt?, List.getElem?_concat_length, List.take_left]
    rfl
  have hearlier : ∀ i ∈ List.range lines.length,
      flawAt? size (lines ++ [line]) i = flawAt? size lines i := by
    intro i hi
    have hlt := List.mem_range.mp hi
    rw [flawAt?, flawAt?, List.getElem?_append_left hlt,
      List.take_append_of_le_length (Nat.le_of_lt hlt)]
  rw [flawsOf, List.length_append, List.length_singleton, List.range_succ, List.filterMap_append,
    List.filterMap_congr hearlier, ← hlast]
  rcases hflaw : flawAt? size (lines ++ [line]) lines.length with - | flaw
  · rw [List.filterMap_cons_none hflaw]
    rfl
  · rw [List.filterMap_cons_some hflaw]
    rfl

/-! ### Reading a line -/

theorem read_of_isBlank (h : IsBlank line) : Line.read line = .blank := by
  rw [IsBlank] at h
  simp [Line.read, h]

theorem read_of_isGood (h : IsGood line) :
    ∃ byte, Line.read line = .byte byte ∧ byte.toNat = Numeral.ofBinary (content line) := by
  obtain ⟨hpos, hlength, hbits⟩ := h
  have hne : content line ≠ [] := List.length_pos_iff.mp hpos
  have hbits' : ∀ c ∈ content line, Numeral.isBit c = true := by
    intro c hc
    rcases hbits c hc with rfl | rfl <;> rfl
  obtain ⟨byte, hread, hvalue⟩ := Numeral.readByte_eq_ok hne hbits' hlength
  refine ⟨byte, ?_, hvalue⟩
  have hall : (content line).all Numeral.isBit = true := List.all_eq_true.mpr hbits'
  simp [Line.read, readSpelling, hne, hall, maxDigits, hlength, hread, Except.mapError]

theorem read_of_bad (hblank : ¬IsBlank line) (hgood : ¬IsGood line) :
    Line.read line = .malformed (.text (content line)) := by
  have hne : content line ≠ [] := hblank
  have hcheck :
      ((content line).all Numeral.isBit && (content line).length ≤ maxDigits) = false := by
    by_contra hcheck
    obtain ⟨hall, hlength⟩ := Bool.and_eq_true_iff.mp (Bool.of_not_eq_false hcheck)
    refine hgood ⟨List.length_pos_iff.mpr hne, of_decide_eq_true hlength, ?_⟩
    intro c hc
    simpa [Numeral.isBit] using List.all_eq_true.mp hall c hc
  simp [Line.read, readSpelling, hne, hcheck]

/-! ### Taking lines -/

/-- The state of the loader is what the lines that were taken make of it. -/
structure Loading.Reads (l : Loading size) (m : Memory size) (lines : List (List Char)) : Prop where
  line : l.line = lines.length
  next : l.next = (goodLines lines).length
  overflowed : l.overflowed = decide (size < (goodLines lines).length)
  flaws : l.flaws.toList = flawsOf size lines
  /-- The good lines are in memory, as far as it goes. -/
  bytes : ∀ i line, i < size → (goodLines lines)[i]? = some line →
    ∃ byte, l.memory.cell? i = some byte ∧ byte.toNat = Numeral.ofBinary (content line)
  /-- Behind them memory is as it was. -/
  others : ∀ i, (goodLines lines).length ≤ i → l.memory.cell? i = m.cell? i

namespace Loading

theorem reads_start (m : Memory size) : (start m).Reads m [] where
  line := rfl
  next := rfl
  overflowed := rfl
  flaws := rfl
  bytes := by
    intro i line _ hline
    cases hline
  others := fun _ _ => rfl

/-- A line that is not good holds no byte, but it may be reported. -/
theorem Reads.of_not_isGood {l' : Loading size} (h : l.Reads m lines) (hgood : ¬IsGood line)
    (hline : l'.line = l.line + 1) (hnext : l'.next = l.next)
    (hoverflowed : l'.overflowed = l.overflowed) (hmemory : l'.memory = l.memory)
    (hflaws : l'.flaws.toList = l.flaws.toList ++ (flaw? size lines line).toList) :
    l'.Reads m (lines ++ [line]) := by
  have hlines : goodLines (lines ++ [line]) = goodLines lines := by
    rw [goodLines_append, goodLines_of_not_isGood hgood, List.append_nil]
  refine ⟨?_, ?_, ?_, ?_, ?_, ?_⟩
  · rw [hline, h.line, List.length_append, List.length_singleton]
  · rw [hnext, hlines, h.next]
  · rw [hoverflowed, hlines, h.overflowed]
  · rw [hflaws, h.flaws, flawsOf_append_singleton]
  · rw [hmemory, hlines]
    exact h.bytes
  · rw [hmemory, hlines]
    exact h.others

/-- The next byte goes into memory, if there is a cell for it. -/
theorem cell?_takeByte (l : Loading size) (byte : Byte) (i : Nat) :
    (l.takeByte byte).memory.cell? i =
      if i = l.next ∧ l.next < size then some byte else l.memory.cell? i := by
  rw [takeByte]
  dsimp only
  split
  · exact Memory.cell?_place l.memory l.next byte i
  · next hroom =>
    have hunplaced : ¬(i = l.next ∧ l.next < size) := fun hplaced => hroom hplaced.2
    rw [if_neg hunplaced]
    split <;> rfl

@[simp] theorem line_takeByte (l : Loading size) (byte : Byte) :
    (l.takeByte byte).line = l.line := by
  rw [takeByte]
  dsimp only
  split
  · rfl
  · split <;> rfl

@[simp] theorem next_takeByte (l : Loading size) (byte : Byte) :
    (l.takeByte byte).next = l.next + 1 := by
  rw [takeByte]
  dsimp only
  split
  · rfl
  · split <;> rfl

theorem overflowed_takeByte (l : Loading size) (byte : Byte) :
    (l.takeByte byte).overflowed = (l.overflowed || decide (size ≤ l.next)) := by
  rw [takeByte]
  dsimp only
  split
  · next hroom => simp [Nat.not_le_of_lt hroom]
  · next hroom =>
    have hfull := Nat.le_of_not_lt hroom
    split <;> simp_all [report]

theorem flaws_takeByte (l : Loading size) (byte : Byte) :
    (l.takeByte byte).flaws.toList = l.flaws.toList ++
      if size ≤ l.next ∧ l.overflowed = false then [⟨l.line, .tooLarge ⟨l.next, size⟩⟩]
      else [] := by
  rw [takeByte]
  dsimp only
  split
  · next hroom => simp [Nat.not_le_of_lt hroom]
  · next hroom =>
    have hfull := Nat.le_of_not_lt hroom
    split <;> simp_all [report]

theorem Reads.mark (h : l.Reads m lines) : l.overflowed = decide (size < l.next) := by
  rw [h.overflowed, h.next]

/-- The first byte without a cell is the one at the end of memory. -/
theorem Reads.flaws_of_isGood (h : l.Reads m lines) (hgood : IsGood line) (byte : Byte) :
    (takeByte { l with line := l.line + 1 } byte).flaws.toList =
      flawsOf size (lines ++ [line]) := by
  have hfirst : (size ≤ l.next ∧ l.overflowed = false) ↔ l.next = size := by
    rw [h.mark, decide_eq_false_iff_not]
    omega
  rw [flaws_takeByte, flawsOf_append_singleton, flaw?_of_isGood hgood, ← h.next, ← h.line]
  dsimp only
  rw [h.flaws]
  by_cases hsize : l.next = size
  · rw [if_pos hsize, if_pos (hfirst.mpr hsize), hsize]
    rfl
  · rw [if_neg hsize, if_neg fun hover => hsize (hfirst.mp hover)]
    rfl

/-- A byte goes behind those of the lines before. -/
theorem Reads.bytes_of_isGood (h : l.Reads m lines) {byte : Byte}
    (hbyte : byte.toNat = Numeral.ofBinary (content line)) {i : Nat} {line' : List Char}
    (hi : i < size) (hline' : (goodLines lines ++ [line])[i]? = some line') :
    ∃ byte', (takeByte { l with line := l.line + 1 } byte).memory.cell? i = some byte' ∧
      byte'.toNat = Numeral.ofBinary (content line') := by
  rw [cell?_takeByte]
  dsimp only
  by_cases hnext : i = l.next
  · subst hnext
    rw [h.next, List.getElem?_concat_length] at hline'
    obtain rfl := Option.some.inj hline'
    exact ⟨byte, if_pos ⟨rfl, hi⟩, hbyte⟩
  · -- one of the earlier lines, which the byte has not overwritten
    have hlt : i < (goodLines lines).length := by
      have hbound := (List.getElem?_eq_some_iff.mp hline').1
      rw [List.length_append, List.length_singleton, ← h.next] at hbound
      rw [← h.next]
      omega
    rw [List.getElem?_append_left hlt] at hline'
    rw [if_neg fun hplaced => hnext hplaced.1]
    exact h.bytes i line' hi hline'

/-- A good line holds the next byte. -/
theorem Reads.of_isGood (h : l.Reads m lines) (hgood : IsGood line) {byte : Byte}
    (hbyte : byte.toNat = Numeral.ofBinary (content line)) :
    Loading.Reads (takeByte { l with line := l.line + 1 } byte) m (lines ++ [line]) := by
  have hlines : goodLines (lines ++ [line]) = goodLines lines ++ [line] := by
    rw [goodLines_append, goodLines_of_isGood hgood]
  have hlength : (goodLines (lines ++ [line])).length = l.next + 1 := by
    rw [hlines, List.length_append, List.length_singleton, h.next]
  refine ⟨?_, ?_, ?_, h.flaws_of_isGood hgood byte, ?_, ?_⟩
  · rw [line_takeByte, h.line, List.length_append, List.length_singleton]
  · rw [next_takeByte, hlength]
  · rw [overflowed_takeByte, hlength, h.mark, ← Bool.decide_or, decide_eq_decide]
    dsimp only
    omega
  · intro i line' hi hline'
    rw [hlines] at hline'
    exact h.bytes_of_isGood hbyte hi hline'
  · intro i hi
    rw [hlength] at hi
    rw [cell?_takeByte]
    dsimp only
    rw [if_neg (by omega)]
    exact h.others i (by rw [← h.next]; omega)

/-- **A line is taken as it is.** -/
theorem Reads.takeLine (h : l.Reads m lines) (line : List Char) :
    (l.takeLine line).Reads m (lines ++ [line]) := by
  by_cases hblank : IsBlank line
  · -- the line is only counted
    have hgood : ¬IsGood line := fun hgood => hgood.not_isBlank hblank
    rw [Loading.takeLine, read_of_isBlank hblank]
    refine h.of_not_isGood hgood rfl rfl rfl rfl ?_
    rw [flaw?_of_isBlank hblank]
    exact (List.append_nil _).symm
  · by_cases hgood : IsGood line
    · obtain ⟨byte, hread, hbyte⟩ := read_of_isGood hgood
      rw [Loading.takeLine, hread]
      exact h.of_isGood hgood hbyte
    · -- the line is counted and reported, and takes no address
      rw [Loading.takeLine, read_of_bad hblank hgood]
      refine h.of_not_isGood hgood rfl rfl rfl rfl ?_
      rw [flaw?_of_bad hblank hgood, ← h.line]
      exact Array.toList_push

/-- Taking the lines of a text takes all of them. -/
theorem reads_takeText (m : Memory size) (text : List Char) :
    ((start m).takeText text).Reads m (Text.lines text) := by
  rw [takeText]
  induction Text.lines text using List.reverseRecOn with
  | nil => exact reads_start m
  | append_singleton lines line ih =>
    rw [List.foldl_append]
    exact ih.takeLine line

end Loading

/-! ### The program -/

/-- The digits of a line that was checked can always be read. -/
theorem read_ne_digits (line : List Char) (failure : Numeral.Failure) :
    Line.read line ≠ .malformed (.digits failure) := by
  intro h
  by_cases hblank : IsBlank line
  · cases (read_of_isBlank hblank).symm.trans h
  · by_cases hgood : IsGood line
    · obtain ⟨byte, hread, -⟩ := read_of_isGood hgood
      cases hread.symm.trans h
    · cases (read_of_bad hblank hgood).symm.trans h

/-- Memory is found too small once, if it is too small. -/
theorem countP_tooLarge (size : Nat) (lines : List (List Char)) :
    (flawsOf size lines).countP (·.cause = .tooLarge ⟨size, size⟩) =
      if size < (goodLines lines).length then 1 else 0 := by
  induction lines using List.reverseRecOn with
  | nil => rfl
  | append_singleton lines line ih =>
    rw [flawsOf_append_singleton, List.countP_append, ih, goodLines_append]
    by_cases hblank : IsBlank line
    · have hgood : ¬IsGood line := fun hgood => hgood.not_isBlank hblank
      rw [flaw?_of_isBlank hblank, goodLines_of_not_isGood hgood, List.append_nil]
      rfl
    · by_cases hgood : IsGood line
      · rw [flaw?_of_isGood hgood, goodLines_of_isGood hgood, List.length_append,
          List.length_singleton]
        -- memory has room, is full, or was found too small before
        rcases Nat.lt_trichotomy (goodLines lines).length size with hlt | heq | hgt
        · rw [if_neg (by omega), if_neg (by omega), if_neg (by omega)]
          rfl
        · rw [if_neg (by omega), if_pos heq, if_pos (by omega)]
          simp
        · rw [if_pos hgt, if_neg (by omega), if_pos (by omega)]
          rfl
      · rw [flaw?_of_bad hblank hgood, goodLines_of_not_isGood hgood, List.append_nil]
        simp

/-- A program with nothing wrong fits into memory. -/
theorem length_goodLines_le (h : flawsOf size lines = []) : (goodLines lines).length ≤ size := by
  have hcount := countP_tooLarge size lines
  rw [h] at hcount
  by_contra hlarge
  rw [if_pos (Nat.lt_of_not_le hlarge)] at hcount
  cases hcount

/-- **Loading is exact.**  If anything is wrong with the lines of a text, all of it is returned and
recorded, in line order, and among it that memory is too small exactly if there are more good lines
than cells.  Otherwise the good lines are in memory, in order, the rest of memory is as it was, and
the length of the program is recorded.  No line that passes the check fails to be read. -/
theorem load_exact (m : Memory size) (text : List Char) :
    (flawsOf size (Text.lines text) ≠ [] →
      load m text = .error (flawsOf size (Text.lines text)) ∧
      (recorded m text).map (fun record => (record.level, record.text)) =
        (flawsOf size (Text.lines text)).map fun flaw => (.error, flaw.message)) ∧
    (flawsOf size (Text.lines text) = [] →
      (∃ loaded, load m text = .ok loaded ∧
        loaded.count = (goodLines (Text.lines text)).length ∧
        (∀ i line, (goodLines (Text.lines text))[i]? = some line → ∃ byte,
          loaded.memory.cell? i = some byte ∧ byte.toNat = Numeral.ofBinary (content line)) ∧
        ∀ i, (goodLines (Text.lines text)).length ≤ i → loaded.memory.cell? i = m.cell? i) ∧
      (recorded m text).map (fun record => (record.level, record.text)) =
        [(.debug, s!"Loaded {(goodLines (Text.lines text)).length} bytes")]) ∧
    (flawsOf size (Text.lines text)).countP (·.cause = .tooLarge ⟨size, size⟩) =
      (if size < (goodLines (Text.lines text)).length then 1 else 0) ∧
    ∀ line failure, Line.read line ≠ .malformed (.digits failure) := by
  have hreads := Loading.reads_takeText m text
  refine ⟨?_, ?_, countP_tooLarge size _, read_ne_digits⟩
  · -- something is wrong
    intro hflaws
    have hload : load m text = .error (flawsOf size (Text.lines text)) := by
      rw [load, Loading.finish, ← hreads.flaws]
      refine if_neg ?_
      intro hempty
      rw [← hreads.flaws, Array.isEmpty_iff.mp hempty] at hflaws
      exact hflaws rfl
    refine ⟨hload, ?_⟩
    rw [recorded_eq, hload, loadRecords, List.map_map]
    rfl
  · -- nothing is wrong, so the program fits
    intro hflaws
    have hempty : ((Loading.start m).takeText text).flaws.isEmpty = true := by
      rw [Array.isEmpty_iff, ← Array.toList_eq_nil_iff, hreads.flaws]
      exact hflaws
    have hload : load m text = .ok ⟨((Loading.start m).takeText text).memory,
        ((Loading.start m).takeText text).next⟩ := by
      rw [load, Loading.finish, if_pos hempty]
    refine ⟨⟨_, hload, hreads.next, ?_, hreads.others⟩, ?_⟩
    · intro i line hline
      have hlt := (List.getElem?_eq_some_iff.mp hline).1
      exact hreads.bytes i line (Nat.lt_of_lt_of_le hlt (length_goodLines_le hflaws)) hline
    · rw [recorded_eq, hload, loadRecords, hreads.next]
      rfl

/-- Four bytes, a comment, a blank line, and a line that is neither. -/
def crowded : List Char := "1 # one\n2\n\n11\n0\n1".toList

/-- Two bytes. -/
def sparse : List Char := "1\n\n00000011\n".toList

/-- Two cells are too small for `crowded`, which has a bad line as well; `sparse` leaves the last of
three cells alone. -/
theorem load_exact_crowded_sparse :
    load (Memory.zero : Memory 2) crowded =
      .error [⟨2, .invalidBinary (.text ['2'])⟩, ⟨5, .tooLarge ⟨2, 2⟩⟩] ∧
    ∃ loaded, load ((Memory.zero : Memory 3).fill 9) sparse = .ok loaded ∧ loaded.count = 2 ∧
      (∃ byte, loaded.memory.cell? 1 = some byte ∧ byte.toNat = 3) ∧
      loaded.memory.cell? 2 = some 9 := by
  have hcrowded : flawsOf 2 (Text.lines crowded) =
      [⟨2, .invalidBinary (.text ['2'])⟩, ⟨5, .tooLarge ⟨2, 2⟩⟩] := by decide +kernel
  have hsparse : flawsOf 3 (Text.lines sparse) = [] := by decide +kernel
  have hgood : goodLines (Text.lines sparse) = ["1".toList, "00000011".toList] := by decide +kernel
  obtain ⟨hflawed, -⟩ := load_exact (Memory.zero : Memory 2) crowded
  obtain ⟨-, hsound, -⟩ := load_exact ((Memory.zero : Memory 3).fill 9) sparse
  obtain ⟨⟨loaded, hload, hcount, hbytes, hothers⟩, -⟩ := hsound hsparse
  rw [hcrowded] at hflawed
  rw [hgood] at hcount hbytes hothers
  refine ⟨(hflawed (List.cons_ne_nil _ _)).1, loaded, hload, hcount, ?_, hothers 2 (Nat.le_refl 2)⟩
  obtain ⟨byte, hcell, hbyte⟩ := hbytes 1 _ rfl
  refine ⟨byte, hcell, hbyte.trans ?_⟩
  decide +kernel

end LS8.Program
