/-
LS8/Proofs/Snapshot.lean

The line of a snapshot can be read back.

A line is a row of words with a space between each two of them.  No word has a
space in it, however many digits the program counter takes, so the line gives
back its words (`Snapshot.splitOn_line`), and hexadecimal digits give back their
number (`Numeral.ofHex_hex`).  So the line determines the snapshot
(`Snapshot.ofLine_eq_some_iff`), and the snapshot has the bytes that a cycle fetches,
although it reads them in a way of its own.
-/
import LS8.Proofs.Digits
import LS8.Proofs.Fetch

namespace LS8

/-! ### The words of a line -/

open Numeral (hexWord ofHexWord)

namespace Snapshot

/-- What the line of a snapshot has between its spaces. -/
def words (s : Snapshot) : List (List Char) :=
  "TRACE:".toList :: Numeral.hex 2 s.pc.toNat :: ['|'] :: hexWord s.bytes.code ::
    hexWord s.bytes.a :: hexWord s.bytes.b :: ['|'] :: s.registers.toList.map hexWord

/-- The snapshot that words spell, whatever stands in the places of the label and the bars. -/
def ofWords : List (List Char) → Option Snapshot
  | _ :: pc :: _ :: code :: a :: b :: _ :: registers =>
    if h : registers.length = 8 then
      some ⟨(Numeral.ofHex pc).toUInt16, ⟨ofHexWord code, ofHexWord a, ofHexWord b⟩,
        ⟨⟨(registers.map ofHexWord).toArray, by simp [h]⟩⟩⟩
    else none
  | _ => none

/-- The snapshot that a line shows, if it is the line of one. -/
def ofLine (line : List Char) : Option Snapshot :=
  (ofWords (line.splitOn ' ')).filter (·.line = line)

theorem line_eq_intercalate (s : Snapshot) : s.line = [' '].intercalate s.words := by
  have hline : s.line = "TRACE:".toList ++ ' ' :: Numeral.hex 2 s.pc.toNat ++ [' ', '|'] ++
      Numeral.hexBytes [s.bytes.code, s.bytes.a, s.bytes.b] ++ [' ', '|'] ++
      Numeral.hexBytes s.registers.toList := rfl
  rw [hline, Numeral.hexBytes_eq_flatMap, Numeral.hexBytes_eq_flatMap, words,
    ← Numeral.append_flatMap_eq_intercalate]
  simp only [List.map_cons, List.map_nil, List.flatMap_cons, List.flatMap_nil, List.append_assoc,
    List.cons_append, List.nil_append]

theorem space_notMem_words (s : Snapshot) : ∀ word ∈ s.words, ' ' ∉ word := by
  have hbyte := Numeral.space_notMem_hexWord
  rw [words]
  simp only [List.forall_mem_cons]
  refine ⟨by decide, Numeral.space_notMem_hex _ _, by decide, hbyte _, hbyte _, hbyte _,
    by decide, ?_⟩
  intro word hword
  obtain ⟨byte, -, rfl⟩ := List.mem_map.mp hword
  exact hbyte byte

/-- **A line gives back its words.** -/
theorem splitOn_line (s : Snapshot) : s.line.splitOn ' ' = s.words := by
  rw [line_eq_intercalate]
  exact List.splitOn_intercalate ' ' s.space_notMem_words (List.cons_ne_nil _ _)

theorem ofWords_words (s : Snapshot) : ofWords s.words = some s := by
  have hlength : (s.registers.toList.map hexWord).length = 8 := by
    simp [Registers.toList]
  have hpc : (Numeral.ofHex (Numeral.hex 2 s.pc.toNat)).toUInt16 = s.pc := by
    rw [Numeral.ofHex_hex]
    exact UInt16.ofNat_toNat
  rw [words, ofWords, dif_pos hlength]
  simp only [hpc, Numeral.ofHexWord_hexWord, Numeral.map_ofHexWord_map_hexWord]
  rfl

/-- **A line gives back its snapshot, and nothing else reads as that snapshot.** -/
theorem ofLine_eq_some_iff {line : List Char} {s : Snapshot} :
    ofLine line = some s ↔ s.line = line := by
  rw [ofLine, Option.filter_eq_some_iff, decide_eq_true_iff]
  refine ⟨And.right, ?_⟩
  rintro rfl
  refine ⟨?_, rfl⟩
  rw [splitOn_line, ofWords_words]

theorem line_inj {s t : Snapshot} : s.line = t.line ↔ s = t := by
  constructor
  · intro h
    have hs := ofLine_eq_some_iff.mpr h
    have ht := ofLine_eq_some_iff.mpr (Eq.refl t.line)
    exact Option.some.inj (hs.symm.trans ht)
  · exact congrArg line

end Snapshot

/-! ### The line of a machine -/

/-- Machines look the same if they agree on where they stand, the bytes there and the registers. -/
theorem Machine.snapshot_eq_iff {m n : Machine} :
    m.snapshot = n.snapshot ↔
      m.pc = n.pc ∧ (∀ k < 3, m.byte k = n.byte k) ∧ m.registers = n.registers := by
  constructor
  · intro h
    have hbytes : (⟨m.byte 0, m.byte 1, m.byte 2⟩ : Fetched) = ⟨n.byte 0, n.byte 1, n.byte 2⟩ :=
      congrArg Snapshot.bytes h
    obtain ⟨h0, h1, h2⟩ := Fetched.mk.inj hbytes
    refine ⟨congrArg Snapshot.pc h, ?_, congrArg Snapshot.registers h⟩
    intro k hk
    match k with
    | 0 => exact h0
    | 1 => exact h1
    | 2 => exact h2
  · rintro ⟨hpc, hbytes, hregisters⟩
    show Snapshot.mk m.pc ⟨m.byte 0, m.byte 1, m.byte 2⟩ m.registers =
      ⟨n.pc, ⟨n.byte 0, n.byte 1, n.byte 2⟩, n.registers⟩
    rw [hpc, hbytes 0 (by decide), hbytes 1 (by decide), hbytes 2 (by decide), hregisters]

theorem Machine.byte_of_le {m : Machine} {k : Nat} (h : ramSize ≤ m.pc.toNat + k) :
    m.byte k = 0 := by
  rw [byte, (m.memory.cell?_eq_none_iff _).mpr h]
  rfl

/-- **The line of a machine tells what its cycle decodes, and can be read back.**  Wherever the
program counter stands, the line has the words of the snapshot, and it alone reads as that snapshot.
If the cycle can fetch, the three bytes that it decodes are those between the bars, zero past the
end of memory.  And two machines have the same line just if they agree on the program counter, on
the three bytes from there on, and on the registers. -/
theorem snapshot_line_tells (m : Machine) :
    m.snapshot.line.splitOn ' ' = m.snapshot.words ∧
    (∀ line, Snapshot.ofLine line = some m.snapshot ↔ m.snapshot.line = line) ∧
    (∀ k, ramSize ≤ m.pc.toNat + k → m.byte k = 0) ∧
    (∀ fetched, m.fetch = .ok fetched →
      fetched = ⟨m.byte 0, m.byte 1, m.byte 2⟩ ∧
      ((m.snapshot.line.splitOn ' ').drop 3).take 3 =
        [fetched.code, fetched.a, fetched.b].map hexWord) ∧
    ∀ n : Machine, m.snapshot.line = n.snapshot.line ↔
      m.pc = n.pc ∧ (∀ k < 3, m.byte k = n.byte k) ∧ m.registers = n.registers := by
  refine ⟨m.snapshot.splitOn_line, fun _ => Snapshot.ofLine_eq_some_iff,
    fun _ => Machine.byte_of_le, ?_, ?_⟩
  · intro fetched hfetch
    obtain ⟨-, -, rfl⟩ := Machine.fetch_eq_ok_iff.mp hfetch
    refine ⟨m.snapshot_bytes, ?_⟩
    rw [Snapshot.splitOn_line]
    rfl
  · intro n
    rw [Snapshot.line_inj, Machine.snapshot_eq_iff]

/-- A machine before a halt in the last cell. -/
def brink : Machine := { Machine.boot (Memory.zero.place 255 1) with pc := 255 }

/-- The operands of the halt have no cells, and neither has the last address of all. -/
theorem snapshot_line_tells_brink :
    brink.fetch = .ok ⟨1, 0, 0⟩ ∧
    ((brink.snapshot.line.splitOn ' ').drop 3).take 3 =
      ["01".toList, "00".toList, "00".toList] ∧
    (∀ k, Machine.byte { brink with pc := 0xFFFF } k = 0) ∧
    brink.snapshot.line ≠ { brink with pc := 0xFFFF : Machine }.snapshot.line := by
  obtain ⟨-, -, -, hfetched, hsame⟩ := snapshot_line_tells brink
  obtain ⟨-, -, hzero, -, -⟩ := snapshot_line_tells { brink with pc := 0xFFFF }
  have hfetch : brink.fetch = .ok ⟨1, 0, 0⟩ :=
    Machine.fetch_eq_ok_iff.mpr ⟨by decide, by decide +kernel, by decide +kernel⟩
  refine ⟨hfetch, (hfetched _ hfetch).2.trans (by decide), ?_, ?_⟩
  · intro k
    exact hzero k (Nat.le_trans (by decide) (Nat.le_add_right _ k))
  · intro hline
    cases ((hsame _).mp hline).1

/-- A machine at the last address of all has a line. -/
example : ({ Machine.boot Memory.zero with pc := 0xFFFF } : Machine).snapshot.line =
    "TRACE: FFFF | 00 00 00 | 00 00 00 00 00 00 00 F4".toList := by decide +kernel

end LS8
