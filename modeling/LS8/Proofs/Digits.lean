/-
LS8/Proofs/Digits.lean

What numerals are made of, and how hexadecimal ones are read.

The characters of a numeral are the digits of its base
(`exists_digit_of_mem_toDigits`), so a numeral has no blanks and no signs in it,
and they are its digits to the base in reverse (`toDigits_eq_digits`).
`ofHex_hex` says that upper-case hexadecimal digits determine the number, however
many zeros stand in front, and `append_flatMap_eq_intercalate` that bytes in a row
are words with single spaces between them, which `List.splitOn` takes apart.
-/
import LS8.Text.Numeral
import Mathlib.Data.Nat.Digits.Defs

namespace LS8.Numeral

/-- A numeral is made of the digits of its base. -/
theorem exists_digit_of_mem_toDigits {b n : Nat} {c : Char} (hb : 1 < b)
    (h : c ∈ Nat.toDigits b n) : ∃ d < b, c = Nat.digitChar d := by
  induction n using Nat.strongRecOn with
  | ind n ih =>
    by_cases hn : n < b
    · rw [Nat.toDigits_of_lt_base hn, List.mem_singleton] at h
      exact ⟨n, hn, h⟩
    · have hle : b ≤ n := Nat.le_of_not_lt hn
      have hpos : 0 < b := Nat.lt_of_succ_lt hb
      rw [Nat.toDigits_of_base_le hb hle, List.mem_append, List.mem_singleton] at h
      rcases h with h | h
      · exact ih (n / b) (Nat.div_lt_self (Nat.lt_of_lt_of_le hpos hle) hb) h
      · exact ⟨n % b, Nat.mod_lt n hpos, h⟩

/-- A numeral is the digits to its base, the most significant one first.  The one digit of zero is
left out of these. -/
theorem toDigits_eq_digits {b n : Nat} (hb : 1 < b) (hn : n ≠ 0) :
    Nat.toDigits b n = (Nat.digits b n).reverse.map Nat.digitChar := by
  induction n using Nat.strongRecOn with
  | ind n ih =>
    rw [Nat.digits_def' hb (Nat.pos_of_ne_zero hn), List.reverse_cons, List.map_append]
    by_cases hsmall : n < b
    · rw [Nat.toDigits_of_lt_base hsmall, Nat.div_eq_of_lt hsmall, Nat.mod_eq_of_lt hsmall,
        Nat.digits_zero]
      rfl
    · have hle : b ≤ n := Nat.le_of_not_lt hsmall
      have hless : n / b < n := Nat.div_lt_self (Nat.pos_of_ne_zero hn) hb
      have hquotient : n / b ≠ 0 := Nat.ne_of_gt (Nat.div_pos hle (Nat.lt_of_succ_lt hb))
      rw [Nat.toDigits_of_base_le hb hle, ih (n / b) hless hquotient]
      rfl

/-- Filled up with zeros, a numeral is the digits to its base for zero as well. -/
theorem leftpad_toDigits {b width n : Nat} (hb : 1 < b) (hwidth : 0 < width) (f : Char → Char)
    (hf : f '0' = '0') :
    ((Nat.toDigits b n).map f).leftpad width '0' =
      ((Nat.digits b n).reverse.map (f ∘ Nat.digitChar)).leftpad width '0' := by
  by_cases hn : n = 0
  · -- the one digit of zero is as good as a zero in front
    obtain ⟨k, rfl⟩ := Nat.exists_eq_add_of_lt hwidth
    subst hn
    simp [List.leftpad, hf, ← List.replicate_succ']
  · rw [toDigits_eq_digits hb hn, List.map_map]

/-- Binary digits are the digits to base 2, the most significant one first. -/
theorem binary_eq_digits {width : Nat} (hwidth : 0 < width) (n : Nat) :
    binary width n = ((Nat.digits 2 n).reverse.map Nat.digitChar).leftpad width '0' := by
  have h := leftpad_toDigits (n := n) (by decide : 1 < 2) hwidth id rfl
  rwa [List.map_id] at h

/-! ### Hexadecimal digits -/

/-- The number that an upper-case hexadecimal digit denotes; 16 if the character is none. -/
def hexDigit (c : Char) : Nat := "0123456789ABCDEF".toList.idxOf c

/-- The number that a list of upper-case hexadecimal digits denotes. -/
def ofHex (digits : List Char) : Nat := digits.foldl (fun n c => 16 * n + hexDigit c) 0

theorem hexDigit_digitChar {d : Nat} (hd : d < 16) : hexDigit (Nat.digitChar d).toUpper = d := by
  revert d
  decide

theorem ofHex_concat (digits : List Char) (c : Char) :
    ofHex (digits ++ [c]) = 16 * ofHex digits + hexDigit c := by
  rw [ofHex, List.foldl_append]
  rfl

/-- Leading zeros do not count. -/
theorem ofHex_replicate_zero_append (k : Nat) (digits : List Char) :
    ofHex (List.replicate k '0' ++ digits) = ofHex digits := by
  induction k with
  | zero => rfl
  | succ k ih => exact ih

theorem ofHex_map_toUpper_toDigits (n : Nat) :
    ofHex ((Nat.toDigits 16 n).map Char.toUpper) = n := by
  induction n using Nat.strongRecOn with
  | ind n ih =>
    by_cases hn : n < 16
    · rw [Nat.toDigits_of_lt_base hn]
      exact (Nat.zero_add _).trans (hexDigit_digitChar hn)
    · have hle : 16 ≤ n := Nat.le_of_not_lt hn
      rw [Nat.toDigits_of_base_le (by decide) hle, List.map_append, List.map_singleton,
        ofHex_concat, ih (n / 16) (by omega), hexDigit_digitChar (Nat.mod_lt n (by decide))]
      exact Nat.div_add_mod n 16

/-- **Hexadecimal digits determine the number, whatever their width.** -/
theorem ofHex_hex (width n : Nat) : ofHex (hex width n) = n := by
  rw [hex, List.leftpad, ofHex_replicate_zero_append, ofHex_map_toUpper_toDigits]

theorem hexDigit_lt_of_mem_hex {width n : Nat} {c : Char} (h : c ∈ hex width n) :
    hexDigit c < 16 := by
  rw [hex, List.leftpad, List.mem_append] at h
  rcases h with h | h
  · rw [List.eq_of_mem_replicate h]
    decide
  · obtain ⟨lower, hlower, rfl⟩ := List.mem_map.mp h
    obtain ⟨d, hd, rfl⟩ := exists_digit_of_mem_toDigits (by decide) hlower
    rw [hexDigit_digitChar hd]
    exact hd

theorem notMem_hex {c : Char} (hc : ¬hexDigit c < 16) (width n : Nat) : c ∉ hex width n :=
  fun h => hc (hexDigit_lt_of_mem_hex h)

theorem space_notMem_hex (width n : Nat) : ' ' ∉ hex width n := notMem_hex (by decide) width n

/-- The upper-case hexadecimal digit for a number below 16. -/
def upperDigit (d : Nat) : Char := "0123456789ABCDEF".toList.getD d '0'

theorem toUpper_digitChar {d : Nat} (hd : d < 16) : (Nat.digitChar d).toUpper = upperDigit d := by
  revert d
  decide

/-- Upper-case hexadecimal digits are the digits to base 16, the most significant one first. -/
theorem hex_eq_digits {width : Nat} (hwidth : 0 < width) (n : Nat) :
    hex width n = ((Nat.digits 16 n).reverse.map upperDigit).leftpad width '0' := by
  rw [hex, leftpad_toDigits (by decide) hwidth Char.toUpper rfl]
  congr 1
  apply List.map_congr_left
  intro d hd
  exact toUpper_digitChar (Nat.digits_lt_base (by decide) (List.mem_reverse.mp hd))

/-! ### Bytes in a row -/

/-- A byte as two hexadecimal digits. -/
def hexWord (byte : Byte) : List Char := hex 2 byte.toNat

/-- The byte that hexadecimal digits denote. -/
def ofHexWord (word : List Char) : Byte := (ofHex word).toUInt8

theorem space_notMem_hexWord (byte : Byte) : ' ' ∉ hexWord byte := space_notMem_hex _ _

/-- Two hexadecimal digits are enough for a byte. -/
theorem hexWord_eq (byte : Byte) :
    hexWord byte = [upperDigit (byte.toNat / 16), upperDigit (byte.toNat % 16)] := by
  have hlt := byte.toNat_lt
  have hhigh : byte.toNat / 16 < 16 := by omega
  have hlow : byte.toNat % 16 < 16 := Nat.mod_lt _ (by decide)
  rw [hexWord, hex]
  by_cases hsmall : byte.toNat < 16
  · rw [Nat.toDigits_of_lt_base hsmall, Nat.div_eq_of_lt hsmall, Nat.mod_eq_of_lt hsmall,
      ← toUpper_digitChar hsmall]
    rfl
  · have hle : 16 ≤ byte.toNat := Nat.le_of_not_lt hsmall
    rw [Nat.toDigits_of_base_le (by decide) hle, Nat.toDigits_of_lt_base hhigh,
      ← toUpper_digitChar hhigh, ← toUpper_digitChar hlow]
    rfl

theorem ofHexWord_hexWord (byte : Byte) : ofHexWord (hexWord byte) = byte := by
  rw [ofHexWord, hexWord, ofHex_hex]
  exact UInt8.ofNat_toNat

theorem map_ofHexWord_map_hexWord (bytes : List Byte) :
    (bytes.map hexWord).map ofHexWord = bytes := by
  rw [List.map_map]
  exact List.map_id'' ofHexWord_hexWord _

theorem hexBytes_eq_flatMap (bytes : List Byte) :
    hexBytes bytes = (bytes.map hexWord).flatMap (' ' :: ·) := by
  rw [List.flatMap_map]
  rfl

/-- A word and more words behind it, each behind a space, are a line with spaces between. -/
theorem append_flatMap_eq_intercalate (word : List Char) (words : List (List Char)) :
    word ++ words.flatMap (' ' :: ·) = [' '].intercalate (word :: words) := by
  induction words generalizing word with
  | nil => simp
  | cons next words ih => simp [List.intercalate_cons_cons, ← ih]

end LS8.Numeral
