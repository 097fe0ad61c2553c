/-
LS8/Text/Numeral.lean

Numbers as digits.  Everything the machine shows is decimal, upper-case
hexadecimal of a least width, lower-case hexadecimal, or binary of a least
width; a program file holds binary numbers.  `ofBinary_binary` and
`ofDecimal_decimal` say that the digits determine the number.
-/
import LS8.Word

namespace LS8.Numeral

/-! ### Writing -/

/-- The decimal digits of `n`, without leading zeros. -/
def decimal (n : Nat) : List Char := Nat.toDigits 10 n

/-- The lower-case hexadecimal digits of `n`, without leading zeros. -/
def lowerHex (n : Nat) : List Char := Nat.toDigits 16 n

/-- The upper-case hexadecimal digits of `n`, filled up with zeros to at least `width` of them. -/
def hex (width n : Nat) : List Char :=
  ((Nat.toDigits 16 n).map Char.toUpper).leftpad width '0'

/-- The binary digits of `n`, filled up with zeros to at least `width` of them. -/
def binary (width n : Nat) : List Char := (Nat.toDigits 2 n).leftpad width '0'

/-- Bytes as two upper-case hexadecimal digits each, each behind a space. -/
def hexBytes (bytes : List Byte) : List Char := bytes.flatMap fun byte => ' ' :: hex 2 byte.toNat

/-! ### Reading -/

/-- Is `c` a binary digit? -/
def isBit (c : Char) : Bool := c == '0' || c == '1'

/-- The number that a list of binary digits denotes. -/
def ofBinary (digits : List Char) : Nat := Nat.ofDigitChars 2 digits 0

/-- The number that a list of decimal digits denotes. -/
def ofDecimal (digits : List Char) : Nat := Nat.ofDigitChars 10 digits 0

/-- The binary digit that `c` is. -/
def bit? (c : Char) : Option Nat :=
  if c = '0' then some 0 else if c = '1' then some 1 else none

/-- Why a text is not the number of a byte. -/
inductive Failure where
  /-- There is nothing to read. -/
  | empty
  /-- There is a character that is no digit. -/
  | invalidDigit
  /-- The number does not fit into a byte. -/
  | tooLarge
  deriving DecidableEq, Repr

/-- The text of a failure to read a number. -/
def Failure.message : Failure → String
  | .empty => "cannot parse integer from empty string"
  | .invalidDigit => "invalid digit found in string"
  | .tooLarge => "number too large to fit in target type"

/-- Read binary digits behind digits that denote `value`, as far as the number fits into a byte. -/
def readDigits (value : Nat) : List Char → Except Failure Byte
  | [] => .ok value.toUInt8
  | c :: rest =>
    match bit? c with
    | none => .error .invalidDigit
    | some bit =>
      if 2 * value + bit < 256 then readDigits (2 * value + bit) rest else .error .tooLarge

/-- Read the binary number of a byte, which may have a plus sign in front. -/
def readByte : List Char → Except Failure Byte
  | [] => .error .empty
  | ['+'] | ['-'] => .error .invalidDigit
  | '+' :: digits => readDigits 0 digits
  | digits => readDigits 0 digits

/-- Leading zeros do not count. -/
theorem ofBinary_replicate_zero_append (k : Nat) (digits : List Char) :
    ofBinary (List.replicate k '0' ++ digits) = ofBinary digits := by
  simp [ofBinary, Nat.ofDigitChars_append]

theorem ofBinary_binary (width n : Nat) : ofBinary (binary width n) = n := by
  rw [binary, List.leftpad, ofBinary_replicate_zero_append, ofBinary,
    Nat.ofDigitChars_toDigits (by omega) (by omega)]

theorem ofDecimal_decimal (n : Nat) : ofDecimal (decimal n) = n :=
  Nat.ofDigitChars_ten_toDigits

end LS8.Numeral
