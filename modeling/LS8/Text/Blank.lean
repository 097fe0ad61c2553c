/-
LS8/Text/Blank.lean

White space in program files.  The class is the Unicode property White_Space,
25 characters, and not only the blanks of ASCII; the characters of zero width
(U+200B, U+FEFF) are not in it.
-/
namespace LS8.Text

/-- The characters with the Unicode property White_Space, as inclusive ranges. -/
def blankRanges : List (Nat × Nat) :=
  [(0x09, 0x0D), (0x20, 0x20), (0x85, 0x85), (0xA0, 0xA0), (0x1680, 0x1680), (0x2000, 0x200A),
    (0x2028, 0x2029), (0x202F, 0x202F), (0x205F, 0x205F), (0x3000, 0x3000)]

/-- Does `c` have the Unicode property White_Space? -/
def isBlank (c : Char) : Bool := blankRanges.any fun r => r.1 ≤ c.toNat && c.toNat ≤ r.2

/-- Drop the blanks at the end. -/
def dropTrailing (text : List Char) : List Char := (text.reverse.dropWhile isBlank).reverse

/-- Drop the blanks at both ends. -/
def trim (text : List Char) : List Char := dropTrailing (text.dropWhile isBlank)

end LS8.Text
