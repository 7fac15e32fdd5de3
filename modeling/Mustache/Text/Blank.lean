import Mustache.Text.Basic

/-!
# Blank characters

A character is blank if it has the Unicode property `White_Space`. Blanks surround the content of
a tag, separate the two delimiters of a delimiter change, and occur in no name and no delimiter.
-/

namespace Mustache

/-- The code points with the property `White_Space`, as inclusive ranges in rising order. -/
def blankRanges : List (Nat × Nat) :=
  [(0x09, 0x0D), (0x20, 0x20), (0x85, 0x85), (0xA0, 0xA0), (0x1680, 0x1680), (0x2000, 0x200A),
   (0x2028, 0x2029), (0x202F, 0x202F), (0x205F, 0x205F), (0x3000, 0x3000)]

/-- Whether a code point lies in one of the ranges of a table. -/
def inRanges (table : List (Nat × Nat)) (n : Nat) : Bool :=
  table.any fun (lo, hi) => lo ≤ n && n ≤ hi

/-- Whether a character is blank. -/
def isBlank (c : Char) : Bool := inRanges blankRanges c.toNat

namespace Text

/-- A text without the blanks before it. -/
def trimStart (t : Text) : Text := t.dropWhile isBlank

/-- A text without the blanks after it. -/
def trimEnd (t : Text) : Text := (t.reverse.dropWhile isBlank).reverse

/-- A text without the blanks around it. -/
def trim (t : Text) : Text := t.trimStart.trimEnd

/-- The words of a text: its longest runs of characters that are not blank. -/
def words (t : Text) : List Text := (t.pieces isBlank).filter (· ≠ [])

end Text

end Mustache
