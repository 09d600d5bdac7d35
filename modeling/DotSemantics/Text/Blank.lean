import DotSemantics.Text.Ranges

/-!
# Blank characters

The white space of Unicode, with the four separators U+001C to U+001F counted in, and the removal
of it from both ends of a text.
-/

namespace DotSemantics.Text

def blanks : Ranges :=
  [(0x0009, 0x000D), (0x001C, 0x0020), (0x0085, 0x0085), (0x00A0, 0x00A0), (0x1680, 0x1680),
   (0x2000, 0x200A), (0x2028, 0x2029), (0x202F, 0x202F), (0x205F, 0x205F), (0x3000, 0x3000)]

/-- Whether a character is white space. -/
def isBlank (c : Char) : Bool := blanks.covers c.toNat

/-- Drops the blank characters at both ends. -/
def stripChars (cs : List Char) : List Char :=
  ((cs.dropWhile isBlank).reverse.dropWhile isBlank).reverse

def strip (s : String) : String := String.ofList (stripChars s.toList)

end DotSemantics.Text
