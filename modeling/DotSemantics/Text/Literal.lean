import DotSemantics.Text.Printable

/-!
# String literals

The notation for a text in messages: between single quotes, or between double quotes if the text
has a single quote and no double one, with backslash escapes for the backslash, the quote in use
and all that is not printable.
-/

namespace DotSemantics.Text

/-- The low `width` hexadecimal digits of a number, the highest first. -/
def hexDigits : Nat → Nat → List Char
  | 0, _ => []
  | width + 1, n => hexDigits width (n / 16) ++ [Nat.digitChar (n % 16)]

/-- The shortest numbered escape that holds the character's code point. -/
def numberedEscape (c : Char) : List Char :=
  if c.toNat < 0x100 then '\\' :: 'x' :: hexDigits 2 c.toNat
  else if c.toNat < 0x10000 then '\\' :: 'u' :: hexDigits 4 c.toNat
  else '\\' :: 'U' :: hexDigits 8 c.toNat

/-- A character as it stands in a literal between the given quotes. -/
def literalChar (mark c : Char) : List Char :=
  if c = mark ∨ c = '\\' then ['\\', c]
  else if c = '\n' then ['\\', 'n']
  else if c = '\r' then ['\\', 'r']
  else if c = '\t' then ['\\', 't']
  else if isPrintable c then [c]
  else numberedEscape c

/-- The quote that encloses the literal of a text. -/
def literalMark (cs : List Char) : Char :=
  if cs.contains '\'' && !cs.contains '"' then '"' else '\''

def literal (s : String) : String :=
  let mark := literalMark s.toList
  String.ofList (mark :: s.toList.flatMap (literalChar mark) ++ [mark])

end DotSemantics.Text
