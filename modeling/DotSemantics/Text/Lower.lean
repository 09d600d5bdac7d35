import DotSemantics.Text.Case

/-!
# Lower case

Full lower-casing of a text: every character by the case table, with the two cases where the
result is not one character looked up alone.  A dotted capital I becomes an i and a combining
dot; a capital sigma becomes a final sigma at the end of a word.
-/

namespace DotSemantics.Text

/-! ## Characters -/

def capitalSigma : Char := 'Σ'

/-- The code point of the lower-case form of a code point that has one of its own. -/
def lowerPoint (n : Nat) : Nat :=
  match lowerRuns.find? fun r => r.covers n with
  | some r => r.image n
  | none => n

/-- The lower-case form of a character other than the capital sigma. -/
def lowerChar (c : Char) : List Char :=
  if c = 'İ' then ['i', '\u0307'] else [Char.ofNat (lowerPoint c.toNat)]

/-- Whether a character is skipped in the search for the end of a word. -/
def isCaseIgnorable (c : Char) : Bool := caseIgnorable.covers c.toNat

/-- Whether the first character that is not case-ignorable is there and is cased. -/
def startsCased (cs : List Char) : Bool :=
  match cs.dropWhile isCaseIgnorable with
  | [] => false
  | c :: _ => cased.covers c.toNat

/-- Whether a capital sigma ends a word: `before` is the text before it, nearest character first,
and `after` the text that follows. -/
def endsWord (before after : List Char) : Bool := startsCased before && !startsCased after

/-- The lower-case form of a capital sigma between two texts. -/
def lowerSigma (before after : List Char) : Char := if endsWord before after then 'ς' else 'σ'

/-! ## Texts -/

/-- Lower-cases a text that follows `before`, whose nearest character comes first. -/
def lowerAfter (before : List Char) : List Char → List Char
  | [] => []
  | c :: r =>
    (if c = capitalSigma then [lowerSigma before r] else lowerChar c) ++ lowerAfter (c :: before) r

def lower (s : String) : String := String.ofList (lowerAfter [] s.toList)

/-- Whether a text is its own lower-case form. -/
def isLower (s : String) : Bool := lower s = s

end DotSemantics.Text
