import DotSemantics.Declaration
import DotSemantics.Table
import DotSemantics.Text.Quoted

/-!
# Texts as they are meant

The names and values that the words of a declaration stand for.  Every word is unquoted here,
once, and nowhere else.
-/

namespace DotSemantics

/-- The text that a word means. -/
def Word.meant (w : Word) : String := Text.unquote w.toText

def Attribute.pair (a : Attribute) : String × String := (a.name.meant, a.value.meant)

/-- The pairs of some attribute lists, in order. -/
def pairsOf (ls : List AttrList) : List (String × String) :=
  ls.flatMap fun l => l.attributes.map Attribute.pair

/-- The attributes of some lists; of several values for a name the last one counts. -/
def valuesOf (ls : List AttrList) : Table String := Table.ofPairs (pairsOf ls)

def Declaration.graphName (d : Declaration) : Option String := d.name.map Word.meant

end DotSemantics
