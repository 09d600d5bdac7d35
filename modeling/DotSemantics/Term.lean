import DotSemantics.Declaration.Make

/-!
# Terms

A term is a nest of constructions, not yet carried out: plain data, keywords looked up by value,
and the parts of a declaration with arbitrary terms as their fields.  `Term.build` carries it out
from the inside to the outside, fields from left to right; the first defect ends it.  What a
keyword is looked up by, and the keys of a table, are values already.
-/

namespace DotSemantics

/-- A nest of constructions. -/
inductive Term where
  | null
  | bool (b : Bool)
  | int (n : Int)
  | float (x : Float)
  | text (s : String)
  | list (items : List Term)
  | object (fields : List (String × Term))
  | keyword (vocabulary : Vocabulary) (value : Value)
  | attr (name value : Term)
  | attrList (attributes : Term)
  | attrListOfPairs (pairs : Term)
  | attrListOfTable (entries : List (Value × Term))
  | attrs (target lists : Term)
  | nodeId (name : Term)
  | node (id lists : Term)
  | subgraph (name body : Term)
  | hop (op target : Term)
  | edge (source hops lists : Term)
  | declaration (kind name body : Term)
deriving Inhabited

namespace Term

mutual

/-- Carries out a nest of constructions. -/
def build : Term → Except Defect Value
  | null => .ok .null
  | bool b => .ok (.bool b)
  | int n => .ok (.int n)
  | float x => .ok (.float x)
  | text s => .ok (.text s)
  | list ts => return .list (← buildAll ts)
  | object fs => return .object (← buildEntries fs)
  | keyword voc v => return .keyword (← voc.find v)
  | attr n v => do
    let n ← n.build
    let v ← v.build
    return .statement (.assign (← Attribute.make n v))
  | attrList as => return .attrList (← AttrList.make (← as.build))
  | attrListOfPairs ps => return .attrList (← AttrList.ofPairs (← ps.build))
  | attrListOfTable es => return .attrList (← AttrList.ofTable (← buildTable es))
  | attrs t ls => do
    let t ← t.build
    let ls ← ls.build
    return .statement (← Statement.makeAttrs t ls)
  | nodeId n => return .nodeId (← makeNodeId (← n.build))
  | node i ls => do
    let i ← i.build
    let ls ← ls.build
    return .statement (← Statement.makeNode i ls)
  | subgraph n b => do
    let n ← n.build
    let b ← b.build
    return .statement (← Statement.makeSubgraph n b)
  | hop o e => do
    let o ← o.build
    let e ← e.build
    return .hop (← Hop.make o e)
  | edge s hs ls => do
    let s ← s.build
    let hs ← hs.build
    let ls ← ls.build
    return .statement (← Statement.makeEdge s hs ls)
  | declaration k n b => do
    let k ← k.build
    let n ← n.build
    let b ← b.build
    return .declaration (← Declaration.make k n b)

def buildAll : List Term → Except Defect (List Value)
  | [] => .ok []
  | t :: r => do
    let v ← t.build
    return v :: (← buildAll r)

def buildEntries : List (String × Term) → Except Defect (List (String × Value))
  | [] => .ok []
  | (k, t) :: r => do
    let v ← t.build
    return (k, v) :: (← buildEntries r)

/-- Carries out the values of a table's entries from the left; each key is looked at after its
value. -/
def buildTable : List (Value × Term) → Except Defect (List (Value × Value))
  | [] => .ok []
  | (k, t) :: r => do
    let v ← t.build
    let k ← requireKey k
    return (k, v) :: (← buildTable r)

end

end Term

end DotSemantics
