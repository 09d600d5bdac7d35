import DotSemantics.AttributeName
import DotSemantics.Keyword
import DotSemantics.Table

/-!
# What a declaration means

A declaration means a graph: a table of attributes, nodes and edges.  A node is known by its place
in the list of nodes, and edges refer to nodes by their places.
-/

namespace DotSemantics

structure Node where
  name : String
  attrs : Table String
deriving Repr, DecidableEq, Inhabited

/-- The name of the node at a place. -/
def nameAt (ns : List Node) (i : Nat) : String := ((ns[i]?).map Node.name).getD ""

/-- An edge; its ends are places in a list of nodes. -/
structure Edge where
  source : Nat
  target : Nat
  op : EdgeOp
  attrs : Table String
deriving Repr, DecidableEq, Inhabited

structure Graph where
  attrs : Table String
  nodes : List Node
  edges : List Edge
deriving Repr, DecidableEq, Inhabited

namespace Graph

def name? (g : Graph) : Option String := g.attrs.get? nameKey

/-- The first node of a name. -/
def node? (g : Graph) (name : String) : Option Node := g.nodes.find? fun n => n.name = name

end Graph

end DotSemantics
