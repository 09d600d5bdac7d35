import DotSemantics.Keyword

/-!
# Declarations

A graph declaration as it was parsed: a body of statements that set attributes, set defaults,
name nodes, chain edges, and group statements.  An edge chain runs from a source over one or more
hops; each end of an edge is a node or a whole subgraph.  Nothing is resolved here: texts are as
written, quotes included.
-/

namespace DotSemantics

/-- A text in a declaration.  A keyword is accepted where a text is asked for, and stands for
its own text. -/
inductive Word where
  | text (s : String)
  | keyword (w : Keyword)
deriving Repr, DecidableEq, Inhabited

def Word.toText : Word → String
  | text s => s
  | keyword w => w.text

structure Attribute where
  name : Word
  value : Word
deriving Repr, DecidableEq, Inhabited

/-- One bracketed list of attributes. -/
structure AttrList where
  attributes : List Attribute
deriving Repr, DecidableEq, Inhabited

mutual

inductive Statement where
  /-- an attribute of the graph -/
  | assign (a : Attribute)
  /-- attributes of the graph, or defaults for the nodes or edges that follow -/
  | attrs (target : Target) (lists : List AttrList)
  /-- a node, with attributes of its own -/
  | node (id : Word) (lists : List AttrList)
  /-- a chain of edges, with attributes for each of them -/
  | edge (source : Endpoint) (hops : List Hop) (lists : List AttrList)
  /-- a group of statements -/
  | subgraph (name : Option Word) (body : List Statement)

/-- One end of an edge. -/
inductive Endpoint where
  | node (id : Word)
  /-- all nodes that the body mentions -/
  | subgraph (name : Option Word) (body : List Statement)

/-- One step of an edge chain. -/
inductive Hop where
  | via (op : EdgeOp) (target : Endpoint)

end

def Hop.target : Hop → Endpoint
  | .via _ e => e

structure Declaration where
  kind : GraphKind
  name : Option Word
  body : List Statement

def Declaration.isDirected (d : Declaration) : Bool := d.kind == .digraph

/-- All ends of an edge chain, the source first. -/
def chainEnds (source : Endpoint) (hops : List Hop) : List Endpoint :=
  source :: hops.map Hop.target

end DotSemantics
