import DotSemantics.Meaning

/-!
# Drafts

A draft is a graph under edit.  Nodes and edges are made into pools and have the place in their
pool as identity; the graph lists some of them, in any order and any number of times.  Names,
ends, operators and attributes can be changed at will, so that a draft need not be sound.
-/

namespace DotSemantics

/-- A value of an attribute. -/
inductive Cell where
  | text (s : String)
  | null
  | int (n : Int)
deriving Repr, DecidableEq, Inhabited

structure DraftNode where
  name : String
  attrs : Table Cell
deriving Repr, DecidableEq, Inhabited

/-- An edge of a pool; its ends are places in the pool of nodes. -/
structure DraftEdge where
  source : Nat
  target : Nat
  op : String
  attrs : Table Cell
deriving Repr, DecidableEq, Inhabited

/-- A graph under edit. -/
structure Draft where
  attrs : Table Cell
  nodePool : List DraftNode
  edgePool : List DraftEdge
  /-- the nodes of the graph, by place in the pool -/
  nodes : List Nat
  /-- the edges of the graph, by place in the pool -/
  edges : List Nat
deriving Repr, DecidableEq, Inhabited

namespace Draft

def empty : Draft := ⟨Table.empty, [], [], [], []⟩

/-! ## Reading -/

def nodeName (d : Draft) (i : Nat) : String := ((d.nodePool[i]?).map DraftNode.name).getD ""

def nodeNames (d : Draft) : List String := d.nodes.map d.nodeName

def graphEdges (d : Draft) : List DraftEdge := d.edges.filterMap fun i => d.edgePool[i]?

def name? (d : Draft) : Option Cell := d.attrs.get? nameKey

/-- The kind of the graph: undirected if nothing is said, an error if what is said is no kind. -/
def kind (d : Draft) : Except Cell GraphKind :=
  match d.attrs.get? kindKey with
  | none => .ok .graph
  | some (.text s) =>
    match GraphKind.ofText? s with
    | some k => .ok k
    | none => .error (.text s)
  | some c => .error c

/-- The place, in the list of the graph, of the first node with a name. -/
def findNode? (d : Draft) (name : String) : Option Nat := d.nodeNames.findIdx? (· = name)

/-- The place of a node of the pool in the list of the graph. -/
def position? (d : Draft) (i : Nat) : Option Nat := d.nodes.findIdx? (· = i)

/-! ## Making -/

/-- The table of a new node or edge: the given pairs, and the name at the end if they have none. -/
def namedTable (pairs : List (String × Cell)) (name : String) : Table Cell :=
  (Table.ofPairs pairs).putNew nameKey (.text name)

/-- The draft of a graph: its pools are its nodes and its edges. -/
def ofGraph (g : Graph) : Draft :=
  { attrs := g.attrs.map .text
    nodePool := g.nodes.map fun n => ⟨n.name, n.attrs.map .text⟩
    edgePool := g.edges.map fun e => ⟨e.source, e.target, e.op.text, e.attrs.map .text⟩
    nodes := List.range g.nodes.length
    edges := List.range g.edges.length }

end Draft

/-! ## Edits -/

/-- What an attribute belongs to. -/
inductive Owner where
  | graph
  | node (index : Nat)
  | edge (index : Nat)
deriving Repr, DecidableEq, Inhabited

/-- An edit of a draft.  An index is a place in a pool, a position a place in a list of the
graph. -/
inductive Edit where
  /-- starts a new graph with some attributes; the pools stay -/
  | begin (attrs : List (String × Cell))
  /-- takes over a graph, with its nodes and edges as the pools -/
  | load (g : Graph)
  | makeNode (name : String) (attrs : List (String × Cell))
  | makeEdge (source target : Nat) (op : String) (attrs : List (String × Cell))
  | addNode (index : Nat)
  | addEdge (index : Nat)
  | removeNode (position : Nat)
  | removeEdge (position : Nat)
  | set (owner : Owner) (key : String) (value : Cell)
  | unset (owner : Owner) (key : String)
  /-- changes the name of a node, but not its attributes -/
  | rename (index : Nat) (name : String)
  /-- changes ends and operator of an edge, but not its attributes -/
  | rewire (index : Nat) (source target : Option Nat) (op : Option String)

namespace Draft

/-- Changes the attributes of an owner that exists. -/
def mapAttrs (d : Draft) (f : Table Cell → Table Cell) : Owner → Option Draft
  | .graph => some { d with attrs := f d.attrs }
  | .node i => do
    let n ← d.nodePool[i]?
    return { d with nodePool := d.nodePool.set i { n with attrs := f n.attrs } }
  | .edge i => do
    let e ← d.edgePool[i]?
    return { d with edgePool := d.edgePool.set i { e with attrs := f e.attrs } }

/-- Makes an edge between two nodes of the pool and puts it into the pool of edges. -/
def makeEdge (d : Draft) (source target : Nat) (op : String) (attrs : List (String × Cell)) :
    Option Draft := do
  let s ← d.nodePool[source]?
  let t ← d.nodePool[target]?
  let table := namedTable attrs (s.name ++ op ++ t.name)
  return { d with edgePool := d.edgePool ++ [⟨source, target, op, table⟩] }

/-- Whether an end that is to be changed exists. -/
def hasEnd (d : Draft) : Option Nat → Bool
  | none => true
  | some i => i < d.nodePool.length

/-- Carries out an edit; an index or a position that does not exist makes it fail. -/
def apply (d : Draft) : Edit → Option Draft
  | .begin attrs => some { d with attrs := Table.ofPairs attrs, nodes := [], edges := [] }
  | .load g => some (ofGraph g)
  | .makeNode name attrs =>
    some { d with nodePool := d.nodePool ++ [⟨name, namedTable attrs name⟩] }
  | .makeEdge s t op attrs => d.makeEdge s t op attrs
  | .addNode i => if i < d.nodePool.length then some { d with nodes := d.nodes ++ [i] } else none
  | .addEdge i => if i < d.edgePool.length then some { d with edges := d.edges ++ [i] } else none
  | .removeNode p =>
    if p < d.nodes.length then some { d with nodes := d.nodes.eraseIdx p } else none
  | .removeEdge p =>
    if p < d.edges.length then some { d with edges := d.edges.eraseIdx p } else none
  | .set owner key value => d.mapAttrs (fun t => t.put key value) owner
  | .unset owner key => d.mapAttrs (fun t => t.erase key) owner
  | .rename i name => do
    let n ← d.nodePool[i]?
    return { d with nodePool := d.nodePool.set i { n with name } }
  | .rewire i s t op => do
    let e ← d.edgePool[i]?
    if d.hasEnd s && d.hasEnd t then
      let e' := { e with source := s.getD e.source, target := t.getD e.target, op := op.getD e.op }
      return { d with edgePool := d.edgePool.set i e' }
    else none

end Draft

end DotSemantics
