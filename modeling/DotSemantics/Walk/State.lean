import DotSemantics.Log
import DotSemantics.Walk.Settle

/-!
# The state of a walk

The graph made so far, the place of each node by its name, the defaults in force, and one frame for
each subgraph that is open.  A node is made at its first mention, at the end of the list of nodes.
A node that is mentioned goes into every open frame, so that a frame ends up with the nodes that
its subgraph mentions.
-/

namespace DotSemantics

/-- The state of a walk. -/
structure Walk where
  attrs : Table String
  nodes : List Node
  edges : List Edge
  /-- the place of each node, by its name -/
  places : Table Nat
  /-- the attributes that node statements gave outright, by the name of the node -/
  given : Table (List String)
  nodeDefaults : Table String
  edgeDefaults : Table String
  /-- the nodes mentioned in each open subgraph with their places, the innermost first -/
  frames : List (Table Nat)
  log : List LogEntry
deriving Repr, DecidableEq, Inhabited

namespace Walk

/-- The attributes that a graph has from its heading. -/
def heading (kind : GraphKind) (name : Option String) : Table String :=
  match name with
  | none => ⟨[(kindKey, kind.text)]⟩
  | some n => ⟨[(nameKey, n), (kindKey, kind.text)]⟩

/-- The state before the body of a declaration. -/
def start (kind : GraphKind) (name : Option String) (log : List LogEntry) : Walk :=
  { attrs := heading kind name
    nodes := []
    edges := []
    places := Table.empty
    given := Table.empty
    nodeDefaults := Table.empty
    edgeDefaults := Table.empty
    frames := []
    log }

def record (event : Event) (w : Walk) : Walk := { w with log := w.log ++ [⟨.debug, event⟩] }

def assign (name value : String) (w : Walk) : Walk := { w with attrs := w.attrs.put name value }

def addNodeDefaults (t : Table String) (w : Walk) : Walk :=
  { w with nodeDefaults := w.nodeDefaults.merge t }

def addEdgeDefaults (t : Table String) (w : Walk) : Walk :=
  { w with edgeDefaults := w.edgeDefaults.merge t }

/-- The place of a node, or the one that it gets when it is made next. -/
def placeOf (w : Walk) (name : String) : Nat := (w.places.get? name).getD w.nodes.length

/-- Makes a node unless there is one of its name, and puts it into every open frame. -/
def touch (name : String) (w : Walk) : Walk :=
  { w with
    nodes := if w.places.has name then w.nodes else w.nodes ++ [.fresh name]
    places := w.places.putNew name (w.placeOf name)
    frames := w.frames.map fun f => f.putNew name (w.placeOf name) }

/-- Settles the attributes of the node at a place. -/
def settle (place : Nat) (values : Table String) (w : Walk) : Walk :=
  match w.nodes[place]? with
  | none => w
  | some n =>
    let r := NodeRecord.settleAll values w.nodeDefaults
      ⟨n.attrs, (w.given.get? n.name).getD []⟩
    { w with
      nodes := w.nodes.set place { n with attrs := r.attrs }
      given := w.given.put n.name r.given }

/-- Adds the edges of one hop, with the defaults in force. -/
def connect (values : Table String) (sources : List Nat) (op : EdgeOp) (targets : List Nat)
    (w : Walk) : Walk :=
  { w with edges := w.edges ++ edgesBetween w.nodes values w.edgeDefaults sources op targets }

/-! ## Frames -/

def openFrame (w : Walk) : Walk := { w with frames := Table.empty :: w.frames }

def closeFrame (w : Walk) : Walk := { w with frames := w.frames.tail }

/-- The places in the innermost frame. -/
def innermost (w : Walk) : List Nat := (w.frames.headD Table.empty).entries.map Prod.snd

def graph (w : Walk) : Graph := { attrs := w.attrs, nodes := w.nodes, edges := w.edges }

end Walk

end DotSemantics
