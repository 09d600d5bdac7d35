import DotSemantics.Distinct
import DotSemantics.Meaning

/-!
# Settling attributes

Which value an attribute of a node or an edge gets, of those that its statement gives and those
that are in force as defaults.  A node statement goes through the attributes of a node one by one,
and remembers what was given outright: no later default overrides that.  An edge is settled once,
when it is made.
-/

namespace DotSemantics

/-! ## Nodes -/

/-- A node while its statements are read: its attributes, and those that a statement gave
outright. -/
structure NodeRecord where
  attrs : Table String
  given : List String
deriving Repr, DecidableEq, Inhabited

/-- A node that was only mentioned. -/
def Node.fresh (name : String) : Node := ⟨name, ⟨[(nameKey, name)]⟩⟩

namespace NodeRecord

/-- What a node statement does for one attribute: a value given there is taken; a default is
taken unless some node statement gave a value before. -/
def settle (given defaults : Table String) (r : NodeRecord) (key : String) : NodeRecord :=
  match given.get? key with
  | some v => ⟨r.attrs.put key v, addNew key r.given⟩
  | none =>
    match defaults.get? key with
    | some v => if r.given.contains key then r else ⟨r.attrs.put key v, r.given⟩
    | none => r

/-- What a node statement does for all attributes of a node. -/
def settleAll (given defaults : Table String) (r : NodeRecord) : NodeRecord :=
  nodeKeys.foldl (settle given defaults) r

end NodeRecord

/-! ## Edges -/

def edgeName (source : String) (op : EdgeOp) (target : String) : String :=
  source ++ op.text ++ target

/-- Gives an edge one attribute: the value of its statement, else the default. -/
def settleEdge (given defaults : Table String) (t : Table String) (key : String) : Table String :=
  match (given.get? key).or (defaults.get? key) with
  | some v => t.put key v
  | none => t

/-- The attributes of an edge between two named nodes. -/
def edgeTable (given defaults : Table String) (source : String) (op : EdgeOp) (target : String) :
    Table String :=
  edgeKeys.foldl (settleEdge given defaults) ⟨[(nameKey, edgeName source op target)]⟩

/-- An edge between two of some nodes, with its attributes. -/
def Edge.make (ns : List Node) (given defaults : Table String) (source : Nat) (op : EdgeOp)
    (target : Nat) : Edge :=
  { source, target, op
    attrs := edgeTable given defaults (nameAt ns source) op (nameAt ns target) }

/-- An edge from each source to each target, source by source. -/
def edgesBetween (ns : List Node) (given defaults : Table String) (sources : List Nat)
    (op : EdgeOp) (targets : List Nat) : List Edge :=
  sources.flatMap fun s => targets.map fun t => Edge.make ns given defaults s op t

end DotSemantics
