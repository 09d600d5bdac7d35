import DotSemantics.Distinct
import DotSemantics.Draft.Display
import DotSemantics.Layouts

/-!
# Auditing a draft

The audit lists what is unsound in a draft: names that several nodes share, ends of edges that are
no nodes of the graph, operators that do not fit its kind, and a layout that is not allowed.
Nodes that no edge touches are only warned about.  Whether an end is a node of the graph is a
question of identity; whether a node is touched is a question of its name.
-/

namespace DotSemantics

inductive Finding where
  | duplicateNode (name : String)
  | foreignSource (name : String)
  | foreignTarget (name : String)
  | wrongOperator (op : String) (kind : GraphKind) (edge : Cell)
  | unknownLayout (layout : Cell)
deriving Repr, DecidableEq

/-- Something that is worth a look. -/
inductive Remark where
  | isolatedNode (name : String)
deriving Repr, DecidableEq

inductive AuditFailure where
  /-- what is given as the kind of the graph is none -/
  | invalidKind (got : Cell)
  /-- an edge that has to be reported has no name -/
  | unnamedEdge
deriving Repr, DecidableEq

/-- What the audit of a draft says. -/
structure Report where
  errors : List Finding
  warnings : List Remark
deriving Repr, DecidableEq

def Report.isSound (r : Report) : Bool := r.errors.isEmpty

/-! ## Wording -/

def Finding.message : Finding → String
  | duplicateNode n => "duplicate node: " ++ n
  | foreignSource n => "edge source is not a node of the graph: " ++ n
  | foreignTarget n => "edge target is not a node of the graph: " ++ n
  | wrongOperator op k e =>
    "edge operator " ++ Text.literal op ++ " not allowed in a " ++ k.text ++ ": " ++ e.plain
  | unknownLayout l => "unknown layout: " ++ l.plain

def Remark.message : Remark → String
  | isolatedNode n => "isolated node: " ++ n

/-- The wording for something that is no kind of graph. -/
def invalidKindMessage (got : Cell) : String := Vocabulary.graphKind.refusal got.display

/-! ## Checks -/

namespace Draft

/-- The names that more than one place of the list of nodes has. -/
def duplicateNames (d : Draft) : List String :=
  (distinct d.nodeNames).filter fun n => 1 < d.nodeNames.count n

/-- Whether a node of the pool is a node of the graph. -/
def isMember (d : Draft) (i : Nat) : Bool := d.nodes.contains i

def auditEnds (d : Draft) (e : DraftEdge) : List Finding :=
  (if d.isMember e.source then [] else [.foreignSource (d.nodeName e.source)]) ++
    (if d.isMember e.target then [] else [.foreignTarget (d.nodeName e.target)])

/-- The finding about the operator of an edge, which has to be named if there is one. -/
def auditOperator (kind : GraphKind) (e : DraftEdge) : Except AuditFailure (List Finding) :=
  if e.op = kind.op.text then .ok []
  else match e.name? with
    | none => .error .unnamedEdge
    | some n => .ok [.wrongOperator e.op kind n]

def auditEdges (d : Draft) (kind : GraphKind) : List DraftEdge → Except AuditFailure (List Finding)
  | [] => .ok []
  | e :: r => do
    let fs ← auditOperator kind e
    let gs ← d.auditEdges kind r
    return d.auditEnds e ++ fs ++ gs

/-- The finding about the layout; one that is null counts as absent. -/
def auditLayout (d : Draft) (ls : Layouts) : List Finding :=
  match d.attrs.get? layoutKey with
  | none => []
  | some .null => []
  | some (.text s) => if ls.allows s then [] else [.unknownLayout (.text s)]
  | some c => [.unknownLayout c]

def touchedNames (d : Draft) : List String :=
  d.graphEdges.flatMap fun e => [d.nodeName e.source, d.nodeName e.target]

/-- The nodes that no edge names. -/
def isolatedNames (d : Draft) : List String :=
  d.nodeNames.filter fun n => !d.touchedNames.contains n

def audit (d : Draft) (ls : Layouts) : Except AuditFailure Report :=
  match d.kind with
  | .error c => .error (.invalidKind c)
  | .ok kind => do
    let edgeFindings ← d.auditEdges kind d.graphEdges
    return {
      errors := d.duplicateNames.map .duplicateNode ++ edgeFindings ++ d.auditLayout ls
      warnings := d.isolatedNames.map .isolatedNode }

end Draft

end DotSemantics
