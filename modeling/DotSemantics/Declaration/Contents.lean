import DotSemantics.Declaration.Meant
import DotSemantics.Distinct

/-!
# The contents of a body

What a body says, read off its statements without a walk: the nodes it mentions, the links
between them, and the pairs meant for the graph.  All are listed in the order of the text, an
edge chain from its source on and each end before the links that lead to it.
-/

namespace DotSemantics

/-- An edge without its attributes. -/
structure Link where
  source : String
  op : EdgeOp
  target : String
deriving Repr, DecidableEq, Inhabited

/-- A link from each source to each target, source by source. -/
def linksBetween (sources : List String) (op : EdgeOp) (targets : List String) : List Link :=
  sources.flatMap fun s => targets.map fun t => ⟨s, op, t⟩

/-! ## Mentions -/

mutual

/-- The nodes that a statement mentions, as often as it does. -/
def Statement.mentions : Statement → List String
  | .assign _ => []
  | .attrs _ _ => []
  | .node id _ => [id.meant]
  | .edge source hops _ => source.mentions ++ hopMentions hops
  | .subgraph _ body => bodyMentions body

def Endpoint.mentions : Endpoint → List String
  | .node id => [id.meant]
  | .subgraph _ body => bodyMentions body

def hopMentions : List Hop → List String
  | [] => []
  | .via _ target :: rest => target.mentions ++ hopMentions rest

def bodyMentions : List Statement → List String
  | [] => []
  | s :: rest => s.mentions ++ bodyMentions rest

end

/-- The nodes that an end of an edge stands for, each once. -/
def Endpoint.members (e : Endpoint) : List String := distinct e.mentions

/-! ## Links -/

mutual

/-- The links that a statement makes. -/
def Statement.links : Statement → List Link
  | .assign _ => []
  | .attrs _ _ => []
  | .node _ _ => []
  | .edge source hops _ => source.links ++ hopLinks source.members hops
  | .subgraph _ body => bodyLinks body

def Endpoint.links : Endpoint → List Link
  | .node _ => []
  | .subgraph _ body => bodyLinks body

/-- The links of some hops that start from the given sources, those inside an end first. -/
def hopLinks (sources : List String) : List Hop → List Link
  | [] => []
  | .via op target :: rest =>
    target.links ++ linksBetween sources op target.members ++ hopLinks target.members rest

def bodyLinks : List Statement → List Link
  | [] => []
  | s :: rest => s.links ++ bodyLinks rest

end

/-! ## Pairs for the graph -/

mutual

/-- The pairs that a statement means for the graph. -/
def Statement.graphPairs : Statement → List (String × String)
  | .assign a => [a.pair]
  | .attrs .graph lists => pairsOf lists
  | .attrs _ _ => []
  | .node _ _ => []
  | .edge source hops _ => source.graphPairs ++ hopGraphPairs hops
  | .subgraph _ body => bodyGraphPairs body

def Endpoint.graphPairs : Endpoint → List (String × String)
  | .node _ => []
  | .subgraph _ body => bodyGraphPairs body

def hopGraphPairs : List Hop → List (String × String)
  | [] => []
  | .via _ target :: rest => target.graphPairs ++ hopGraphPairs rest

def bodyGraphPairs : List Statement → List (String × String)
  | [] => []
  | s :: rest => s.graphPairs ++ bodyGraphPairs rest

end

/-! ## Lemmas -/

theorem bodyGraphPairs_append (b c : List Statement) :
    bodyGraphPairs (b ++ c) = bodyGraphPairs b ++ bodyGraphPairs c := by
  induction b with
  | nil => rfl
  | cons s b ih => simp [bodyGraphPairs, ih]

end DotSemantics
