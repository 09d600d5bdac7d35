import DotSemantics.Text.Literal

/-!
# Keywords

The fixed words of the language: the two kinds of graph, the three things that a list of
attributes may be meant for, and the two edge operators.
-/

namespace DotSemantics

inductive GraphKind where
  | graph
  | digraph
deriving Repr, DecidableEq, Inhabited

/-- What an attribute statement is about: the graph, or the nodes or edges that follow. -/
inductive Target where
  | graph
  | node
  | edge
deriving Repr, DecidableEq, Inhabited

inductive EdgeOp where
  | directed
  | undirected
deriving Repr, DecidableEq, Inhabited

def GraphKind.text : GraphKind → String
  | graph => "graph"
  | digraph => "digraph"

def Target.text : Target → String
  | graph => "graph"
  | node => "node"
  | edge => "edge"

def EdgeOp.text : EdgeOp → String
  | directed => "->"
  | undirected => "--"

/-- The edge operator that belongs to a kind of graph. -/
def GraphKind.op : GraphKind → EdgeOp
  | graph => .undirected
  | digraph => .directed

/-! ## Vocabularies -/

/-- The three vocabularies of fixed words. -/
inductive Vocabulary where
  | graphKind
  | target
  | edgeOp
deriving Repr, DecidableEq, Inhabited

inductive Keyword where
  | graphKind (kind : GraphKind)
  | target (target : Target)
  | edgeOp (op : EdgeOp)
deriving Repr, DecidableEq, Inhabited

/-- The name of a vocabulary in messages. -/
def Vocabulary.name : Vocabulary → String
  | graphKind => "GraphType"
  | target => "AttrTarget"
  | edgeOp => "EdgeOp"

/-- The wording for a value, as displayed, that a vocabulary does not have. -/
def Vocabulary.refusal (v : Vocabulary) (got : String) : String :=
  got ++ " is not a valid " ++ v.name

def Vocabulary.words : Vocabulary → List Keyword
  | graphKind => [.graphKind .graph, .graphKind .digraph]
  | target => [.target .graph, .target .node, .target .edge]
  | edgeOp => [.edgeOp .directed, .edgeOp .undirected]

namespace Keyword

def vocabulary : Keyword → Vocabulary
  | graphKind _ => .graphKind
  | target _ => .target
  | edgeOp _ => .edgeOp

def text : Keyword → String
  | graphKind k => k.text
  | target t => t.text
  | edgeOp o => o.text

/-- The name of a word inside its vocabulary, in messages. -/
def label : Keyword → String
  | graphKind .graph => "GRAPH"
  | graphKind .digraph => "DIGRAPH"
  | target .graph => "GRAPH"
  | target .node => "NODE"
  | target .edge => "EDGE"
  | edgeOp .directed => "DIRECTED"
  | edgeOp .undirected => "UNDIRECTED"

/-- A word as it stands in messages. -/
def display (w : Keyword) : String :=
  "<" ++ w.vocabulary.name ++ "." ++ w.label ++ ": " ++ Text.literal w.text ++ ">"

end Keyword

def Vocabulary.word? (v : Vocabulary) (s : String) : Option Keyword :=
  v.words.find? fun w => w.text = s

def GraphKind.ofText? (s : String) : Option GraphKind :=
  if s = "graph" then some graph else if s = "digraph" then some digraph else none

theorem GraphKind.ofText?_text (k : GraphKind) : ofText? k.text = some k := by
  cases k <;> decide

end DotSemantics
