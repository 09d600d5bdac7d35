import DotSemantics.Declaration.Contents

/-!
# The course of a body

A body as the flat list of what it does, in the order in which it does it.  Subgraphs leave no
trace in it but their contents: where one stands at an end of an edge, the nodes that it stands
for are written out.  What is in force at a point of the course is read off the part before it
(`nodeDefaultsAfter`, `edgeDefaultsAfter`).
-/

namespace DotSemantics

/-- Something that a body does. -/
inductive Move where
  /-- gives the graph an attribute -/
  | assign (name value : String)
  /-- gives defaults to the nodes that follow -/
  | nodeDefaults (pairs : List (String × String))
  /-- gives defaults to the edges that follow -/
  | edgeDefaults (pairs : List (String × String))
  /-- states a node, with attributes -/
  | node (name : String) (pairs : List (String × String))
  /-- mentions a node as an end of an edge -/
  | mention (name : String)
  /-- makes the edges of one hop, with attributes -/
  | connect (sources : List String) (op : EdgeOp) (targets : List String)
      (pairs : List (String × String))
deriving Repr, DecidableEq

mutual

/-- The course of a statement. -/
def Statement.course : Statement → List Move
  | .assign a => [.assign a.pair.1 a.pair.2]
  | .attrs .graph lists => (pairsOf lists).map fun p => .assign p.1 p.2
  | .attrs .node lists => [.nodeDefaults (pairsOf lists)]
  | .attrs .edge lists => [.edgeDefaults (pairsOf lists)]
  | .node id lists => [.node id.meant (pairsOf lists)]
  | .edge source hops lists => source.course ++ hopCourse (pairsOf lists) source.members hops
  | .subgraph _ body => bodyCourse body

def Endpoint.course : Endpoint → List Move
  | .node id => [.mention id.meant]
  | .subgraph _ body => bodyCourse body

/-- The course of some hops that start from the given sources. -/
def hopCourse (pairs : List (String × String)) (sources : List String) : List Hop → List Move
  | [] => []
  | .via op target :: rest =>
    target.course ++ .connect sources op target.members pairs ::
      hopCourse pairs target.members rest

def bodyCourse : List Statement → List Move
  | [] => []
  | s :: rest => s.course ++ bodyCourse rest

end

/-- The defaults that a move gives for nodes. -/
def Move.nodePairs : Move → List (String × String)
  | nodeDefaults ps => ps
  | _ => []

def Move.edgePairs : Move → List (String × String)
  | edgeDefaults ps => ps
  | _ => []

/-- The defaults for nodes after a course. -/
def nodeDefaultsAfter (ms : List Move) : Table String :=
  Table.ofPairs (ms.flatMap Move.nodePairs)

def edgeDefaultsAfter (ms : List Move) : Table String :=
  Table.ofPairs (ms.flatMap Move.edgePairs)

theorem bodyCourse_append (b c : List Statement) :
    bodyCourse (b ++ c) = bodyCourse b ++ bodyCourse c := by
  induction b with
  | nil => rfl
  | cons s b ih => simp [bodyCourse, ih]

theorem bodyCourse_map {α : Type} (f : α → Statement) (l : List α) :
    bodyCourse (l.map f) = l.flatMap fun a => (f a).course := by
  induction l with
  | nil => rfl
  | cons a l ih => rw [List.map_cons, bodyCourse, List.flatMap_cons, ih]

end DotSemantics
