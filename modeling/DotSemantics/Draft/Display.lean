import DotSemantics.Declaration.Display
import DotSemantics.Draft

/-!
# Drafts in messages

The notation for values, tables, nodes, edges and graphs of a draft.  An edge is shown with its
name, and one that has lost its name cannot be shown.
-/

namespace DotSemantics

/-- A value as it stands in messages.  Whole numbers are written out at any length; a limit that a
runtime sets on that is left out. -/
def Cell.display : Cell → String
  | text s => Text.literal s
  | null => "None"
  | int n => toString n

/-- A value as it stands inside a sentence: a text is not quoted. -/
def Cell.plain : Cell → String
  | text s => s
  | c => c.display

def displayTable (t : Table Cell) : String :=
  "\x7b" ++ commaSeparated (t.entries.map fun e => Text.literal e.1 ++ ": " ++ e.2.display) ++
    "\x7d"

namespace DraftNode

def display (n : DraftNode) : String :=
  "Node(" ++ Text.literal n.name ++ ", " ++ displayTable n.attrs ++ ")"

end DraftNode

namespace DraftEdge

/-- The name of an edge is an attribute of it. -/
def name? (e : DraftEdge) : Option Cell := e.attrs.get? nameKey

/-- An edge as it stands in messages. -/
def display? (e : DraftEdge) : Option String :=
  e.name?.map fun n => "Edge(" ++ n.display ++ ", " ++ displayTable e.attrs ++ ")"

end DraftEdge

/-- The displays of some edges, if all of them have a name. -/
def displayEdges? : List DraftEdge → Option (List String)
  | [] => some []
  | e :: r => do
    let s ← e.display?
    return s :: (← displayEdges? r)

def Draft.display? (d : Draft) : Option String := do
  let edges ← displayEdges? d.graphEdges
  let nodes := (d.nodes.filterMap fun i => d.nodePool[i]?).map DraftNode.display
  return "Graph(attrs=" ++ displayTable d.attrs ++ ", nodes=[" ++ commaSeparated nodes ++
    "], edges=[" ++ commaSeparated edges ++ "])"

end DotSemantics
