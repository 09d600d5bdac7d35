/-!
# Attribute names

The names that mean something to the reading of a graph: those that nodes and edges carry, the
two that the grammar alone decides, and the layout with its standard algorithms.
-/

namespace DotSemantics

/-- The name of a graph, a node or an edge. -/
def nameKey : String := "_name"

def kindKey : String := "_type"

def layoutKey : String := "layout"

/-- The names that no attribute list can set. -/
def metaKeys : List String := [nameKey, kindKey]

/-- The attributes of a node, in the order in which a node statement sets them. -/
def nodeKeys : List String := ["id", "label", "xlabel", "xlp", "pos", "width", "height"]

/-- The attributes of an edge, in the order in which an edge gets them. -/
def edgeKeys : List String :=
  ["id", "label", "xlabel", "xlp", "pos", "lp", "headlabel", "head_lp", "taillabel", "tail_lp",
    "arrowhead", "arrowtail", "arrowsize", "dir", "style"]

/-- The standard layout algorithms, by ascending code points. -/
def standardLayouts : List String :=
  ["circo", "dot", "fdp", "grid", "neato", "osage", "sfdp", "twopi"]

end DotSemantics
