import DotSemantics.Declaration

/-!
# Declarations in messages

The notation for parts of a declaration in messages: a class name with all fields, in order, and
sequences in parentheses.
-/

namespace DotSemantics

/-! ## Brackets -/

def commaSeparated : List String → String
  | [] => ""
  | [s] => s
  | s :: t :: r => s ++ ", " ++ commaSeparated (t :: r)

/-- A sequence of displayed items; a single one is followed by a comma. -/
def displayTuple : List String → String
  | [s] => "(" ++ s ++ ",)"
  | ss => "(" ++ commaSeparated ss ++ ")"

/-- A class name with its displayed fields. -/
def displayFields (cls : String) (fields : List (String × String)) : String :=
  cls ++ "(" ++ commaSeparated (fields.map fun f => f.1 ++ "=" ++ f.2) ++ ")"

def displayOption : Option String → String
  | none => "None"
  | some s => s

/-! ## Parts of a declaration -/

def Word.display : Word → String
  | text s => Text.literal s
  | keyword w => w.display

def Attribute.display (a : Attribute) : String :=
  displayFields "Attribute" [("name", a.name.display), ("value", a.value.display)]

def AttrList.display (l : AttrList) : String :=
  displayFields "AttrList" [("attributes", displayTuple (l.attributes.map Attribute.display))]

def displayLists (ls : List AttrList) : String := displayTuple (ls.map AttrList.display)

def displayNodeId (id : Word) : String := displayFields "NodeId" [("name", id.display)]

/-- A subgraph, given the display of its statements. -/
def displaySubgraph (name : Option Word) (body : List String) : String :=
  displayFields "Subgraph"
    [("name", displayOption (name.map Word.display)), ("statements", displayTuple body)]

mutual

def Statement.display : Statement → String
  | .assign a => a.display
  | .attrs t ls =>
    displayFields "AttrStmt"
      [("target", (Keyword.target t).display), ("attr_lists", displayLists ls)]
  | .node id ls =>
    displayFields "NodeStmt" [("node", displayNodeId id), ("attr_lists", displayLists ls)]
  | .edge s hs ls =>
    displayFields "EdgeStmt"
      [("source", s.display), ("edges", displayTuple (displayHops hs)),
        ("attr_lists", displayLists ls)]
  | .subgraph name body => displaySubgraph name (displayBody body)

def Endpoint.display : Endpoint → String
  | .node id => displayNodeId id
  | .subgraph name body => displaySubgraph name (displayBody body)

def Hop.display : Hop → String
  | .via o e =>
    displayFields "EdgeRhs" [("op", (Keyword.edgeOp o).display), ("target", e.display)]

/-- The statements of a body, each on its own. -/
def displayBody : List Statement → List String
  | [] => []
  | s :: r => s.display :: displayBody r

def displayHops : List Hop → List String
  | [] => []
  | h :: r => h.display :: displayHops r

end

def Declaration.display (d : Declaration) : String :=
  displayFields "GraphDecl"
    [("type", (Keyword.graphKind d.kind).display),
      ("name", displayOption (d.name.map Word.display)),
      ("statements", displayTuple (displayBody d.body))]

end DotSemantics
