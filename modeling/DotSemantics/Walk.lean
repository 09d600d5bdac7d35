import DotSemantics.Declaration.Meant
import DotSemantics.Layouts
import DotSemantics.Walk.State

/-!
# The walk over a body

A body is read in one walk, statement by statement.  Defaults and attributes of the graph have one
flat scope: a subgraph neither saves nor restores them.  The attributes of an edge chain are read
before its ends are walked over, the defaults for an edge when it is made.  A layout that is not
allowed ends the walk.
-/

namespace DotSemantics

/-- A layout that is not allowed, and the name of the graph that asks for it. -/
structure UnknownLayout where
  layout : String
  graphName : Option String
deriving Repr, DecidableEq, Inhabited

/-- A part of a walk; where it ends early, the state that it reached is kept.  Bodies are walked over
at any depth: a limit that a runtime sets on nested calls is left out, and no walk ends at one. -/
abbrev WalkM := EStateM UnknownLayout Walk

namespace WalkM

/-- Goes on with a changed state. -/
def step (f : Walk → Walk) : WalkM Unit := fun w => .ok () (f w)

/-- Looks a node up or makes it, and gives its place. -/
def touch (name : String) : WalkM Nat := fun w => .ok (w.placeOf name) (w.touch name)

/-- Ends the walk at a layout. -/
def refuse (layout : String) : WalkM Unit := fun w => .error ⟨layout, w.graph.name?⟩ w

/-- Walks inside a new frame and gives the places in the frame, which is closed in any case. -/
def inFrame (m : WalkM Unit) : WalkM (List Nat) := fun w =>
  match m w.openFrame with
  | .ok () w' => .ok w'.innermost w'.closeFrame
  | .error e w' => .error e w'.closeFrame

end WalkM

/-! ## Attributes of the graph -/

/-- Sets an attribute of the graph, unless only the grammar may; a layout is taken in lower case
and has to be allowed. -/
def setGraphAttr (ls : Layouts) (name value : String) : WalkM Unit :=
  if metaKeys.contains name then WalkM.step (Walk.record (.ignoredMeta name value))
  else if name = layoutKey then
    if ls.allows (Text.lower value) then WalkM.step (Walk.assign name (Text.lower value))
    else WalkM.refuse (Text.lower value)
  else WalkM.step (Walk.assign name value)

def setGraphAttrs (ls : Layouts) : List (String × String) → WalkM Unit
  | [] => pure ()
  | p :: rest => do
    setGraphAttr ls p.1 p.2
    setGraphAttrs ls rest

/-! ## Statements -/

def visitAttrs (ls : Layouts) (target : Target) (lists : List AttrList) : WalkM Unit :=
  match target with
  | .graph => setGraphAttrs ls (pairsOf lists)
  | .node => WalkM.step (Walk.addNodeDefaults (valuesOf lists))
  | .edge => WalkM.step (Walk.addEdgeDefaults (valuesOf lists))

def visitNode (id : Word) (lists : List AttrList) : WalkM Unit := do
  let place ← WalkM.touch id.meant
  WalkM.step (Walk.settle place (valuesOf lists))

mutual

/-- Walks over a statement. -/
def visit (ls : Layouts) : Statement → WalkM Unit
  | .assign a => setGraphAttr ls a.pair.1 a.pair.2
  | .attrs target lists => visitAttrs ls target lists
  | .node id lists => visitNode id lists
  | .edge source hops lists => do
    let sources ← resolve ls source
    follow ls (valuesOf lists) sources hops
  | .subgraph _ body => do
    let _ ← WalkM.inFrame (visitAll ls body)

/-- Walks over an end of an edge and gives the places of the nodes that it stands for. -/
def resolve (ls : Layouts) : Endpoint → WalkM (List Nat)
  | .node id => do
    let place ← WalkM.touch id.meant
    return [place]
  | .subgraph _ body => WalkM.inFrame (visitAll ls body)

/-- Walks over the hops of a chain that has come to the given sources. -/
def follow (ls : Layouts) (values : Table String) (sources : List Nat) : List Hop → WalkM Unit
  | [] => pure ()
  | .via op target :: rest => do
    let targets ← resolve ls target
    WalkM.step (Walk.connect values sources op targets)
    follow ls values targets rest

def visitAll (ls : Layouts) : List Statement → WalkM Unit
  | [] => pure ()
  | s :: rest => do
    visit ls s
    visitAll ls rest

end

/-! ## Lemmas -/

namespace WalkM

variable {α β : Type}

/-- A sequence goes on from the state that its first part reached, if that did not end early. -/
theorem bind_apply (m : WalkM α) (k : α → WalkM β) (w : Walk) :
    (m >>= k) w = match m w with
      | .ok a w' => k a w'
      | .error e w' => .error e w' := by
  show EStateM.bind m k w = _
  unfold EStateM.bind
  cases m w <;> rfl

end WalkM

/-- Bodies one after the other are walked over one after the other. -/
theorem visitAll_append (ls : Layouts) (b c : List Statement) :
    visitAll ls (b ++ c) = (do visitAll ls b; visitAll ls c) := by
  induction b with
  | nil => simp [visitAll]
  | cons s b ih => simp [visitAll, ih]

end DotSemantics
