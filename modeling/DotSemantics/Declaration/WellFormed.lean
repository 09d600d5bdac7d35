import DotSemantics.Declaration

/-!
# Well-formed declarations

The one thing that the types of a declaration leave open: every edge chain has a hop.
-/

namespace DotSemantics

mutual

/-- Whether every edge chain in a statement has a hop. -/
def Statement.WellFormed : Statement → Prop
  | .assign _ => True
  | .attrs _ _ => True
  | .node _ _ => True
  | .edge source hops _ => hops ≠ [] ∧ source.WellFormed ∧ HopsWellFormed hops
  | .subgraph _ body => BodyWellFormed body

def Endpoint.WellFormed : Endpoint → Prop
  | .node _ => True
  | .subgraph _ body => BodyWellFormed body

def HopsWellFormed : List Hop → Prop
  | [] => True
  | .via _ target :: rest => target.WellFormed ∧ HopsWellFormed rest

def BodyWellFormed : List Statement → Prop
  | [] => True
  | s :: rest => s.WellFormed ∧ BodyWellFormed rest

end

def Declaration.WellFormed (d : Declaration) : Prop := BodyWellFormed d.body

theorem hopsWellFormed_iff (hops : List Hop) :
    HopsWellFormed hops ↔ ∀ h ∈ hops, h.target.WellFormed := by
  induction hops with
  | nil => simp [HopsWellFormed]
  | cons h hops ih =>
    cases h with
    | via op target => rw [HopsWellFormed, ih, List.forall_mem_cons]; rfl

theorem bodyWellFormed_iff (b : List Statement) :
    BodyWellFormed b ↔ ∀ s ∈ b, s.WellFormed := by
  induction b with
  | nil => simp [BodyWellFormed]
  | cons s b ih => rw [BodyWellFormed, ih, List.forall_mem_cons]

end DotSemantics
