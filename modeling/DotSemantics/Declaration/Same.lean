import DotSemantics.Declaration

/-!
# Sameness of declarations

Two parts of declarations are the same if they have the same shape, operators and targets, and
their words stand for the same texts: a keyword is the same as the plain text that it stands for.
-/

namespace DotSemantics

/-- Whether two lists have the same length and agree place by place. -/
def allSame {α : Type} (same : α → α → Bool) : List α → List α → Bool
  | [], [] => true
  | a :: r, b :: s => same a b && allSame same r s
  | _, _ => false

/-- Whether two optional values are both absent, or both there and agree. -/
def optionSame {α : Type} (same : α → α → Bool) : Option α → Option α → Bool
  | none, none => true
  | some a, some b => same a b
  | _, _ => false

/-- Whether two words stand for the same text. -/
def Word.same (a b : Word) : Bool := a.toText == b.toText

def Attribute.same (a b : Attribute) : Bool := a.name.same b.name && a.value.same b.value

def AttrList.same (l m : AttrList) : Bool := allSame Attribute.same l.attributes m.attributes

mutual

def Statement.same : Statement → Statement → Bool
  | .assign a, .assign b => a.same b
  | .attrs t ls, .attrs u ms => t == u && allSame AttrList.same ls ms
  | .node i ls, .node j ms => i.same j && allSame AttrList.same ls ms
  | .edge s hs ls, .edge t is ms => s.same t && sameHops hs is && allSame AttrList.same ls ms
  | .subgraph n b, .subgraph m c => optionSame Word.same n m && sameBody b c
  | _, _ => false

def Endpoint.same : Endpoint → Endpoint → Bool
  | .node i, .node j => i.same j
  | .subgraph n b, .subgraph m c => optionSame Word.same n m && sameBody b c
  | _, _ => false

def Hop.same : Hop → Hop → Bool
  | .via o e, .via p f => o == p && e.same f

def sameBody : List Statement → List Statement → Bool
  | [], [] => true
  | a :: r, b :: s => a.same b && sameBody r s
  | _, _ => false

def sameHops : List Hop → List Hop → Bool
  | [], [] => true
  | a :: r, b :: s => a.same b && sameHops r s
  | _, _ => false

end

def Declaration.same (d e : Declaration) : Bool :=
  d.kind == e.kind && optionSame Word.same d.name e.name && sameBody d.body e.body

end DotSemantics
